import Smtpd.Dialogue
import Smtpd.Exchange

namespace Smtpd

open Checked CString Incremental Runs

/-- What answering a command keeps. -/
structure Key.Kept (key key' : Key) : Prop where
  stm : key'.data.stm = key.data.stm
  readBuffer : key'.data.readBuffer = key.data.readBuffer
  dataParser : key'.data.dataParser = key.data.dataParser

section Answers

variable {env : Env} {key key' : Key} {r : SmtpState}

/-- The dialogue before the command that has just been read. -/
def Key.before (key : Key) (st : SmtpState) (command : RequestCommand) (request : Request) : Dialogue :=
  { key.dialogue st with command, request }

/-- An answer of the server is a step of the dialogue. -/
def Key.Answers (key : Key) (st r : SmtpState) (key' : Key) : Prop :=
  key.Kept key' ∧ ∀ command request, (key.before st command request).Does
    (some (key.data.requestParser.command, key.data.requestParser.request)) r (key'.dialogue st)

theorem quitReply_answers {st : SmtpState} (hst : st.readsRequest = true)
    (hc : key.data.requestParser.command = .quit) (h : quitReply env key st = .ok (r, key')) :
    key.Answers st r key' := by
  obtain ⟨rfl, wb, i, sent, rfl⟩ := quitReply_ok h
  refine ⟨⟨rfl, rfl, rfl⟩, fun command request => ?_⟩
  rw [hc]
  have hdone : (key.before st command request).Does
      (some (.quit, key.data.requestParser.request)) .done
      ((key.before st command request).answer .quit key.data.requestParser.request
        (ascii "221 Bye\r\n")) := .quit hst (by decide)
  simpa [Key.dialogue, Key.before, Dialogue.answer, Key.withOutput, hc] using hdone

theorem refused_answers {st next : SmtpState} {text : List UInt8} {n : Nat}
    (hr : (key.dialogue st).refusal key.data.requestParser.command key.data.requestParser.request = some next)
    (hcode : replyCode text ∈ [ascii "500", ascii "503", ascii "550"])
    (h : reply key st text n = .ok key') : key.Answers st next key' := by
  obtain ⟨wb, rfl⟩ := reply_ok h
  exact ⟨⟨rfl, rfl, rfl⟩, fun command request =>
    .refused (d := key.before st command request) hr hcode⟩

theorem failedConnectionAnswer_answers (h : failedConnectionAnswer env key = .ok (r, key')) :
    key.Answers .failedConnectionRead r key' := by
  unfold failedConnectionAnswer at h
  split at h
  next hc => exact quitReply_answers rfl hc h
  next =>
    cases h
    exact ⟨⟨rfl, rfl, rfl⟩, fun command request => .turnedAway rfl⟩

theorem greeted_answers {text : List UInt8} {n : Nat}
    (hc : key.data.requestParser.command = .ehlo ∨ key.data.requestParser.command = .helo)
    (hcode : replyCode text = ascii "250") (h : reply key .ehloRead text n = .ok key') :
    key.Answers .ehloRead .ehloWrite key' := by
  obtain ⟨wb, rfl⟩ := reply_ok h
  exact ⟨⟨rfl, rfl, rfl⟩, fun command request =>
    .greeted (d := key.before .ehloRead command request) rfl hc hcode⟩

theorem ehloAnswer_answers (h : ehloAnswer env key = .ok (r, key')) :
    key.Answers .ehloRead r key' := by
  unfold ehloAnswer at h
  split at h
  next hc =>
    obtain ⟨key₁, hreply, h⟩ := bind_ok h
    cases h
    exact greeted_answers (Or.inl hc) (by decide) hreply
  next hc =>
    obtain ⟨key₁, hreply, h⟩ := bind_ok h
    cases h
    exact greeted_answers (Or.inr hc) (by decide) hreply
  next hc => exact quitReply_answers rfl hc h
  next he hh hq =>
    obtain ⟨key₁, hreply, h⟩ := bind_ok h
    cases h
    refine refused_answers (if_neg ?_) (by decide) hreply
    rintro (hc | hc)
    · exact he hc
    · exact hh hc

theorem mailFromAnswer_answers (h : mailFromAnswer env key = .ok (r, key')) :
    key.Answers .mailFromRead r key' := by
  unfold mailFromAnswer at h
  split at h
  next hc =>
    obtain ⟨⟨sender, key₁⟩, hcopy, h⟩ := bind_ok h
    obtain ⟨key₂, hreply, h⟩ := bind_ok h
    cases h
    obtain ⟨address, haddress, hcopy⟩ := bind_ok hcopy
    split at hcopy
    case isFalse => cases hcopy
    next hlen =>
      cases hcopy
      obtain ⟨wb, rfl⟩ := reply_ok hreply
      have hgiven := demand_ok haddress
      have hkept : cstring (overwrite key.data.mailfrom 0 (sender ++ [0])) = some sender := by
        simpa [overwrite] using cstring_append (cstring_eq_some hgiven).1
      refine ⟨⟨rfl, rfl, rfl⟩, fun command request => ?_⟩
      have hsender : (key.before .mailFromRead command request).Does
          (some (.mail, key.data.requestParser.request)) .mailFromWrite
          { (key.before .mailFromRead command request).answer .mail key.data.requestParser.request
            (ascii "250 Mail from received - " ++ sender ++ ascii "\r\n") with
            mailfrom := overwrite key.data.mailfrom 0 (sender ++ [0]) } := .sender rfl hgiven hkept rfl
      simpa [Key.dialogue, Key.before, Dialogue.answer, Key.withOutput, hc] using hsender
  next hc => exact quitReply_answers rfl hc h
  next hc =>
    obtain ⟨key₁, hreply, h⟩ := bind_ok h
    cases h
    exact refused_answers (if_neg (by rw [hc]; decide)) (by decide) hreply
  next hm hq hr =>
    obtain ⟨key₁, hreply, h⟩ := bind_ok h
    cases h
    exact refused_answers (if_neg hm) (by decide) hreply

theorem acceptRcpt_answers {st : SmtpState} (hc : key.data.requestParser.command = .rcpt)
    (hst : st = .rcptToRead ∧ checkEmailDomain key.data.requestParser.request.bytes = .ok true ∨
      st = .dataRead)
    (h : acceptRcpt env key st = .ok (r, key')) : key.Answers st r key' := by
  obtain ⟨rcptList, hadd, h⟩ := bind_ok h
  obtain ⟨email, hemail, h⟩ := bind_ok h
  obtain ⟨key₁, hreply, h⟩ := bind_ok h
  cases h
  obtain ⟨wb, rfl⟩ := reply_ok hreply
  have hgiven := demand_ok hemail
  obtain ⟨node, rfl, hkept⟩ := addRcptToList_ok hgiven hadd
  refine ⟨⟨rfl, rfl, rfl⟩, fun command request => ?_⟩
  have hrcpt : (key.before st command request).Does
      (some (.rcpt, key.data.requestParser.request)) .rcptToWrite
      { (key.before st command request).answer .rcpt key.data.requestParser.request
        (ascii "250 Rcpt to received - " ++ email ++ ascii "\r\n") with
        rcpts := node.email :: key.data.rcptList.map RcptNode.email } := .recipient hst hgiven hkept rfl
  simpa [Key.dialogue, Key.before, Dialogue.answer, Key.withOutput, hc] using hrcpt

theorem rcptToAnswer_answers (h : rcptToAnswer env key = .ok (r, key')) :
    key.Answers .rcptToRead r key' := by
  unfold rcptToAnswer at h
  split at h
  next hc =>
    obtain ⟨known, hknown, h⟩ := bind_ok h
    cases known with
    | true => exact acceptRcpt_answers hc (Or.inl ⟨rfl, hknown⟩) h
    | false =>
      obtain ⟨key₁, hreply, h⟩ := bind_ok h
      cases h
      refine refused_answers ?_ (by decide) hreply
      simp [Dialogue.refusal, Key.dialogue, hc, hknown]
  next hc => exact quitReply_answers rfl hc h
  next hc =>
    obtain ⟨key₁, hreply, h⟩ := bind_ok h
    cases h
    exact refused_answers (if_pos hc) (by decide) hreply
  next hr hq hd =>
    obtain ⟨key₁, hreply, h⟩ := bind_ok h
    cases h
    exact refused_answers ((if_neg hd).trans (if_neg fun hc => hr hc.1)) (by decide) hreply

theorem dataAnswer_answers (h : dataAnswer env key = .ok (r, key')) :
    key.Answers .dataRead r key' := by
  unfold dataAnswer at h
  split at h
  next hc =>
    obtain ⟨key₁, hreply, h⟩ := bind_ok h
    obtain ⟨⟨rcptList, os⟩, hmails, h⟩ := bind_ok h
    cases h
    obtain ⟨wb, rfl⟩ := reply_ok hreply
    have hemails : rcptList.map RcptNode.email = key.data.rcptList.map RcptNode.email :=
      createMailsFiles_emails hmails
    refine ⟨⟨rfl, rfl, rfl⟩, fun command request => ?_⟩
    have hdata : (key.before .dataRead command request).Does
        (some (.data, key.data.requestParser.request)) .dataWrite
        { key.before .dataRead .data key.data.requestParser.request with
          log := key.log ++ [.answered .dataRead .data key.data.requestParser.request
            (ascii "354 End data with <CR><LF>.<CR><LF>\r\n")] ++
            [.mailsCreated (key.data.rcptList.map RcptNode.email) key.data.mailfrom] } :=
      .data rfl (by decide)
    simpa [Key.dialogue, Key.before, Dialogue.answer, Key.withOutput, hc, hemails] using hdata
  next hc => exact quitReply_answers rfl hc h
  next hc => exact acceptRcpt_answers hc (Or.inr rfl) h
  next hd hq hr =>
    obtain ⟨key₁, hreply, h⟩ := bind_ok h
    cases h
    refine refused_answers (if_neg ?_) (by decide) hreply
    rintro (hc | hc)
    · exact hd hc
    · exact hr hc

end Answers

/-- What a handler leaves as the other handlers need it. -/
structure Key.Stays (key key' : Key) : Prop where
  stm : key'.data.stm = key.data.stm
  input : key'.data.readBuffer.Sized 2048
  body : key'.data.dataParser.dataBuffer.Sized 2048

section Handlers

variable {env : Env} {key key₁ : Key} {st next : SmtpState}

/-- A state that reads a command. -/
theorem requestRead_does {answer : Env → Key → Result (SmtpState × Key)} (hs : key.Sound st)
    (hreg : key.registered = true) (hint : key.interest = .read) (hreads : st.readsRequest = true)
    (hanswer : ∀ {key r key'}, answer env key = .ok (r, key') → key.Answers st r key')
    (h : readStatus env key (fun env key => requestProcess env key st answer) = .ok (next, key₁)) :
    (key.dialogue st).Does (key.asked st (.ready .read env)) next (key₁.dialogue st) ∧
      key.Stays key₁ := by
  rcases requestRead_ok hs.input hreg hint hreads h with
    ⟨hasked, rfl, g, rfl⟩ | ⟨rb, g, received, rb', p, hrb', ⟨hasked, rfl, rfl⟩ | ⟨hasked, h⟩⟩
  · rw [hasked]
    exact ⟨.lost, rfl, hs.input, hs.body⟩
  · rw [hasked]
    exact ⟨.listened hreads, rfl, hrb', hs.body⟩
  · rw [hasked]
    obtain ⟨hkept, hdoes⟩ := hanswer h
    exact ⟨hdoes key.data.requestParser.command key.data.requestParser.request, hkept.stm,
      hkept.readBuffer ▸ hrb', hkept.dataParser ▸ hs.body⟩

theorem mailInfoRead_does (hs : key.Sound .mailInfoRead) (hreg : key.registered = true)
    (h : mailInfoRead env key = .ok (next, key₁)) :
    (key.dialogue .mailInfoRead).Does none next (key₁.dialogue .mailInfoRead) ∧ key.Stays key₁ := by
  rcases readStatus_ok hs.input h with ⟨-, rfl, g, rfl⟩ | ⟨rb, g, received, hrb, -, -, -, h⟩
  · exact ⟨.lost, rfl, hs.input, hs.body⟩
  · obtain ⟨front, rb', dp, os, -, hrb', hdp, -, -, -, -, -, hcase⟩ := mailInfoReadProcess_ok
      (show (key.withInput rb g received).data.readBuffer.Sized 2048 from hrb) hs.body hreg h
    rcases hcase with ⟨-, -, rfl, rfl⟩ | ⟨-, rfl, wb, -, rfl⟩
    · exact ⟨.idle, rfl, hrb', hdp⟩
    · exact ⟨.stored rfl, rfl, hrb', hdp⟩

theorem onRead_does {f : Env → Key → Result (SmtpState × Key)} (hs : key.Sound st)
    (hreg : key.registered = true) (hint : key.interest = .read) (hf : st.onRead = some f)
    (h : f env key = .ok (next, key₁)) :
    (key.dialogue st).Does (key.asked st (.ready .read env)) next (key₁.dialogue st) ∧
      key.Stays key₁ := by
  cases st with
  | failedConnectionRead =>
    cases hf
    exact requestRead_does hs hreg hint rfl failedConnectionAnswer_answers h
  | ehloRead =>
    cases hf
    exact requestRead_does hs hreg hint rfl ehloAnswer_answers h
  | mailFromRead =>
    cases hf
    exact requestRead_does hs hreg hint rfl mailFromAnswer_answers h
  | rcptToRead =>
    cases hf
    exact requestRead_does hs hreg hint rfl rcptToAnswer_answers h
  | dataRead =>
    cases hf
    exact requestRead_does hs hreg hint rfl dataAnswer_answers h
  | mailInfoRead =>
    cases hf
    have hnone : key.asked .mailInfoRead (.ready .read env) = none := if_neg (by simp [SmtpState.readsRequest])
    rw [hnone]
    exact mailInfoRead_does hs hreg h
  | _ => cases hf

/-- A state that sends an answer. -/
theorem writeStatus_does {key₀ : Key} {sent : SmtpState} (hs : key.Sound st)
    (hk : ∃ wb, key₀ = key.withOutput wb key.interest [])
    (hafter : (key.dialogue st).afterReply = some sent)
    (h : writeStatus env key₀ st sent = .ok (next, key₁)) :
    (key.dialogue st).Does none next (key₁.dialogue st) ∧ key.Stays key₁ := by
  obtain ⟨wb₀, rfl⟩ := hk
  obtain ⟨wb, i, sent, rfl, hr⟩ := writeStatus_ok h
  refine ⟨?_, rfl, hs.input, hs.body⟩
  rcases hr with rfl | rfl | rfl
  · exact .lost
  · exact .sent hafter
  · exact .idle

theorem onWrite_does {f : Env → Key → Result (SmtpState × Key)} (hs : key.Sound st)
    (hf : st.onWrite = some f) (h : f env key = .ok (next, key₁)) :
    (key.dialogue st).Does none next (key₁.dialogue st) ∧ key.Stays key₁ := by
  have hself : ∃ wb, key = key.withOutput wb key.interest [] := ⟨_, key.withOutput_self.symm⟩
  cases st with
  | greetingWrite =>
    cases hf
    obtain ⟨key₀, hcopy, h⟩ := bind_ok h
    exact writeStatus_does hs (copyToWriteBuffer_ok hcopy) rfl h
  | failedConnectionWrite =>
    cases hf
    obtain ⟨key₀, hcopy, h⟩ := bind_ok h
    exact writeStatus_does hs (copyToWriteBuffer_ok hcopy) rfl h
  | ehloWrite =>
    cases hf
    unfold ehloWrite at h
    split at h
    next hc => exact writeStatus_does hs hself (congrArg some (if_pos (Or.inl hc))) h
    next hc => exact writeStatus_does hs hself (congrArg some (if_pos (Or.inr hc))) h
    next he hh =>
      refine writeStatus_does hs hself (congrArg some (if_neg ?_)) h
      rintro (hc | hc)
      · exact he hc
      · exact hh hc
  | mailFromWrite =>
    cases hf
    unfold mailFromWrite at h
    split at h
    next hc => exact writeStatus_does hs hself (congrArg some (if_pos hc)) h
    next hc => exact writeStatus_does hs hself (congrArg some (if_neg hc)) h
  | rcptToWrite =>
    cases hf
    unfold rcptToWrite at h
    split at h
    next hc =>
      obtain ⟨known, hknown, h⟩ := bind_ok h
      cases known with
      | true => exact writeStatus_does hs hself (congrArg some (if_pos ⟨hc, hknown⟩)) h
      | false =>
        refine writeStatus_does hs hself (congrArg some (if_neg ?_)) h
        rintro ⟨-, hk⟩
        rw [Key.dialogue, hknown] at hk
        cases hk
    next hc => exact writeStatus_does hs hself (congrArg some (if_neg fun hn => hc hn.1)) h
  | dataWrite =>
    cases hf
    unfold dataWrite at h
    split at h
    next hc => exact writeStatus_does hs hself (congrArg some (if_pos hc)) h
    next hc =>
      refine writeStatus_does hs hself (congrArg some (if_neg ?_)) h
      change ¬ key.data.requestParser.command = _
      rw [hc]
      decide
    next hc _ => exact writeStatus_does hs hself (congrArg some (if_neg hc)) h
  | mailInfoWrite =>
    cases hf
    exact writeStatus_does hs hself rfl h
  | _ => cases hf

end Handlers

section Hooks

variable {env : Env} {key key' : Key} {st next : SmtpState}

theorem departure_leaves (next : SmtpState) (hi : key.data.readBuffer.Sized 2048)
    (hb : key.data.dataParser.dataBuffer.Sized 2048)
    (h : runHook (st.departure env) st.index key = .ok key') :
    key'.dialogue next = (key.dialogue st).leave next ∧ key.Stays key' := by
  cases st with
  | dataWrite =>
    cases h
    have hraw : 2048 ≤ key.data.dataParser.dataBuffer.raw.length := hb.limit ▸ hb.valid.limit_le
    exact ⟨rfl, rfl, hi, bufferInit_sized hraw⟩
  | mailInfoWrite =>
    obtain ⟨os, -, -, rfl⟩ := departure_mailInfoWrite h
    exact ⟨rfl, rfl, hi, hb⟩
  | _ =>
    cases h
    exact ⟨rfl, rfl, hi, hb⟩

theorem arrival_arrives (hi : key.data.readBuffer.Sized 2048)
    (hb : key.data.dataParser.dataBuffer.Sized 2048)
    (h : runHook next.arrival next.index key = .ok key') :
    key'.dialogue next = (key.dialogue next).arrive ∧ key.Stays key' := by
  unfold SmtpState.arrival at h
  split at h
  next hr =>
    cases h
    exact ⟨(if_pos (c := (key.dialogue next).state.readsRequest = true) hr).symm, rfl, hi, hb⟩
  next hr =>
    cases h
    exact ⟨(if_neg (c := (key.dialogue next).state.readsRequest = true) hr).symm, rfl, hi, hb⟩

theorem changeState_moves (hi : key.data.readBuffer.Sized 2048)
    (hb : key.data.dataParser.dataBuffer.Sized 2048) (h : changeState env st next key = .ok key') :
    key'.dialogue next = (key.dialogue st).move next ∧ key.Stays key' := by
  unfold changeState at h
  split at h
  next hsame =>
    cases h
    subst hsame
    exact ⟨(Dialogue.move_self _).symm, rfl, hi, hb⟩
  next hne =>
    obtain ⟨key₁, hleave, h⟩ := bind_ok h
    obtain ⟨hd, hkept⟩ := departure_leaves next hi hb hleave
    obtain ⟨hd', hkept'⟩ := arrival_arrives hkept.input hkept.body h
    have hne' : next ≠ (key.dialogue st).state := hne
    rw [Dialogue.move, if_neg hne', hd', hd]
    exact ⟨rfl, hkept'.stm.trans hkept.stm, hkept'.input, hkept'.body⟩

end Hooks

theorem settle_sound {stm : StateMachine} {next : SmtpState} {key key' : Key}
    (hmax : stm.maxState = SmtpState.error.index) (hi : key.data.readBuffer.Sized 2048)
    (hb : key.data.dataParser.dataBuffer.Sized 2048) (h : settle stm next key = .ok key') :
    key'.Sound next ∧ key'.dialogue next = key.dialogue next := by
  obtain ⟨hdata, hlog, -⟩ := settle_ok h
  constructor
  · refine ⟨⟨?_, ?_, ?_⟩, ?_, ?_⟩ <;> rw [hdata]
    · rfl
    · exact hmax
    · simp
    · exact hi
    · exact hb
  · simp [Key.dialogue, hdata, hlog]

/-- An event takes a connection that is in one of its states to one that is in one, and what
shows of it is a step of the dialogue. -/
theorem sessionStep_refines {key key' : Key} {st : SmtpState} {ev : Event} (hs : key.Sound st)
    (h : sessionStep key ev = .ok key') :
    ∃ st', key'.Sound st' ∧
      Dialogue.Step (key.asked st ev) (key.dialogue st) (key'.dialogue st') := by
  have hidle : Dialogue.Step none (key.dialogue st) (key.dialogue st) :=
    ⟨st, key.dialogue st, .idle, (Dialogue.move_self _).symm⟩
  rcases sessionStep_cases hs.machine h with
    ⟨rfl, hnone, -⟩ | ⟨globals, tree, fds, rfl, rfl⟩ | ⟨env, next, key₁, key₂, rfl, hint, hh⟩ |
    ⟨env, next, key₁, key₂, rfl, hh⟩
  · rw [hnone]
    exact ⟨st, hs, hidle⟩
  · exact ⟨st, ⟨⟨hs.machine.state, hs.machine.maxState, hs.machine.first⟩, hs.input, hs.body⟩, hidle⟩
  · obtain ⟨f, hf, hcall⟩ := hh.callback
    obtain ⟨hdoes, hkept⟩ := onRead_does hs hh.registered hint hf hcall
    obtain ⟨hmove, hkept'⟩ := changeState_moves hkept.input hkept.body hh.hooks
    obtain ⟨hsound, hsame⟩ := settle_sound hs.machine.maxState hkept'.input hkept'.body hh.settled
    exact ⟨next, hsound, next, key₁.dialogue st, hdoes, hsame.trans hmove⟩
  · obtain ⟨f, hf, hcall⟩ := hh.callback
    obtain ⟨hdoes, hkept⟩ := onWrite_does hs hf hcall
    obtain ⟨hmove, hkept'⟩ := changeState_moves hkept.input hkept.body hh.hooks
    obtain ⟨hsound, hsame⟩ := settle_sound hs.machine.maxState hkept'.input hkept'.body hh.settled
    exact ⟨next, hsound, next, key₁.dialogue st, hdoes, hsame.trans hmove⟩

/-- An event meets a condition on what it finds and on the command it completes. -/
def Key.Meets (key : Key) (C : Dialogue → Option (RequestCommand × Request) → Prop) (ev : Event) :
    Prop :=
  C (key.dialogue key.state) (key.asked key.state ev)

instance (C : Dialogue → Option (RequestCommand × Request) → Prop) [∀ d asked, Decidable (C d asked)]
    (key : Key) (ev : Event) : Decidable (key.Meets C ev) :=
  inferInstanceAs (Decidable (C _ _))

/-- What holds of a dialogue before the first event and is preserved by every step on an
event that meets a condition holds after every run of such events. -/
theorem dialogue_invariant {I : Dialogue → Prop}
    {C : Dialogue → Option (RequestCommand × Request) → Prop} {key key' : Key} {es : List Event}
    (start : ∀ d : Dialogue, d.state = .greetingWrite ∨ d.state = .failedConnectionWrite →
      d.rcpts = [] → d.log = [] → I d)
    (preserved : ∀ d asked d', I d → C d asked → Dialogue.Step asked d d' → I d')
    (ha : Accepted key)
    (meets : Meets sessionStep (fun key ev => key.Meets C ev) key es)
    (h : run sessionStep key es = .ok key') : key'.Sound key'.state ∧ I (key'.dialogue key'.state) := by
  obtain ⟨st, hfresh⟩ := accepted_fresh ha
  refine run_invariant (I := fun _ key => key.Sound key.state ∧ I (key.dialogue key.state)) ?_ ?_ meets h
  · rw [hfresh.sound.machine.state_eq]
    exact ⟨hfresh.sound, start _ hfresh.state (by simp [Key.dialogue, hfresh.rcptList]) hfresh.log⟩
  · rintro xs ev key₁ key₂ - ⟨hs, hI⟩ hC hstep
    obtain ⟨st₂, hs₂, hd⟩ := sessionStep_refines hs hstep
    rw [hs₂.machine.state_eq]
    exact ⟨hs₂, preserved _ _ _ hI hC hd⟩

/-- A connection is in one of its states, with its buffers in use, whatever its client does. -/
theorem accepted_sound {key key' : Key} {es : List Event} (ha : Accepted key)
    (h : run sessionStep key es = .ok key') : key'.Sound key'.state :=
  (dialogue_invariant (I := fun _ => True) (C := fun _ _ => True) (fun _ _ _ _ => trivial)
    (fun _ _ _ _ _ _ => trivial) ha (Meets.of_events fun _ _ _ => trivial) h).1

end Smtpd
