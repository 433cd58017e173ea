import Smtpd.Replies

namespace Smtpd

open Checked CString Incremental

/-- A connection that has read a command to its end. -/
def Key.asking (key : Key) (rb : Buffer) (g : Globals) (received : List (List UInt8)) (p : RequestParser) : Key :=
  { (key.withInput rb g received).withRequest rb p with interest := .write }

/-- A read event gives the parsers what is at hand, of which this buffer keeps the rest. -/
structure Key.Takes (env : Env) (key : Key) (received : List (List UInt8)) (rb : Buffer) : Prop where
  sized : rb.Sized 2048
  hand : key.atHand env = key.data.readBuffer.pending ++ received.flatten
  any : key.atHand env ≠ []

/-- A read event of a message, which consumes `front`. -/
structure Key.ReadsBody (env : Env) (key : Key) (g : Globals) (received : List (List UInt8))
    (front : List UInt8) (rb : Buffer) (dp : DataParser) (os : Os) : Prop where
  takes : key.Takes env received rb
  input : key.atHand env = front ++ rb.pending
  body : dp.dataBuffer.Sized 2048
  start : dp.dataBuffer.read = 0
  state : dp.state = dataRun key.data.dataParser.state front
  output : dp.dataBuffer.pending = (dataWritten key.data.dataParser.state front).take 2048
  first : key.data.dataParser.state ≠ .done →
    ∀ m < front.length, dataRun key.data.dataParser.state (front.take m) ≠ .done
  written : writeToFiles (key.withInput rb g received).os dp key.data.rcptList = .ok os

/-- The states that greet copy their text behind what waits; the others have put theirs there. -/
structure Key.Prepares (key : Key) (st : SmtpState) (wb : Buffer) : Prop where
  sized : wb.Sized 2048
  greets : ∀ message ∈ st.greeting,
    wb.pending.length = key.data.writeBuffer.pending.length + message.length ∧
      (key.data.writeBuffer.pending = [] → wb.pending = message)
  plain : st.greeting = none → wb = key.data.writeBuffer

/-- What the callback of a state does with a connection, and the state that it asks for. -/
inductive Key.Turn (env : Env) (key : Key) (st : SmtpState) : SmtpState → Key → Prop
  /-- nothing can be received -/
  | lost {g} (reads : st.interest = .read) (hand : key.atHand env = []) :
      key.Turn env st .error (key.withInput key.data.readBuffer g [])
  /-- the command at hand is not complete -/
  | listened {rb g received p errored} (reads : st.readsRequest = true) (takes : key.Takes env received rb)
      (fed : requestParser.feedUntil (key.data.requestParser, false) (key.atHand env) =
        .ok ((p, errored), rb.pending))
      (waits : p.state ≠ .done) :
      key.Turn env st st ((key.withInput rb g received).withRequest rb p)
  | answered {rb g received p errored next key₁} (reads : st.readsRequest = true)
      (takes : key.Takes env received rb)
      (fed : requestParser.feedUntil (key.data.requestParser, false) (key.atHand env) =
        .ok ((p, errored), rb.pending))
      (done : p.state = .done) (answer : (key.asking rb g received p).Answer env st next key₁) :
      key.Turn env st next key₁
  /-- the message at hand is not complete -/
  | received {g received front rb dp os} (state : st = .mailInfoRead)
      (reads : key.ReadsBody env g received front rb dp os) (waits : dp.state ≠ .done) (rest : rb.pending = []) :
      key.Turn env st .mailInfoRead { key.withInput rb g received with
        data := { key.data with readBuffer := rb, dataParser := dp }, os }
  | stored {g received front rb dp os wb} (state : st = .mailInfoRead)
      (reads : key.ReadsBody env g received front rb dp os) (done : dp.state = .done) (sized : wb.Sized 2048)
      (pending : wb.pending = key.data.writeBuffer.pending ++ queuedText) :
      key.Turn env st .mailInfoWrite { key.withInput rb g received with
        interest := .write
        data := { key.data with readBuffer := rb, dataParser := dp, writeBuffer := wb }
        os
        log := key.log ++ [.stored queuedText] }
  /-- nothing can be sent -/
  | unsent {wb} (writes : st.interest = .write) (prepares : key.Prepares st wb)
      (taken : (key.withOutput wb key.interest []).taken env = []) :
      key.Turn env st .error (key.withOutput wb key.interest [])
  | sending {wb wb' sent} (writes : st.interest = .write) (prepares : key.Prepares st wb)
      (taken : sent = (key.withOutput wb key.interest []).taken env) (any : sent ≠ [])
      (sized : wb'.Sized 2048) (split : wb.pending = sent ++ wb'.pending) (rest : wb'.pending ≠ []) :
      key.Turn env st st (key.withOutput wb' key.interest [sent])
  | sent {wb wb' sent next} (writes : st.interest = .write) (prepares : key.Prepares st wb)
      (taken : sent = (key.withOutput wb key.interest []).taken env) (any : sent ≠ [])
      (sized : wb'.Sized 2048) (split : wb.pending = sent) (rest : wb'.pending = [])
      (after : (key.dialogue st).afterReply = some next) :
      key.Turn env st next (key.withOutput wb' .read [sent])

section Callbacks

variable {env : Env} {key key₁ : Key} {st next : SmtpState} {f : Env → Key → Result (SmtpState × Key)}

theorem interest_of_reads (h : st.readsRequest = true) : st.interest = .read := by
  cases st <;> first | rfl | cases h

theorem readsRequest_of_write (h : st.interest = .write) : st.readsRequest = false := by
  cases st <;> first | rfl | cases h

theorem requestRead_turn {answer : Env → Key → Result (SmtpState × Key)} (hs : key.data.readBuffer.Sized 2048)
    (hreg : key.registered = true) (hreads : st.readsRequest = true)
    (hanswer : ∀ {rb g received p r key'}, answer env (key.asking rb g received p) = .ok (r, key') →
      (key.asking rb g received p).Answer env st r key')
    (h : readStatus env key (fun env key => requestProcess env key st answer) = .ok (next, key₁)) :
    key.Turn env st next key₁ := by
  rcases readStatus_ok hs h with ⟨hnil, rfl, g, rfl⟩ | ⟨rb, g, received, hrb, hhand, hne, hpend, h⟩
  · exact .lost (interest_of_reads hreads) hnil
  · have hrb' : (key.withInput rb g received).data.readBuffer.Sized 2048 := hrb
    rcases requestProcess_eq env st answer hrb' hreg with
      ⟨e, -, he⟩ | ⟨rb', p, errored, hsized, hfeed, hcase⟩
    · rw [he] at h
      cases h
    · have hfed : requestParser.feedUntil (key.data.requestParser, false) (key.atHand env) =
          .ok ((p, errored), rb'.pending) := by
        rw [← hhand]
        exact hfeed
      have htakes : key.Takes env received rb' := ⟨hsized, hhand.symm.trans hpend, hhand ▸ hne⟩
      rcases hcase with ⟨hd, he⟩ | ⟨hd, he⟩ <;> rw [he] at h
      · cases h
        exact .listened hreads htakes hfed hd
      · exact .answered hreads htakes hfed hd (hanswer h)

theorem mailInfoRead_turn (hs : key.Sound .mailInfoRead) (hout : key.data.writeBuffer.Sized 2048)
    (hreg : key.registered = true) (h : mailInfoRead env key = .ok (next, key₁)) :
    key.Turn env .mailInfoRead next key₁ := by
  rcases readStatus_ok hs.input h with ⟨hnil, rfl, g, rfl⟩ | ⟨rb, g, received, hrb, hhand, hne, hpend, h⟩
  · exact .lost rfl hnil
  · obtain ⟨front, rb', dp, os, hfront, hsized, hbody, hstart, hst, houtput, hfirst, hwritten, hcase⟩ :=
      mailInfoReadProcess_ok (show (key.withInput rb g received).data.readBuffer.Sized 2048 from hrb)
        hs.body hreg h
    have htakes : key.Takes env received rb' := ⟨hsized, hhand.symm.trans hpend, hhand ▸ hne⟩
    have hreads : key.ReadsBody env g received front rb' dp os := {
      takes := htakes
      input := hhand.symm.trans hfront
      body := hbody
      start := hstart
      state := hst
      output := houtput
      first := hfirst
      written := hwritten }
    rcases hcase with ⟨hd, hrest, rfl, rfl⟩ | ⟨hd, rfl, wb, hput, rfl⟩
    · exact .received rfl hreads hd hrest
    · obtain ⟨wb', hwb, hpend', hkey⟩ := putString_pending (by exact hout) rfl hput
      have hsame : wb = wb' := congrArg (fun key : Key => key.data.writeBuffer) hkey
      subst hsame
      exact .stored rfl hreads hd hwb hpend'

/-- Every callback for a descriptor that is ready to be read. -/
theorem onRead_turn (hs : key.Sound st) (hout : key.data.writeBuffer.Sized 2048) (hreg : key.registered = true)
    (hf : st.onRead = some f) (h : f env key = .ok (next, key₁)) : key.Turn env st next key₁ := by
  cases st with
  | failedConnectionRead =>
    cases hf
    exact requestRead_turn hs.input hreg rfl (failedConnectionAnswer_answer (by exact hout) (by exact hreg)) h
  | ehloRead =>
    cases hf
    exact requestRead_turn hs.input hreg rfl (ehloAnswer_answer (by exact hout) (by exact hreg)) h
  | mailFromRead =>
    cases hf
    exact requestRead_turn hs.input hreg rfl (mailFromAnswer_answer (by exact hout) (by exact hreg)) h
  | rcptToRead =>
    cases hf
    exact requestRead_turn hs.input hreg rfl (rcptToAnswer_answer (by exact hout) (by exact hreg)) h
  | dataRead =>
    cases hf
    exact requestRead_turn hs.input hreg rfl (dataAnswer_answer (by exact hout) (by exact hreg)) h
  | mailInfoRead =>
    cases hf
    exact mailInfoRead_turn hs hout hreg h
  | _ => cases hf

/-- What waits is sent, from a state that waits for that. -/
theorem writeStatus_turn {wb : Buffer} {sent : SmtpState} (hreg : key.registered = true)
    (hwrites : st.interest = .write) (hprep : key.Prepares st wb)
    (hafter : (key.dialogue st).afterReply = some sent)
    (h : writeStatus env (key.withOutput wb key.interest []) st sent = .ok (next, key₁)) :
    key.Turn env st next key₁ := by
  rcases @writeStatus_eq (key.withOutput wb key.interest []) env st sent hprep.sized hreg with
    ⟨hnil, he⟩ | ⟨hne, wb', hwb, hsplit, ⟨hrest, he⟩ | ⟨hrest, he⟩⟩ <;> rw [he] at h <;> cases h
  · exact .unsent hwrites hprep hnil
  · rw [Key.withOutput_withOutput]
    exact .sending hwrites hprep rfl hne hwb hsplit hrest
  · rw [Key.withOutput_withOutput]
    have hall : wb.pending = (key.withOutput wb key.interest []).taken env := by
      rw [hrest, List.append_nil] at hsplit
      exact hsplit
    exact .sent hwrites hprep rfl hne hwb hall hrest hafter

theorem greeting_turn {message : List UInt8} {sent : SmtpState} (hout : key.data.writeBuffer.Sized 2048)
    (hreg : key.registered = true) (hg : st.greeting = some message) (hwrites : st.interest = .write)
    (hafter : (key.dialogue st).afterReply = some sent)
    (h : (copyToWriteBuffer key message >>= fun key => writeStatus env key st sent) = .ok (next, key₁)) :
    key.Turn env st next key₁ := by
  obtain ⟨key₀, hcopy, h⟩ := bind_ok h
  obtain ⟨wb, hwb, hlen, hpend, rfl⟩ := copyToWriteBuffer_pending hout hcopy
  refine writeStatus_turn hreg hwrites ⟨hwb, fun m hm => ?_, fun hn => ?_⟩ hafter h
  · obtain rfl : message = m := Option.some.inj (hg.symm.trans hm)
    exact ⟨hlen, hpend⟩
  · rw [hg] at hn
    cases hn

/-- Every callback for a descriptor that is ready to be written. -/
theorem onWrite_turn (hout : key.data.writeBuffer.Sized 2048) (hreg : key.registered = true)
    (hf : st.onWrite = some f) (h : f env key = .ok (next, key₁)) : key.Turn env st next key₁ := by
  have hplain : st.greeting = none → key.Prepares st key.data.writeBuffer := by
    intro hn
    exact ⟨hout, fun m hm => (by rw [hn] at hm; cases hm), fun _ => rfl⟩
  have hsend : ∀ sent, st.greeting = none → st.interest = .write → (key.dialogue st).afterReply = some sent →
      writeStatus env key st sent = .ok (next, key₁) → key.Turn env st next key₁ := by
    intro sent hg hwrites hafter h
    rw [← key.withOutput_self] at h
    exact writeStatus_turn hreg hwrites (hplain hg) hafter h
  cases st with
  | greetingWrite =>
    cases hf
    exact greeting_turn hout hreg rfl rfl rfl h
  | failedConnectionWrite =>
    cases hf
    exact greeting_turn hout hreg rfl rfl rfl h
  | ehloWrite =>
    cases hf
    unfold ehloWrite at h
    split at h
    next hc => exact hsend _ rfl rfl (congrArg some (if_pos (Or.inl hc))) h
    next hc => exact hsend _ rfl rfl (congrArg some (if_pos (Or.inr hc))) h
    next he hh => exact hsend _ rfl rfl (congrArg some (if_neg fun hn => hn.elim he hh)) h
  | mailFromWrite =>
    cases hf
    unfold mailFromWrite at h
    split at h
    next hc => exact hsend _ rfl rfl (congrArg some (if_pos hc)) h
    next hc => exact hsend _ rfl rfl (congrArg some (if_neg hc)) h
  | rcptToWrite =>
    cases hf
    unfold rcptToWrite at h
    split at h
    next hc =>
      obtain ⟨known, hknown, h⟩ := bind_ok h
      cases known with
      | true => exact hsend _ rfl rfl (congrArg some (if_pos ⟨hc, hknown⟩)) h
      | false =>
        refine hsend _ rfl rfl (congrArg some (if_neg ?_)) h
        rintro ⟨-, hk⟩
        rw [Key.dialogue, hknown] at hk
        cases hk
    next hc => exact hsend _ rfl rfl (congrArg some (if_neg fun hn => hc hn.1)) h
  | dataWrite =>
    cases hf
    unfold dataWrite at h
    split at h
    next hc => exact hsend _ rfl rfl (congrArg some (if_pos hc)) h
    next hc =>
      refine hsend _ rfl rfl (congrArg some (if_neg ?_)) h
      change ¬ key.data.requestParser.command = _
      rw [hc]
      decide
    next hc _ => exact hsend _ rfl rfl (congrArg some (if_neg hc)) h
  | mailInfoWrite =>
    cases hf
    exact hsend _ rfl rfl rfl h
  | _ => cases hf

end Callbacks

theorem SmtpState.onRead_interest {st : SmtpState} {f : Env → Key → Result (SmtpState × Key)}
    (h : st.onRead = some f) : st.interest = .read := by
  cases st <;> first | rfl | cases h

theorem SmtpState.onWrite_interest {st : SmtpState} {f : Env → Key → Result (SmtpState × Key)}
    (h : st.onWrite = some f) : st.interest = .write := by
  cases st <;> first | rfl | cases h

/-- The event that a state waits for happens: the turn of the state, then the hooks of the two
states, then the end of a connection that is over. -/
structure Key.Passes (env : Env) (key : Key) (st next : SmtpState) (key₁ key₂ key' : Key) : Prop where
  registered : key.registered = true
  waits : key.interest = st.interest
  turn : key.Turn env st next key₁
  hooks : changeState env st next key₁ = .ok key₂
  settled : settle key.data.stm next key₂ = .ok key'

/-- What an event can be to a connection. -/
theorem sessionStep_turn {key key' : Key} {st : SmtpState} {ev : Event} (hs : key.Sound st)
    (hout : key.data.writeBuffer.Sized 2048) (h : sessionStep key ev = .ok key') :
    (∃ op env, ev = .ready op env ∧ ¬ key.Heeds op ∧ key' = key) ∨
    (∃ globals tree fds, ev = .elsewhere globals tree fds ∧
      key' = { key with globals, os := { key.os with tree, fds } }) ∨
    (∃ op env next key₁ key₂, ev = .ready op env ∧ key.Heeds op ∧ key.Passes env st next key₁ key₂ key') := by
  cases ev with
  | elsewhere globals tree fds =>
    cases h
    exact Or.inr (Or.inl ⟨globals, tree, fds, rfl, rfl⟩)
  | ready op env =>
    cases op with
    | read =>
      by_cases hc : key.registered = true ∧ key.interest = .read
      · simp only [sessionStep, if_pos hc, smtpRead_eq hs.machine] at h
        obtain ⟨next, key₁, key₂, hh⟩ := react_ok hc.1 h
        obtain ⟨f, hf, hcall⟩ := hh.callback
        have hwaits : key.interest = st.interest := hc.2.trans (SmtpState.onRead_interest hf).symm
        exact Or.inr (Or.inr ⟨.read, env, next, key₁, key₂, rfl, hc, hc.1, hwaits,
          onRead_turn hs hout hc.1 hf hcall, hh.hooks, hh.settled⟩)
      · simp only [sessionStep, if_neg hc] at h
        cases h
        exact Or.inl ⟨.read, env, rfl, hc, rfl⟩
    | write =>
      by_cases hc : key.registered = true ∧ key.interest = .write
      · simp only [sessionStep, if_pos hc, smtpWrite_eq hs.machine] at h
        obtain ⟨next, key₁, key₂, hh⟩ := react_ok hc.1 h
        obtain ⟨f, hf, hcall⟩ := hh.callback
        have hwaits : key.interest = st.interest := hc.2.trans (SmtpState.onWrite_interest hf).symm
        exact Or.inr (Or.inr ⟨.write, env, next, key₁, key₂, rfl, hc, hc.1, hwaits,
          onWrite_turn hout hc.1 hf hcall, hh.hooks, hh.settled⟩)
      · simp only [sessionStep, if_neg hc] at h
        cases h
        exact Or.inl ⟨.write, env, rfl, hc, rfl⟩

/-- What the departure from a state does. -/
inductive Key.Leaves (env : Env) (key : Key) (st : SmtpState) : Key → Prop
  | plain (body : st ≠ .dataWrite) (commit : st ≠ .mailInfoWrite) : key.Leaves env st key
  | body (state : st = .dataWrite) : key.Leaves env st
      { key with data := { key.data with dataParser := dataParserInit key.data.dataParser } }
  | commit {os} (state : st = .mailInfoWrite) (closed : closeFds env key.os key.data.rcptList = .ok os) :
      key.Leaves env st { key with
        globals := { key.globals with mailsSent := key.globals.mailsSent + 1 }
        os
        data := { key.data with rcptList := [] } }

/-- What the arrival at a state does. -/
def Key.arrive (key : Key) (next : SmtpState) : Key :=
  if next.readsRequest then { key with
    data := { key.data with requestParser := requestParserInit }
    log := key.log ++ [.arrived next.index] }
  else key

section Hooks

variable {env : Env} {key key' : Key} {st next : SmtpState}

theorem arrive_plain (h : next.readsRequest = false) : key.arrive next = key := by
  simp [Key.arrive, h]

/-- An arrival only starts on the next command. -/
theorem arrive_frame (key : Key) (next : SmtpState) : ∃ requestParser log,
    key.arrive next = { key with data := { key.data with requestParser }, log } := by
  unfold Key.arrive
  split_ifs
  · exact ⟨requestParserInit, _, rfl⟩
  · exact ⟨key.data.requestParser, key.log, rfl⟩

theorem changeState_ok (h : changeState env st next key = .ok key') :
    next = st ∧ key' = key ∨ next ≠ st ∧ ∃ key₁, key.Leaves env st key₁ ∧ key' = key₁.arrive next := by
  unfold changeState at h
  split_ifs at h with hsame
  · cases h
    exact Or.inl ⟨hsame, rfl⟩
  · obtain ⟨key₁, hleave, h⟩ := bind_ok h
    have harrive : key' = key₁.arrive next := by
      unfold SmtpState.arrival at h
      unfold Key.arrive
      split_ifs at h ⊢ <;> cases h <;> rfl
    refine Or.inr ⟨hsame, key₁, ?_, harrive⟩
    by_cases hbody : st = .dataWrite
    · subst hbody
      cases hleave
      exact .body rfl
    · by_cases hcommit : st = .mailInfoWrite
      · subst hcommit
        obtain ⟨os, -, hclosed, rfl⟩ := departure_mailInfoWrite hleave
        exact .commit rfl hclosed
      · have hnone : st.departure env = none := by cases st <;> first | rfl | contradiction
        rw [hnone] at hleave
        cases hleave
        exact .plain hbody hcommit

/-- A state that is not left for one that reads a command keeps what it has. -/
theorem changeState_same (hst : st ≠ .dataWrite) (hst' : st ≠ .mailInfoWrite) (hn : next.readsRequest = false)
    (h : changeState env st next key = .ok key') : key' = key := by
  rcases changeState_ok h with ⟨-, rfl⟩ | ⟨-, key₁, hleave, rfl⟩
  · rfl
  · rw [arrive_plain hn]
    cases hleave with
    | plain => rfl
    | body hbody => exact absurd hbody hst
    | commit hcommit => exact absurd hcommit hst'

/-- Where no answer to a message is left, no file is closed or moved. -/
theorem changeState_keeps_files (hst : st = .mailInfoWrite → next = .mailInfoWrite)
    (h : changeState env st next key = .ok key') : key'.os = key.os ∧ key'.data.rcptList = key.data.rcptList := by
  rcases changeState_ok h with ⟨-, rfl⟩ | ⟨hne, key₃, hleave, rfl⟩
  · exact ⟨rfl, rfl⟩
  · obtain ⟨parser, log, harrive⟩ := arrive_frame key₃ next
    rw [harrive]
    cases hleave with
    | plain | body => exact ⟨rfl, rfl⟩
    | commit state => exact absurd ((hst state).trans state.symm) hne

end Hooks

/-- The machine is in its next state; a connection that is over is closed and forgotten. -/
theorem settle_eq {stm : StateMachine} {next : SmtpState} {key key' : Key} (hreg : key.registered = true)
    (h : settle stm next key = .ok key') :
    (next = .error ∨ next = .done) ∧ key' = { key with
        registered := false
        interest := .noop
        data := { key.data with stm := { stm with current := some next.index } }
        os := key.os.close key.fd
        globals := { key.globals with currentUsers := key.globals.currentUsers - 1 } } ∨
      ¬ (next = .error ∨ next = .done) ∧
        key' = { key with data := { key.data with stm := { stm with current := some next.index } } } := by
  simp only [settle, smtpDone, if_pos hreg] at h
  split_ifs at h with hend
  · cases h
    exact Or.inl ⟨hend, rfl⟩
  · cases h
    exact Or.inr ⟨hend, rfl⟩

end Smtpd
