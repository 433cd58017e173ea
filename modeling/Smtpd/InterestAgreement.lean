import Smtpd.DialogueRefinement
import Smtpd.Faults
import Smtpd.Turns
import Smtpd.FileActs

namespace Smtpd

open Checked CString Runs

/-- A connection waits for what its state is there to do, and has something to send exactly where
it sends. -/
structure Key.Agrees (key : Key) (st : SmtpState) : Prop where
  sound : key.Sound st
  output : key.data.writeBuffer.Sized 2048
  registered : key.registered = true ↔ st.interest ≠ .noop
  interest : key.interest = st.interest
  quiet : st.interest = .read → key.data.writeBuffer.pending = []
  loaded : st.interest = .write → st.greeting = none → key.data.writeBuffer.pending ≠ []

/-- The same between a turn and the end of the event, where the connection is still registered. -/
structure Key.Turned (key : Key) (next : SmtpState) : Prop where
  registered : key.registered = true
  output : key.data.writeBuffer.Sized 2048
  interest : next.interest ≠ .noop → key.interest = next.interest
  quiet : next.interest = .read → key.data.writeBuffer.pending = []
  loaded : next.interest = .write → next.greeting = none → key.data.writeBuffer.pending ≠ []

section Turns

variable {env : Env} {key key₁ key₂ key' : Key} {st next : SmtpState} {text : List UInt8} {more : List Entry}

theorem refusal_interest {d : Dialogue} {command : RequestCommand} {request : Request}
    (h : d.refusal command request = some next) : next.interest = .write := by
  unfold Dialogue.refusal at h
  split at h
  case h_5 => cases h
  all_goals
    split_ifs at h
    all_goals
      cases h
      rfl

theorem afterReply_interest {d : Dialogue} (h : d.afterReply = some next) : next.interest = .read := by
  unfold Dialogue.afterReply at h
  split at h
  case h_8 => cases h
  all_goals
    cases h
    try split_ifs
    all_goals rfl

/-- A message is read only behind the answer to `DATA`. -/
theorem afterReply_mailInfoRead {d : Dialogue} (h : d.afterReply = some .mailInfoRead) :
    d.state = .dataWrite ∧ d.command = .data := by
  unfold Dialogue.afterReply at h
  split at h
  case h_6 hst =>
    split_ifs at h with hc
    · exact ⟨hst, hc⟩
    · cases h
  all_goals
    try split_ifs at h
    all_goals cases h

theorem refusalText_ne_nil (st : SmtpState) (command : RequestCommand) : st.refusalText command ≠ [] := by
  unfold SmtpState.refusalText
  split <;> try split_ifs
  all_goals decide

theorem helloText_ne_nil (command : RequestCommand) : command.helloText ≠ [] := by
  unfold RequestCommand.helloText
  split_ifs <;> decide

/-- Every answer says something, in a state that sends it. -/
theorem Key.Serves.text_ne_nil (h : key.Serves env st text next more key₁) :
    text ≠ [] ∧ next.interest = .write := by
  cases h with
  | greeted => exact ⟨helloText_ne_nil _, rfl⟩
  | refused _ refusal => exact ⟨refusalText_ne_nil _ _, refusal_interest refusal⟩
  | sender => exact ⟨by simp [ascii], rfl⟩
  | recipient => exact ⟨by simp [ascii], rfl⟩
  | data => exact ⟨by decide, rfl⟩

/-- `QUIT` is answered at once. -/
theorem Key.Serves.not_quit (h : key.Serves env st text next more key₁) :
    key.data.requestParser.command ≠ .quit := by
  cases h with
  | greeted hello => rcases hello with hello | hello <;> rw [hello] <;> decide
  | refused stays => exact stays
  | sender mail => rw [mail]; decide
  | recipient rcpt => rw [rcpt]; decide
  | data data => rw [data]; decide

theorem copyMailfrom_ok {sender : List UInt8} (h : copyMailfrom key = .ok (sender, key₁)) :
    ∃ mailfrom, key₁ = { key with data := { key.data with mailfrom } } := by
  obtain ⟨address, -, h⟩ := bind_ok h
  split_ifs at h
  cases h
  exact ⟨_, rfl⟩

/-- Serving a command touches neither the registration nor the buffers. -/
theorem Key.Serves.same (h : key.Serves env st text next more key₁) :
    key₁.registered = key.registered ∧ key₁.interest = key.interest ∧ key₁.fd = key.fd ∧
      key₁.data.stm = key.data.stm ∧ key₁.data.readBuffer = key.data.readBuffer ∧
      key₁.data.requestParser = key.data.requestParser ∧ key₁.data.dataParser = key.data.dataParser ∧
      key₁.globals = key.globals ∧ key₁.log = key.log := by
  cases h with
  | sender mail copied =>
    obtain ⟨mailfrom, rfl⟩ := copyMailfrom_ok copied
    exact ⟨rfl, rfl, rfl, rfl, rfl, rfl, rfl, rfl, rfl⟩
  | _ => exact ⟨rfl, rfl, rfl, rfl, rfl, rfl, rfl, rfl, rfl⟩

theorem Key.Turn.turned (hk : key.Agrees st) (hreg : key.registered = true) (h : key.Turn env st next key₁) :
    key₁.Turned next := by
  cases h with
  | lost => exact ⟨hreg, hk.output, by simp [SmtpState.interest], by simp [SmtpState.interest], by simp [SmtpState.interest]⟩
  | listened reads =>
    have hst := interest_of_reads reads
    refine ⟨hreg, hk.output, fun _ => hk.interest, fun _ => hk.quiet hst, fun hn => ?_⟩
    rw [hst] at hn
    cases hn
  | answered reads takes fed done answer =>
    have hnil := hk.quiet (interest_of_reads reads)
    cases answer with
    | quit command sized =>
      exact ⟨hreg, sized, by simp [SmtpState.interest], by simp [SmtpState.interest], by simp [SmtpState.interest]⟩
    | turnedAway =>
      exact ⟨hreg, hk.output, fun _ => rfl, by simp [SmtpState.interest], by simp [SmtpState.greeting]⟩
    | served serves sized pending =>
      obtain ⟨htext, hnext⟩ := serves.text_ne_nil
      obtain ⟨hreg', hint, -⟩ := serves.same
      refine ⟨hreg'.trans hreg, sized, fun _ => hint.trans hnext.symm, fun hn => ?_, fun _ _ => ?_⟩
      · rw [hnext] at hn
        cases hn
      · simp [pending, htext]
  | received state =>
    subst state
    exact ⟨hreg, hk.output, fun _ => hk.interest, fun _ => hk.quiet rfl, by simp [SmtpState.interest]⟩
  | stored state reads done sized pending =>
    refine ⟨hreg, sized, fun _ => rfl, by simp [SmtpState.interest], fun _ _ => ?_⟩
    have hqueued : queuedText ≠ [] := by decide
    simp [pending, hqueued]
  | unsent writes prepares =>
    exact ⟨hreg, prepares.sized, by simp [SmtpState.interest], by simp [SmtpState.interest], by simp [SmtpState.interest]⟩
  | sending writes prepares taken any sized split rest =>
    refine ⟨hreg, sized, fun _ => hk.interest, fun hn => ?_, fun _ _ => rest⟩
    rw [writes] at hn
    cases hn
  | sent writes prepares taken any sized split rest after =>
    have hnext := afterReply_interest after
    refine ⟨hreg, sized, fun _ => hnext.symm, fun _ => rest, fun hn => ?_⟩
    rw [hnext] at hn
    cases hn

theorem changeState_turned (hk : key.Turned next) (h : changeState env st next key = .ok key') :
    key'.Turned next := by
  have hsame : key'.registered = key.registered ∧ key'.interest = key.interest ∧
      key'.data.writeBuffer = key.data.writeBuffer := by
    rcases changeState_ok h with ⟨-, rfl⟩ | ⟨-, key₁, hleave, rfl⟩
    · exact ⟨rfl, rfl, rfl⟩
    · obtain ⟨parser, log, harrive⟩ := arrive_frame key₁ next
      rw [harrive]
      cases hleave <;> exact ⟨rfl, rfl, rfl⟩
  obtain ⟨hreg, hint, hwb⟩ := hsame
  exact ⟨hreg.trans hk.registered, hwb ▸ hk.output, fun hn => hint.trans (hk.interest hn),
    fun hn => hwb ▸ hk.quiet hn, fun hn hg => hwb ▸ hk.loaded hn hg⟩

theorem over_of_noop (h : next.interest = .noop) : next = .error ∨ next = .done := by
  cases next with
  | done => exact Or.inr rfl
  | error => exact Or.inl rfl
  | _ => cases h

theorem not_over_of_interest {i : Interest} (h : next.interest = i) (hi : i ≠ .noop) :
    ¬ (next = .error ∨ next = .done) := by
  rintro (rfl | rfl) <;> exact hi h.symm

/-- The connection leaves the selector exactly if it is over. -/
theorem settle_agrees {stm : StateMachine} (hk : key.Turned next) (hs : key'.Sound next)
    (h : settle stm next key = .ok key') : key'.Agrees next := by
  rcases settle_eq hk.registered h with ⟨hend, rfl⟩ | ⟨hgo, rfl⟩
  · have hnoop : next.interest = .noop := by rcases hend with rfl | rfl <;> rfl
    refine ⟨hs, hk.output, ?_, hnoop.symm, fun hn => ?_, fun hn => ?_⟩
    · simp [hnoop]
    · rw [hnoop] at hn
      cases hn
    · rw [hnoop] at hn
      cases hn
  · have hnoop : next.interest ≠ .noop := fun hn => hgo (over_of_noop hn)
    exact ⟨hs, hk.output, iff_of_true hk.registered hnoop, hk.interest hnoop, hk.quiet, hk.loaded⟩

theorem Key.Passes.agrees (hk : key.Agrees st) (hs : key'.Sound next)
    (h : key.Passes env st next key₁ key₂ key') : key'.Agrees next :=
  settle_agrees (changeState_turned (h.turn.turned hk h.registered) h.hooks) hs h.settled

end Turns

/-- The fault is not an `abort` in the state machine: neither a missing handler nor a state above
the greatest. -/
def NoStmAbort (e : Fault) : Prop := e ≠ .abort .stm

section Faults

variable {env : Env} {key : Key} {st next : SmtpState} {f : Env → Key → Result (SmtpState × Key)}

theorem NoAbort.noStm {e : Fault} (h : NoAbort e) : NoStmAbort e := h .stm

theorem ensureDir_noStm (os : Os) (path : List UInt8) :
    Ensures (fun _ => True) NoStmAbort (ensureDir env os path) := by
  refine ensures_ite (fun _ => trivial) (fun _ => ensures_ite (fun _ => trivial) (fun _ => ?_))
  exact fun h => by cases h

theorem createMailFile_noStm (os : Os) (uuidStr mailfrom : List UInt8) (program : Option (List UInt8))
    (transformations : Bool) (current : RcptNode) : Ensures (fun _ => True) NoStmAbort
      (createMailFile env os uuidStr mailfrom program transformations current) := by
  have hdemand : ∀ bytes, Ensures (fun _ => True) NoStmAbort (demand .undefined (cstring bytes)) :=
    fun bytes => (plain_demand _).weaken fun _ => NoAbort.noStm
  have habort : NoStmAbort (.abort .createMailsFiles) := fun h => by cases h
  refine (hdemand _).bind fun email _ => (ensureDir_noStm _ _).bind fun os _ =>
    (ensureDir_noStm _ _).bind fun os _ => (ensureDir_noStm _ _).bind fun os _ =>
    (ensureDir_noStm _ _).bind fun os _ => ?_
  dsimp only
  split
  · exact habort
  · refine (hdemand _).bind fun sender _ => ensures_ite (fun _ => ?_) (fun _ => trivial)
    refine Ensures.bind (P := fun _ => True) ?_ fun _ _ => trivial
    unfold pipeToProgram
    split
    · exact habort
    · exact ensures_ite (fun _ => habort) (fun _ => trivial)

theorem createMailsFiles_noStm (os : Os) (head : List RcptNode) (mailfrom : List UInt8)
    (program : Option (List UInt8)) (transformations : Bool) : Ensures (fun _ => True) NoStmAbort
      (createMailsFiles env os head mailfrom program transformations) := by
  refine (ensureDir_noStm _ _).bind fun os _ => ?_
  have hloop : ∀ k os, Ensures (fun _ => True) NoStmAbort
      (createMailFilesFrom env k os mailfrom program transformations head) := by
    induction head with
    | nil => exact fun _ _ => trivial
    | cons current next ih =>
      intro k os
      exact (createMailFile_noStm _ _ _ _ _ _).bind fun _ _ => (ih _ _).bind fun _ _ => trivial
  exact hloop 0 os

theorem closeFds_noStm (os : Os) (head : List RcptNode) :
    Ensures (fun _ => True) NoStmAbort (closeFds env os head) := by
  have habort : NoStmAbort (.abort .closeFds) := fun h => by cases h
  induction head generalizing os with
  | nil => exact trivial
  | cons current next ih =>
    have hdemand : ∀ {α : Type} (o : Option α), Ensures (fun _ => True) NoStmAbort (demand .undefined o) :=
      fun o => (plain_demand o).weaken fun _ => NoAbort.noStm
    refine (hdemand _).bind fun fileFd _ => (hdemand _).bind fun email _ => (hdemand _).bind fun filename _ => ?_
    exact ensures_ite (fun _ => habort) fun _ => ensures_ite (fun _ => habort) fun _ => ih _

theorem dataAnswer_noStm : Ensures (fun _ => True) NoStmAbort (dataAnswer env key) := by
  unfold dataAnswer
  split
  · refine ((reply_plain _ _ _ _).weaken fun _ => NoAbort.noStm).bind fun key _ => ?_
    exact (createMailsFiles_noStm _ _ _ _ _).bind fun _ _ => trivial
  · exact (quitReply_plain _ _ _).weaken fun _ => NoAbort.noStm
  · exact acceptRcpt_plain.weaken fun _ => NoAbort.noStm
  · exact ((reply_plain _ _ _ _).bind fun _ => plain_ok _).weaken fun _ => NoAbort.noStm

theorem onRead_noStm (hf : st.onRead = some f) : Ensures (fun _ => True) NoStmAbort (f env key) := by
  have hread : ∀ {answer : Env → Key → Result (SmtpState × Key)} {st : SmtpState},
      (∀ key, Ensures (fun _ => True) NoStmAbort (answer env key)) → Ensures (fun _ => True) NoStmAbort
        (readStatus env key fun env key => requestProcess env key st answer) :=
    fun h => readStatus_ensures (fun _ => NoAbort.noStm) fun _ => requestProcess_ensures (fun _ => NoAbort.noStm) h
  cases st with
  | failedConnectionRead =>
    cases hf
    exact hread fun _ => failedConnectionAnswer_plain.weaken fun _ => NoAbort.noStm
  | ehloRead =>
    cases hf
    exact hread fun _ => ehloAnswer_plain.weaken fun _ => NoAbort.noStm
  | mailFromRead =>
    cases hf
    exact hread fun _ => mailFromAnswer_plain.weaken fun _ => NoAbort.noStm
  | rcptToRead =>
    cases hf
    exact hread fun _ => rcptToAnswer_plain.weaken fun _ => NoAbort.noStm
  | dataRead =>
    cases hf
    exact hread fun _ => dataAnswer_noStm
  | mailInfoRead =>
    cases hf
    exact readStatus_ensures (fun _ => NoAbort.noStm) fun _ =>
      (mailInfoReadProcess_plain _ _).weaken fun _ => NoAbort.noStm
  | _ => cases hf

theorem onWrite_plain (hf : st.onWrite = some f) : Plain (f env key) := by
  cases st with
  | greetingWrite | failedConnectionWrite =>
    cases hf
    exact greeting_plain _ _ _
  | ehloWrite =>
    cases hf
    unfold ehloWrite
    split <;> exact writeStatus_plain _ _ _ _
  | mailFromWrite =>
    cases hf
    unfold mailFromWrite
    split <;> exact writeStatus_plain _ _ _ _
  | rcptToWrite =>
    cases hf
    exact rcptToWrite_plain
  | dataWrite =>
    cases hf
    unfold dataWrite
    split <;> exact writeStatus_plain _ _ _ _
  | mailInfoWrite =>
    cases hf
    exact writeStatus_plain _ _ _ _
  | _ => cases hf

/-- A state that has a handler for what is ready. -/
theorem react_noStm {ready : SmtpState → Option (Env → Key → Result (SmtpState × Key))}
    (hready : ∃ f, ready st = some f)
    (hcall : ∀ f, ready st = some f → Ensures (fun _ => True) NoStmAbort (f env key)) :
    Ensures (fun _ => True) NoStmAbort (react ready env st key) := by
  obtain ⟨f, hf⟩ := hready
  unfold react
  rw [hf]
  refine (hcall f hf).bind fun r _ => Ensures.bind (P := fun _ => True) ?_ fun key₂ _ => ?_
  · refine ensures_ite (fun _ => trivial) (fun _ => Ensures.bind (P := fun _ => True) ?_ fun key₂ _ => ?_)
    · cases st with
      | mailInfoWrite =>
        have hundefined : NoStmAbort .undefined := fun h => by cases h
        refine (increment_ensures hundefined _).bind fun _ _ => ?_
        exact (closeFds_noStm _ _).bind fun _ _ => trivial
      | _ => exact trivial
    · unfold SmtpState.arrival
      split_ifs <;> exact trivial
  · exact ensures_ite (fun _ => ensures_ite (fun _ => trivial) (fun _ h => by cases h)) (fun _ => trivial)

theorem onRead_of_interest (h : st.interest = .read) : ∃ f, st.onRead = some f := by
  cases st <;> first | exact ⟨_, rfl⟩ | cases h

theorem onWrite_of_interest (h : st.interest = .write) : ∃ f, st.onWrite = some f := by
  cases st <;> first | exact ⟨_, rfl⟩ | cases h

theorem sessionStep_noStm (hk : key.Agrees st) (ev : Event) :
    Ensures (fun _ => True) NoStmAbort (sessionStep key ev) := by
  cases ev with
  | elsewhere globals tree fds => exact trivial
  | ready op env =>
    cases op with
    | read =>
      refine ensures_ite (fun hc => ?_) (fun _ => trivial)
      rw [smtpRead_eq hk.sound.machine]
      exact react_noStm (onRead_of_interest (hk.interest.symm.trans hc.2)) fun f hf => onRead_noStm hf
    | write =>
      refine ensures_ite (fun hc => ?_) (fun _ => trivial)
      rw [smtpWrite_eq hk.sound.machine]
      exact react_noStm (onWrite_of_interest (hk.interest.symm.trans hc.2)) fun f hf =>
        (onWrite_plain hf).weaken fun _ => NoAbort.noStm

end Faults

section Runs

variable {key key' : Key} {st : SmtpState} {ev : Event} {es : List Event}

theorem sessionStep_agrees (hk : key.Agrees st) (h : sessionStep key ev = .ok key') :
    key'.Agrees key'.state := by
  obtain ⟨st', hs, -⟩ := sessionStep_refines hk.sound h
  rcases sessionStep_turn hk.sound hk.output h with
    ⟨op, env, -, -, rfl⟩ | ⟨globals, tree, fds, -, rfl⟩ | ⟨op, env, next, key₁, key₂, -, -, hp⟩
  · rw [hk.sound.machine.state_eq]
    exact hk
  · have hst : st' = st := by
      have hold := hk.sound.machine.state_eq
      exact hs.machine.state_eq.symm.trans hold
    subst hst
    rw [hs.machine.state_eq]
    exact ⟨hs, hk.output, hk.registered, hk.interest, hk.quiet, hk.loaded⟩
  · have hnext : key'.state = next := settle_state hp.settled
    have hst : st' = next := hs.machine.state_eq.symm.trans hnext
    subst hst
    rw [hnext]
    exact hp.agrees hk hs

theorem run_agrees (hk : key.Agrees key.state) (h : run sessionStep key es = .ok key') :
    key'.Agrees key'.state := by
  refine run_always (I := fun _ key => key.Agrees key.state) hk ?_ h
  intro xs ev key key' _ hk hstep
  exact sessionStep_agrees hk hstep

theorem accepted_agrees (ha : Accepted key) (h : run sessionStep key es = .ok key') :
    key'.Agrees key'.state := by
  refine run_agrees ?_ h
  obtain ⟨client, st, g, os, hw⟩ := accepted_welcomed ha
  rw [hw.fresh.sound.machine.state_eq]
  have hst : st.interest = .write ∧ st.greeting ≠ none := by
    rcases hw.fresh.state with rfl | rfl <;> exact ⟨rfl, by decide⟩
  obtain ⟨hwrite, hgreets⟩ := hst
  refine ⟨hw.fresh.sound, hw.output, iff_of_true hw.registered ?_, hw.interest.trans hwrite.symm,
    fun _ => hw.silent, fun _ hg => absurd hg hgreets⟩
  rw [hwrite]
  decide

/-- What holds of a new connection and is preserved by its events, where state and interest agree, holds of
every connection. -/
theorem accepted_invariant {I : List Event → Key → Prop} (ha : Accepted key)
    (start : ∀ client st g os, key.Welcomed client st g os → I [] key)
    (preserved : ∀ xs ev key₁ key₂, run sessionStep key xs = .ok key₁ → key₁.Agrees key₁.state → I xs key₁ →
      sessionStep key₁ ev = .ok key₂ → I (xs ++ [ev]) key₂)
    (h : run sessionStep key es = .ok key') : I es key' := by
  refine run_always ?_ ?_ h
  · obtain ⟨client, st, g, os, hw⟩ := accepted_welcomed ha
    exact start client st g os hw
  · intro xs ev key₁ key₂ hxs hi hstep
    exact preserved xs ev key₁ key₂ hxs (accepted_agrees ha hxs) hi hstep

end Runs

/-- The callback of a state for a descriptor that is ready. -/
def SmtpState.onReady (st : SmtpState) : Ready → Option (Env → Key → Result (SmtpState × Key))
  | .read => st.onRead
  | .write => st.onWrite

/-- An operation that leads to `write_status`: the socket is ready for an answer, or `QUIT` is
answered at once. -/
def Key.Sends (key : Key) (st : SmtpState) (env : Env) (op : Ready) : Prop :=
  op = .write ∨ ∃ request, key.asked st (.ready op env) = some (.quit, request)

section Sending

variable {env : Env} {key key₁ : Key} {st next : SmtpState} {f : Env → Key → Result (SmtpState × Key)}

theorem sentBytes_withOutput (key : Key) (wb : Buffer) (i : Interest) (sent : List (List UInt8)) :
    sentBytes (key.withOutput wb i sent).os.trace = sentBytes key.os.trace ++ sent.flatten := by
  simp [Key.withOutput]

/-- What is offered to the socket is not empty. -/
theorem Key.Prepares.pending_ne_nil {wb : Buffer} (hk : key.Agrees st) (hwrites : st.interest = .write)
    (h : key.Prepares st wb) : wb.pending ≠ [] := by
  cases hg : st.greeting with
  | none =>
    rw [h.plain hg]
    exact hk.loaded hwrites hg
  | some message =>
    have hlen := (h.greets message hg).1
    have hmessage : message ≠ [] := by
      unfold SmtpState.greeting at hg
      split at hg <;> cases hg <;> decide
    have hpos := List.length_pos_of_ne_nil hmessage
    exact List.ne_nil_of_length_pos (by omega)

theorem onWrite_sends (hk : key.Agrees st) (hreg : key.registered = true) (hf : st.onWrite = some f)
    (h : f env key = .ok (next, key₁)) (hsend : 0 < env.send.getD 0) :
    ∃ bytes, bytes ≠ [] ∧ sentBytes key₁.os.trace = sentBytes key.os.trace ++ bytes := by
  have hwrites := SmtpState.onWrite_interest hf
  cases onWrite_turn hk.output hreg hf h with
  | unsent _ prepares taken =>
    have hne := prepares.pending_ne_nil hk hwrites
    rcases List.take_eq_nil_iff.mp taken with hz | hnil
    · omega
    · exact absurd hnil hne
  | sending _ _ _ any => exact ⟨_, any, by rw [sentBytes_withOutput, List.flatten_singleton]⟩
  | sent _ _ _ any => exact ⟨_, any, by rw [sentBytes_withOutput, List.flatten_singleton]⟩
  | lost reads =>
    rw [reads] at hwrites
    cases hwrites
  | listened reads | answered reads =>
    rw [interest_of_reads reads] at hwrites
    cases hwrites
  | received state | stored state =>
    subst state
    cases hf

/-- A command that is asked for is the one that the event completes. -/
theorem asked_command {p : RequestParser} {errored : Bool} {rest : List UInt8} {command : RequestCommand}
    {request : Request}
    (hfed : requestParser.feedUntil (key.data.requestParser, false) (key.atHand env) = .ok ((p, errored), rest))
    (h : key.asked st (.ready .read env) = some (command, request)) :
    p.state = .done ∧ p.command = command ∧ p.request = request := by
  simp only [Key.asked, hfed] at h
  split_ifs at h with hc hd
  cases h
  exact ⟨hd, rfl, rfl⟩

theorem asked_ready {op : Ready} {r : RequestCommand × Request}
    (h : key.asked st (.ready op env) = some r) : op = .read ∧ st.readsRequest = true ∧ key.atHand env ≠ [] := by
  cases op with
  | write => cases h
  | read =>
    simp only [Key.asked] at h
    split_ifs at h with hc
    exact ⟨rfl, hc.2.2.1, hc.2.2.2⟩

theorem asked_heeds {op : Ready} {r : RequestCommand × Request}
    (h : key.asked st (.ready op env) = some r) : key.Heeds op := by
  cases op with
  | write => cases h
  | read =>
    simp only [Key.asked] at h
    split_ifs at h with hc
    exact ⟨hc.1, hc.2.1⟩

/-- `QUIT` is answered and the connection is over. -/
theorem Key.Turn.quit {request : Request} (h : key.Turn env st next key₁)
    (hasked : key.asked st (.ready .read env) = some (.quit, request)) :
    next = .done ∧ sentBytes key₁.os.trace =
      sentBytes key.os.trace ++ (key.data.writeBuffer.pending ++ byeText).take (env.send.getD 0) := by
  obtain ⟨-, hreads, hhand⟩ := asked_ready hasked
  cases h with
  | lost _ hand => exact absurd hand hhand
  | listened _ _ fed waits => exact absurd (asked_command fed hasked).1 waits
  | @answered rb g received p _ _ _ _ takes fed done answer =>
    have hquit : p.command = .quit := (asked_command fed hasked).2.1
    cases answer with
    | @quit _ _ sent _ _ taken =>
      refine ⟨rfl, ?_⟩
      have htaken : sent.flatten = (key.data.writeBuffer.pending ++ byeText).take (env.send.getD 0) := taken
      rw [← htaken]
      simp [Key.withOutput, Key.asking, Key.withRequest, Key.withInput]
    | turnedAway _ command => exact absurd hquit command
    | served serves => exact absurd hquit serves.not_quit
  | received state | stored state =>
    subst state
    cases hreads
  | unsent writes | sending writes | sent writes =>
    rw [interest_of_reads hreads] at writes
    cases writes

theorem quit_sends {request : Request} (hk : key.Agrees st) (hreg : key.registered = true)
    (hf : st.onRead = some f) (h : f env key = .ok (next, key₁))
    (hasked : key.asked st (.ready .read env) = some (.quit, request)) (hsend : 0 < env.send.getD 0) :
    ∃ bytes, bytes ≠ [] ∧ sentBytes key₁.os.trace = sentBytes key.os.trace ++ bytes := by
  obtain ⟨-, hbytes⟩ := (onRead_turn hk.sound hk.output hreg hf h).quit hasked
  refine ⟨_, fun hnil => ?_, hbytes⟩
  rcases List.take_eq_nil_iff.mp hnil with hz | hnil
  · omega
  · simp [ascii] at hnil

theorem onReady_sends {op : Ready} (hk : key.Agrees st) (hreg : key.registered = true)
    (hf : st.onReady op = some f) (hop : key.Sends st env op) (h : f env key = .ok (next, key₁))
    (hsend : 0 < env.send.getD 0) :
    ∃ bytes, bytes ≠ [] ∧ sentBytes key₁.os.trace = sentBytes key.os.trace ++ bytes := by
  rcases hop with rfl | ⟨request, hasked⟩
  · exact onWrite_sends hk hreg hf h hsend
  · obtain ⟨rfl, -, -⟩ := asked_ready hasked
    exact quit_sends hk hreg hf h hasked hsend

end Sending

theorem not_abort_of_ensures {x : Result Key} (h : Ensures (fun _ => True) NoStmAbort x) :
    x ≠ .error (.abort .stm) := by
  intro hx
  rw [hx] at h
  exact h rfl

/-- Between two events the selector waits for what the state is there to do, and something is to be
sent exactly where the state sends an answer. So the machine never aborts, and whatever is given to
`send` is not empty: a socket that takes a byte gets one. -/
theorem interest_agreement {key key' : Key} {es : List Event} (ha : Accepted key)
    (h : run sessionStep key es = .ok key') :
    (key'.interest = .read ↔ key'.state.interest = .read) ∧
    (key'.interest = .write ↔ key'.state.interest = .write) ∧
    (key'.state.interest = .read → key'.data.writeBuffer.pending = []) ∧
    (key'.state.interest = .write → key'.state ≠ .greetingWrite → key'.state ≠ .failedConnectionWrite →
      key'.data.writeBuffer.pending ≠ []) ∧
    (∀ ev, sessionStep key' ev ≠ .error (.abort .stm)) ∧
    ∀ op env f next key₁, key'.registered = true → key'.state.onReady op = some f →
      key'.Sends key'.state env op → f env key' = .ok (next, key₁) → 0 < env.send.getD 0 →
      ∃ bytes, bytes ≠ [] ∧ sentBytes key₁.os.trace = sentBytes key'.os.trace ++ bytes := by
  have hk := accepted_agrees ha h
  refine ⟨by rw [hk.interest], by rw [hk.interest], hk.quiet, fun hw hg hf => hk.loaded hw ?_,
    fun ev => not_abort_of_ensures (sessionStep_noStm hk ev), ?_⟩
  · unfold SmtpState.greeting
    split
    · contradiction
    · contradiction
    · rfl
  · intro op env f next key₁ hreg hf hop hcall hsend
    exact onReady_sends hk hreg hf hop hcall hsend

theorem interest_agreement_twoRcpts :
    Accepted firstKey ∧ ∃ key', run sessionStep firstKey (script twoRcpts) = .ok key' ∧
      (key'.interest = .read ↔ key'.state.interest = .read) ∧
      (key'.interest = .write ↔ key'.state.interest = .write) ∧
      (key'.state.interest = .read → key'.data.writeBuffer.pending = []) ∧
      (key'.state.interest = .write → key'.state ≠ .greetingWrite → key'.state ≠ .failedConnectionWrite →
        key'.data.writeBuffer.pending ≠ []) ∧
      (∀ ev, sessionStep key' ev ≠ .error (.abort .stm)) ∧
      ∀ op env f next key₁, key'.registered = true → key'.state.onReady op = some f →
        key'.Sends key'.state env op → f env key' = .ok (next, key₁) → 0 < env.send.getD 0 →
        ∃ bytes, bytes ≠ [] ∧ sentBytes key₁.os.trace = sentBytes key'.os.trace ++ bytes := by
  obtain ⟨key', hrun⟩ : ∃ key', run sessionStep firstKey (script twoRcpts) = .ok key' :=
    ok_of_toOption (by decide +kernel)
  exact ⟨accepted_first, key', hrun, interest_agreement accepted_first hrun⟩

end Smtpd
