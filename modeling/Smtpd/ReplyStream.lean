import Smtpd.InterestAgreement

namespace Smtpd

open Checked Runs

/-- The last command decides where a dialogue goes on. -/
theorem afterReply_congr {d d' : Dialogue} (hstate : d.state = d'.state) (hcommand : d.command = d'.command)
    (hrequest : d.request = d'.request) : d.afterReply = d'.afterReply := by
  unfold Dialogue.afterReply
  rw [hstate, hcommand, hrequest]

/-- What the hooks between two states leave alone, and what the arrival changes. -/
structure Key.Moves (key : Key) (st next : SmtpState) (key' : Key) : Prop where
  bytes : sentBytes key'.os.trace = sentBytes key.os.trace
  readBuffer : key'.data.readBuffer = key.data.readBuffer
  writeBuffer : key'.data.writeBuffer = key.data.writeBuffer
  mailfrom : key'.data.mailfrom = key.data.mailfrom
  rcptList : st ≠ .mailInfoWrite → key'.data.rcptList = key.data.rcptList
  same : next = st → key' = key
  entered : next ≠ st → key'.data.requestParser = (key.arrive next).data.requestParser ∧
    key'.log = (key.arrive next).log

/-- A state that sends has sent something, and with the last byte it goes on. -/
structure Key.Sending (env : Env) (key : Key) (st next : SmtpState) (sent : List UInt8) (key' : Key) : Prop where
  any : sent ≠ []
  bytes : sentBytes key'.os.trace = sentBytes key.os.trace ++ sent
  registered : key'.registered = true
  readBuffer : key'.data.readBuffer = key.data.readBuffer
  mailfrom : key'.data.mailfrom = key.data.mailfrom
  goes : key'.data.writeBuffer.pending ≠ [] ∧ next = st ∧
      key'.data.requestParser = key.data.requestParser ∧ key'.log = key.log ∧
      key'.data.rcptList = key.data.rcptList ∨
    key'.data.writeBuffer.pending = [] ∧ (key.dialogue st).afterReply = some next ∧
      key'.data.requestParser = (key.arrive next).data.requestParser ∧ key'.log = (key.arrive next).log ∧
      (st ≠ .mailInfoWrite → key'.data.rcptList = key.data.rcptList)

section Steps

variable {env : Env} {key key₁ key₂ key' : Key} {st next : SmtpState} {ev : Event} {es : List Event}

theorem arrive_congr {key key' : Key} (hparser : key.data.requestParser = key'.data.requestParser)
    (hlog : key.log = key'.log) (next : SmtpState) :
    (key.arrive next).data.requestParser = (key'.arrive next).data.requestParser ∧
      (key.arrive next).log = (key'.arrive next).log := by
  unfold Key.arrive
  split_ifs
  · exact ⟨rfl, by rw [hlog]⟩
  · exact ⟨hparser, hlog⟩

theorem changeState_effect (h : changeState env st next key = .ok key') : key.Moves st next key' := by
  rcases changeState_ok h with ⟨hsame, rfl⟩ | ⟨hne, key₁, hleave, rfl⟩
  · exact ⟨rfl, rfl, rfl, rfl, fun _ => rfl, fun _ => rfl, fun hn => absurd hsame hn⟩
  · have harrive : (key₁.arrive next).os = key₁.os ∧ (key₁.arrive next).data.readBuffer = key₁.data.readBuffer ∧
        (key₁.arrive next).data.writeBuffer = key₁.data.writeBuffer ∧
        (key₁.arrive next).data.mailfrom = key₁.data.mailfrom ∧
        (key₁.arrive next).data.rcptList = key₁.data.rcptList := by
      obtain ⟨parser, log, he⟩ := arrive_frame key₁ next
      rw [he]
      exact ⟨rfl, rfl, rfl, rfl, rfl⟩
    obtain ⟨hos, hrb, hwb, hmail, hlist⟩ := harrive
    have hfar : next = st → key₁.arrive next = key := fun hn => absurd hn hne
    cases hleave with
    | plain => exact ⟨by rw [hos], hrb, hwb, hmail, fun _ => hlist, hfar, fun _ => ⟨rfl, rfl⟩⟩
    | body => exact ⟨by rw [hos], hrb, hwb, hmail, fun _ => hlist, hfar, fun _ => arrive_congr (by rfl) (by rfl) next⟩
    | commit state closed =>
      refine ⟨?_, hrb, hwb, hmail, fun hn => absurd state hn, hfar, fun _ => arrive_congr (by rfl) (by rfl) next⟩
      rw [hos]
      show sentBytes _ = _
      rw [(closeFds_acts closed).1, sentBytes_append, sentBytes_closing, List.append_nil]

theorem Key.Passes.writes (hk : key.Agrees st) (hw : st.interest = .write)
    (h : key.Passes env st next key₁ key₂ key') :
    ∃ wb, key.Prepares st wb ∧
      (wb.pending.take (env.send.getD 0) = [] ∧ next = .error ∧ key'.registered = false ∧
          sentBytes key'.os.trace = sentBytes key.os.trace ∨
        ∃ sent, sent = wb.pending.take (env.send.getD 0) ∧ key.Sending env st next sent key' ∧
          wb.pending = sent ++ key'.data.writeBuffer.pending) := by
  have hreg := (changeState_turned (h.turn.turned hk h.registered) h.hooks).registered
  have hmoves := changeState_effect h.hooks
  have hturn := h.turn
  have hsettled := settle_eq hreg h.settled
  cases hturn with
  | lost reads =>
    rw [hw] at reads
    cases reads
  | listened reads | answered reads =>
    rw [interest_of_reads reads] at hw
    cases hw
  | received state | stored state =>
    subst state
    cases hw
  | @unsent wb writes prepares taken =>
    refine ⟨wb, prepares, Or.inl ⟨taken, rfl, ?_⟩⟩
    rcases hsettled with ⟨-, rfl⟩ | ⟨hgo, -⟩
    · refine ⟨rfl, ?_⟩
      show sentBytes (key₂.os.trace ++ [.closed key₂.fd]) = _
      rw [sentBytes_append, hmoves.bytes, sentBytes_withOutput]
      simp [sentBytes]
    · exact absurd (Or.inl rfl) hgo
  | @sending wb wb' sent writes prepares taken any sized split rest =>
    refine ⟨wb, prepares, Or.inr ⟨sent, taken, ?_⟩⟩
    obtain rfl := hmoves.same rfl
    rcases hsettled with ⟨hend, -⟩ | ⟨-, rfl⟩
    · exact absurd hend (not_over_of_interest writes (by decide))
    · refine ⟨⟨any, ?_, hreg, rfl, rfl, Or.inl ⟨rest, rfl, rfl, rfl, rfl⟩⟩, split⟩
      show sentBytes (key.withOutput wb' key.interest [sent]).os.trace = _
      rw [sentBytes_withOutput, List.flatten_singleton]
  | @sent wb wb' sent _ writes prepares taken any sized split rest after =>
    refine ⟨wb, prepares, Or.inr ⟨sent, taken, ?_⟩⟩
    rcases hsettled with ⟨hend, -⟩ | ⟨-, rfl⟩
    · exact absurd hend (not_over_of_interest (afterReply_interest after) (by decide))
    · have hrest : key₂.data.writeBuffer.pending = [] := by
        rw [hmoves.writeBuffer]
        exact rest
      have hne : next ≠ st := by
        rintro rfl
        cases (afterReply_interest after).symm.trans writes
      obtain ⟨hparser, hlog⟩ := hmoves.entered hne
      have harrive := @arrive_congr (key.withOutput wb' .read [sent]) key rfl rfl
      refine ⟨⟨any, ?_, hreg, hmoves.readBuffer, hmoves.mailfrom, Or.inr ⟨hrest, after,
        hparser.trans (harrive _).1, hlog.trans (harrive _).2, hmoves.rcptList⟩⟩, ?_⟩
      · show sentBytes key₂.os.trace = _
        rw [hmoves.bytes, sentBytes_withOutput, List.flatten_singleton]
      · show wb.pending = sent ++ key₂.data.writeBuffer.pending
        rw [hrest, List.append_nil]
        exact split

/-- If the socket is ready to be written, it takes something. -/
def Event.SendsSome : Event → Prop
  | .ready .write env => 0 < env.send.getD 0
  | _ => True

/-- What an event does in a state that sends, on a socket that takes something. -/
theorem sessionStep_sending (hk : key.Agrees st) (hw : st.interest = .write) (hsome : ev.SendsSome)
    (h : sessionStep key ev = .ok key') :
    (∃ globals tree fds, key' = { key with globals, os := { key.os with tree, fds } }) ∨
    ∃ env next wb sent, key.Prepares st wb ∧ key.Sending env st next sent key' ∧
      wb.pending = sent ++ key'.data.writeBuffer.pending ∧ key'.state = next := by
  rcases sessionStep_turn hk.sound hk.output h with
    ⟨op, env, rfl, -, rfl⟩ | ⟨globals, tree, fds, rfl, rfl⟩ | ⟨op, env, next, key₁, key₂, rfl, hheeds, hp⟩
  · exact Or.inl ⟨_, _, _, rfl⟩
  · exact Or.inl ⟨globals, tree, fds, rfl⟩
  · obtain ⟨wb, hprep, ⟨hnone, -⟩ | ⟨sent, -, hsending, hsplit⟩⟩ := hp.writes hk hw
    · have hop : op.interest = .write := (hheeds.2.symm.trans hp.waits).trans hw
      have hne := hprep.pending_ne_nil hk hw
      cases op with
      | read => cases hop
      | write =>
        have hpos : 0 < env.send.getD 0 := hsome
        rcases List.take_eq_nil_iff.mp hnone with hz | hnil
        · omega
        · exact absurd hnil hne
    · exact Or.inr ⟨env, next, wb, sent, hprep, hsending, hsplit, settle_state hp.settled⟩

/-- The text that the server answered with. -/
def Entry.reply : Entry → Option (List UInt8)
  | .answered _ _ _ text => some text
  | .stored text => some text
  | _ => none

/-- The reply that an event queues, and the state in which it is sent. A greeting is queued by the
event that begins to send it, the answer to `QUIT` is sent by the event that queues it, and every
other reply is the answer to what has been read, with which the log grows. -/
inductive Key.Queues (key : Key) (op : Ready) (env : Env) (key₁ : Key) : SmtpState → List UInt8 → Prop
  | greets {text} (ready : op = .write) (greeting : key.state.greeting = some text)
      (empty : key.data.writeBuffer.pending = []) : key.Queues op env key₁ key.state text
  | bye {request} (asked : key.asked key.state (.ready op env) = some (.quit, request)) :
      key.Queues op env key₁ key.state byeText
  | loads {more text} (ready : op = .read) (writes : key₁.state.interest = .write)
      (plain : key₁.state.greeting = none) (logged : key₁.log = key.log ++ more)
      (reply : more.filterMap Entry.reply = [text]) : key.Queues op env key₁ key₁.state text

/-- The events from the one that queues a reply to the one with which the state that sends it is
left, or with which the connection is closed. -/
structure Key.Window (key : Key) (op : Ready) (env : Env) (key₁ : Key) (st : SmtpState) (es : List Event)
    (key' : Key) : Prop where
  heeds : key.Heeds op
  step : sessionStep key (.ready op env) = .ok key₁
  stays : Runs.Meets sessionStep (fun key _ => key.state = st) key₁ es
  runs : Runs.run sessionStep key₁ es = .ok key'
  left : key'.state ≠ st

/-- What waits in the buffer is sent once and in order, until its state is left. -/
theorem plain_window (hk : key.Agrees st) (hw : st.interest = .write) (hplain : st.greeting = none)
    (hsome : ∀ ev ∈ es, ev.SendsSome) (stays : Meets sessionStep (fun key _ => key.state = st) key es)
    (h : run sessionStep key es = .ok key') (left : key'.state ≠ st) :
    sentBytes key'.os.trace = sentBytes key.os.trace ++ key.data.writeBuffer.pending := by
  have hmeets := stays.and (Meets.of_events (C := fun _ ev => Event.SendsSome ev) fun ev hev _ => hsome ev hev)
  have hrun : (key'.state = st → key'.Agrees st ∧ ∃ sent, sentBytes key'.os.trace = sentBytes key.os.trace ++ sent ∧
        key.data.writeBuffer.pending = sent ++ key'.data.writeBuffer.pending) ∧
      (key'.state ≠ st → sentBytes key'.os.trace = sentBytes key.os.trace ++ key.data.writeBuffer.pending) := by
    refine run_invariant (I := fun _ key' => (key'.state = st → key'.Agrees st ∧ ∃ sent,
      sentBytes key'.os.trace = sentBytes key.os.trace ++ sent ∧
        key.data.writeBuffer.pending = sent ++ key'.data.writeBuffer.pending) ∧
      (key'.state ≠ st → sentBytes key'.os.trace = sentBytes key.os.trace ++ key.data.writeBuffer.pending))
      ?_ ?_ hmeets h
    · have hstate := hk.sound.machine.state_eq
      exact ⟨fun _ => ⟨hk, [], (List.append_nil _).symm, rfl⟩, fun hn => absurd hstate hn⟩
    · rintro xs ev key₁ key₂ - ⟨hstays, -⟩ ⟨hstate, hev⟩ hstep
      obtain ⟨hk₁, sent, hbytes, hpend⟩ := hstays hstate
      have hk₂ := sessionStep_agrees (hstate.symm ▸ hk₁) hstep
      rcases sessionStep_sending hk₁ hw hev hstep with
        ⟨globals, tree, fds, rfl⟩ | ⟨env, next, wb, sent', hprep, hsending, hsplit, hnext⟩
      · exact ⟨fun _ => ⟨hstate ▸ hk₂, sent, hbytes, hpend⟩, fun hn => absurd hstate hn⟩
      · rw [hprep.plain hplain] at hsplit
        have hall : key.data.writeBuffer.pending = (sent ++ sent') ++ key₂.data.writeBuffer.pending := by
          rw [hpend, hsplit, List.append_assoc]
        have hsent : sentBytes key₂.os.trace = sentBytes key.os.trace ++ (sent ++ sent') := by
          rw [hsending.bytes, hbytes, List.append_assoc]
        refine ⟨fun he => ⟨he ▸ hk₂, _, hsent, hall⟩, fun hn => ?_⟩
        rcases hsending.goes with ⟨-, he, -⟩ | ⟨hrest, -⟩
        · exact absurd (hnext.trans he) hn
        · rw [hsent, hall, hrest, List.append_nil]
  exact hrun.2 left

/-- A greeting that is not taken at once is copied again, behind what is left of it. -/
theorem greeting_window {text : List UInt8} (hk : key.Agrees st) (hw : st.interest = .write)
    (hg : st.greeting = some text) (htext : text ≠ []) {n : Nat}
    (hn : n ≤ (sentBytes key.os.trace).length + key.data.writeBuffer.pending.length)
    (hsome : ∀ ev ∈ es, ev.SendsSome) (stays : Meets sessionStep (fun key _ => key.state = st) key es)
    (h : run sessionStep key es = .ok key') (left : key'.state ≠ st) :
    n < (sentBytes key'.os.trace).length := by
  have hmeets := stays.and (Meets.of_events (C := fun _ ev => Event.SendsSome ev) fun ev hev _ => hsome ev hev)
  have hpos := List.length_pos_of_ne_nil htext
  have hrun : (key'.state = st → key'.Agrees st ∧
        n ≤ (sentBytes key'.os.trace).length + key'.data.writeBuffer.pending.length) ∧
      (key'.state ≠ st → n < (sentBytes key'.os.trace).length) := by
    refine run_invariant (I := fun _ key' => (key'.state = st → key'.Agrees st ∧
        n ≤ (sentBytes key'.os.trace).length + key'.data.writeBuffer.pending.length) ∧
      (key'.state ≠ st → n < (sentBytes key'.os.trace).length)) ?_ ?_ hmeets h
    · have hstate := hk.sound.machine.state_eq
      exact ⟨fun _ => ⟨hk, hn⟩, fun hne => absurd hstate hne⟩
    · rintro xs ev key₁ key₂ - ⟨hstays, -⟩ ⟨hstate, hev⟩ hstep
      obtain ⟨hk₁, hle⟩ := hstays hstate
      have hk₂ := sessionStep_agrees (hstate.symm ▸ hk₁) hstep
      rcases sessionStep_sending hk₁ hw hev hstep with
        ⟨globals, tree, fds, rfl⟩ | ⟨env, next, wb, sent, hprep, hsending, hsplit, hnext⟩
      · exact ⟨fun _ => ⟨hstate ▸ hk₂, hle⟩, fun hne => absurd hstate hne⟩
      · have hlen := (hprep.greets text hg).1
        have hsum := congrArg List.length hsplit
        have hbytes := congrArg List.length hsending.bytes
        rw [List.length_append] at hsum hbytes
        refine ⟨fun he => ⟨he ▸ hk₂, by omega⟩, fun hne => ?_⟩
        rcases hsending.goes with ⟨-, he, -⟩ | ⟨hrest, -⟩
        · exact absurd (hnext.trans he) hne
        · rw [hrest, List.length_nil] at hsum
          omega
  exact hrun.2 left

theorem Key.ReadsBody.silent {g : Globals} {received : List (List UInt8)} {front : List UInt8} {rb : Buffer}
    {dp : DataParser} {os : Os} (h : key.ReadsBody env g received front rb dp os) :
    sentBytes os.trace = sentBytes key.os.trace := by
  obtain ⟨fds, -, hos⟩ := writeToFiles_ok h.written
  have htrace := congrArg (fun os => sentBytes os.trace) hos
  simpa [Key.withInput] using htrace

/-- Serving a command puts nothing on the socket. -/
theorem Key.Serves.silent {text : List UInt8} {more : List Entry} (h : key.Serves env st text next more key₁) :
    sentBytes key₁.os.trace = sentBytes key.os.trace := by
  cases h with
  | sender mail copied =>
    obtain ⟨mailfrom, rfl⟩ := copyMailfrom_ok copied
    rfl
  | data data created =>
    obtain ⟨acts, htrace, hmade⟩ := createMailsFiles_acts created
    show sentBytes _ = _
    rw [htrace, sentBytes_append, sentBytes_creates hmade.creates, List.append_nil]
  | _ => rfl

/-- Reading puts nothing on the socket, but for the answer to `QUIT`. -/
theorem Key.Turn.silent (h : key.Turn env st next key₁) (hread : st.interest = .read) (hgo : next ≠ .done) :
    sentBytes key₁.os.trace = sentBytes key.os.trace := by
  cases h with
  | lost => simp [Key.withInput]
  | listened => simp [Key.withInput, Key.withRequest]
  | @answered rb g received p _ _ _ reads takes fed done answer =>
    have hasking : sentBytes (key.asking rb g received p).os.trace = sentBytes key.os.trace := by
      simp [Key.asking, Key.withInput, Key.withRequest]
    cases answer with
    | quit => exact absurd rfl hgo
    | turnedAway => exact hasking
    | served serves => exact serves.silent.trans hasking
  | received state reads => exact reads.silent
  | stored state reads => exact reads.silent
  | unsent writes | sending writes | sent writes =>
    rw [hread] at writes
    cases writes

theorem Key.Window.eq_of_ne {op : Ready} {key₀ : Key} (h : key₀.Window op env key st es key') (hne : key.state ≠ st) :
    key' = key := by
  cases es with
  | nil =>
    cases h.runs
    rfl
  | cons ev es => exact absurd (h.stays [] ev es key rfl rfl) hne

/-- A heeded event is a turn of the state. -/
theorem sessionStep_heeded {op : Ready} (hk : key.Agrees st) (hheeds : key.Heeds op)
    (h : sessionStep key (.ready op env) = .ok key') :
    op.interest = st.interest ∧ ∃ next key₁ key₂, key.Passes env st next key₁ key₂ key' := by
  rcases sessionStep_turn hk.sound hk.output h with
    ⟨op, env, he, hno, -⟩ | ⟨globals, tree, fds, he, -⟩ | ⟨op, env, next, key₁, key₂, he, -, hp⟩
  · cases he
    exact absurd hheeds hno
  · cases he
  · cases he
    exact ⟨hheeds.2.symm.trans hp.waits, next, key₁, key₂, hp⟩

theorem greets_window {text : List UInt8} (hk : key.Agrees st) (hg : st.greeting = some text)
    (hempty : key.data.writeBuffer.pending = []) (hw : key.Window .write env key₁ st es key')
    (hsome : ∀ ev ∈ es, ev.SendsSome) :
    sentBytes key'.os.trace = sentBytes key.os.trace ++ text ↔ text.length ≤ env.send.getD 0 := by
  have htext : text ≠ [] := by
    unfold SmtpState.greeting at hg
    split at hg <;> cases hg <;> decide
  have hnil : ∀ {xs : List UInt8}, xs = xs ++ text ↔ False := by
    intro xs
    simp [htext]
  obtain ⟨hint, next, key₂, key₃, hp⟩ := sessionStep_heeded hk hw.heeds hw.step
  obtain ⟨wb, hprep, hcase⟩ := hp.writes hk hint.symm
  have hwb : wb.pending = text := (hprep.greets text hg).2 hempty
  have hnext : key₁.state = next := settle_state hp.settled
  rw [hwb] at hcase
  rcases hcase with ⟨htaken, rfl, -, hbytes⟩ | ⟨sent, htaken, hsending, hsplit⟩
  · -- nothing is taken
    have hne : key₁.state ≠ st := by
      rw [hnext]
      rintro rfl
      cases hg
    rw [hw.eq_of_ne hne, hbytes, hnil, false_iff]
    intro hle
    rw [List.take_of_length_le hle] at htaken
    exact htext htaken
  · have hlen := congrArg List.length htaken
    have hsum := congrArg List.length hsplit
    rw [List.length_take] at hlen
    rw [List.length_append] at hsum
    rcases hsending.goes with ⟨hrest, rfl, -⟩ | ⟨hrest, hafter, -⟩
    · -- a part is taken, and the rest is copied behind what is left
      have hpos := List.length_pos_of_ne_nil hrest
      have hbytes := congrArg List.length hsending.bytes
      rw [List.length_append] at hbytes
      have hk₁ := sessionStep_agrees (hk.sound.machine.state_eq.symm ▸ hk) hw.step
      have hlong : (sentBytes key.os.trace).length + text.length < (sentBytes key'.os.trace).length :=
        greeting_window (hnext ▸ hk₁) hint.symm hg htext (by omega) hsome hw.stays hw.runs hw.left
      constructor
      · intro he
        rw [he, List.length_append] at hlong
        omega
      · intro hle
        omega
    · have hne : key₁.state ≠ st := by
        rw [hnext]
        rintro rfl
        cases (afterReply_interest hafter).symm.trans hint.symm
      rw [hrest, List.append_nil] at hsplit
      subst hsplit
      rw [hw.eq_of_ne hne, hsending.bytes]
      exact iff_of_true rfl (by omega)

theorem bye_window {request : Request} {op : Ready} (hk : key.Agrees st)
    (hasked : key.asked st (.ready op env) = some (.quit, request)) (hw : key.Window op env key₁ st es key') :
    sentBytes key'.os.trace = sentBytes key.os.trace ++ byeText ↔ byeText.length ≤ env.send.getD 0 := by
  obtain ⟨rfl, hreads, -⟩ := asked_ready hasked
  obtain ⟨-, next, key₂, key₃, hp⟩ := sessionStep_heeded hk hw.heeds hw.step
  obtain ⟨rfl, hbytes⟩ := hp.turn.quit hasked
  have hstate : key₁.state = .done := settle_state hp.settled
  have hreg := (changeState_turned (hp.turn.turned hk hp.registered) hp.hooks).registered
  have hsent : sentBytes key₁.os.trace = sentBytes key.os.trace ++ byeText.take (env.send.getD 0) := by
    rcases settle_eq hreg hp.settled with ⟨-, rfl⟩ | ⟨hgo, -⟩
    · show sentBytes (key₃.os.trace ++ [.closed key₃.fd]) = _
      rw [sentBytes_append, (changeState_effect hp.hooks).bytes, hbytes, hk.quiet (interest_of_reads hreads)]
      simp [sentBytes]
    · exact absurd (Or.inr rfl) hgo
  have hne : key₁.state ≠ st := by
    rw [hstate]
    rintro rfl
    cases hreads
  rw [hw.eq_of_ne hne, hsent, List.append_cancel_left_eq, List.take_eq_self_iff]

theorem Key.Serves.replies {text : List UInt8} {more : List Entry} (h : key.Serves env st text next more key₁) :
    more.filterMap Entry.reply = [] := by
  cases h <;> rfl

/-- Between a state that reads and one that sends, one answer is logged, and what waits is that answer. -/
theorem Key.Turn.loads (h : key.Turn env st next key₁) (hread : st.interest = .read)
    (hquiet : key.data.writeBuffer.pending = []) (hwrites : next.interest = .write) (hplain : next.greeting = none) :
    ∃ more, key₁.log = key.log ++ more ∧ more.filterMap Entry.reply = [key₁.data.writeBuffer.pending] := by
  cases h with
  | lost => cases hwrites
  | listened => cases hread.symm.trans hwrites
  | received => cases hwrites
  | answered reads takes fed done answer =>
    cases answer with
    | quit => cases hwrites
    | turnedAway => cases hplain
    | @served text _ more _ wb serves sized pending =>
      have htext : wb.pending = text := by
        rw [pending]
        show key.data.writeBuffer.pending ++ text = text
        rw [hquiet, List.nil_append]
      refine ⟨_, rfl, ?_⟩
      show text :: more.filterMap Entry.reply = [wb.pending]
      rw [serves.replies, htext]
  | @stored _ _ _ _ _ _ wb state reads done sized pending =>
    rw [hquiet, List.nil_append] at pending
    exact ⟨_, rfl, congrArg (fun bytes => [bytes]) pending.symm⟩
  | unsent writes | sending writes | sent writes => cases hread.symm.trans writes

/-- After a read event with which a state that sends is entered, what waits is what was answered. -/
theorem Key.Passes.loads (hk : key.Agrees st) (h : key.Passes env st next key₁ key₂ key') (hread : st.interest = .read)
    (hwrites : next.interest = .write) (hplain : next.greeting = none) :
    ∃ more, key'.log = key.log ++ more ∧ more.filterMap Entry.reply = [key'.data.writeBuffer.pending] := by
  obtain ⟨more, hlog, hreply⟩ := h.turn.loads hread (hk.quiet hread) hwrites hplain
  have hreg := (changeState_turned (h.turn.turned hk h.registered) h.hooks).registered
  have hmoves := changeState_effect h.hooks
  have hne : next ≠ st := by
    rintro rfl
    cases hread.symm.trans hwrites
  have hentered : key₂.log = key₁.log := by
    rw [(hmoves.entered hne).2, arrive_plain (readsRequest_of_write hwrites)]
  rcases settle_eq hreg h.settled with ⟨hend, -⟩ | ⟨-, rfl⟩
  · exact absurd hend (not_over_of_interest hwrites (by decide))
  · refine ⟨more, hentered.trans hlog, ?_⟩
    show _ = [key₂.data.writeBuffer.pending]
    rw [hmoves.writeBuffer]
    exact hreply

/-- Every read event with which a state that sends is entered queues a reply. -/
theorem queues_of_read (hk : key.Agrees st) (hheeds : key.Heeds .read) (h : sessionStep key (.ready .read env) = .ok key')
    (hwrites : key'.state.interest = .write) (hplain : key'.state.greeting = none) :
    ∃ text, key.Queues .read env key' key'.state text := by
  obtain ⟨hread, next, key₁, key₂, hp⟩ := sessionStep_heeded hk hheeds h
  have hnext : key'.state = next := settle_state hp.settled
  obtain ⟨more, hlog, hreply⟩ := hp.loads hk hread.symm (hnext ▸ hwrites) (hnext ▸ hplain)
  exact ⟨_, .loads rfl hwrites hplain hlog hreply⟩

/-- A reply that a read event puts into the buffer. -/
theorem loads_window {more : List Entry} {text : List UInt8} (hk : key.Agrees st)
    (hw : key.Window .read env key₁ key₁.state es key') (hwrites : key₁.state.interest = .write)
    (hplain : key₁.state.greeting = none) (hlogged : key₁.log = key.log ++ more)
    (hreply : more.filterMap Entry.reply = [text]) (hsome : ∀ ev ∈ es, ev.SendsSome) :
    sentBytes key'.os.trace = sentBytes key.os.trace ++ text := by
  obtain ⟨hint, next, key₂, key₃, hp⟩ := sessionStep_heeded hk hw.heeds hw.step
  have hnext : key₁.state = next := settle_state hp.settled
  have htext : text = key₁.data.writeBuffer.pending := by
    obtain ⟨more', hlog', hreply'⟩ := hp.loads hk hint.symm (hnext ▸ hwrites) (hnext ▸ hplain)
    obtain rfl : more = more' := List.append_cancel_left (hlogged.symm.trans hlog')
    exact List.singleton_inj.mp (hreply.symm.trans hreply')
  have hreg := (changeState_turned (hp.turn.turned hk hp.registered) hp.hooks).registered
  have hgo := not_over_of_interest (hnext ▸ hwrites) (by decide)
  have hk₁ := sessionStep_agrees (hk.sound.machine.state_eq.symm ▸ hk) hw.step
  rw [htext, plain_window hk₁ hwrites hplain hsome hw.stays hw.runs hw.left]
  rcases settle_eq hreg hp.settled with ⟨hend, -⟩ | ⟨-, rfl⟩
  · exact absurd hend hgo
  · show sentBytes key₃.os.trace ++ _ = _
    rw [(changeState_effect hp.hooks).bytes, hp.turn.silent hint.symm fun hn => hgo (Or.inr hn)]

end Steps

/-- On sockets that take something whenever they are ready, what is sent of a reply until its state is
left is the reply, once and in order, exactly if it is not one that is sent by the event that queues
it (a greeting, the refusal of a connection, the answer to `QUIT`) or the first `send` takes it whole. -/
theorem reply_sent_iff {key₀ key key₁ key' : Key} {es₀ es : List Event} {op : Ready} {env : Env}
    {st : SmtpState} {text : List UInt8} (ha : Accepted key₀) (h₀ : run sessionStep key₀ es₀ = .ok key)
    (hq : key.Queues op env key₁ st text) (hw : key.Window op env key₁ st es key')
    (hsome : ∀ ev ∈ es, ev.SendsSome) :
    sentBytes key'.os.trace = sentBytes key.os.trace ++ text ↔
      (key.Sends key.state env op → text.length ≤ env.send.getD 0) := by
  have hk := accepted_agrees ha h₀
  cases hq with
  | greets ready greeting empty =>
    subst ready
    exact (greets_window hk greeting empty hw hsome).trans ⟨fun hle _ => hle, fun hle => hle (Or.inl rfl)⟩
  | bye asked =>
    exact (bye_window hk asked hw).trans ⟨fun hle _ => hle, fun hle => hle (Or.inr ⟨_, asked⟩)⟩
  | loads ready writes plain logged reply =>
    subst ready
    refine iff_of_true (loads_window hk hw writes plain logged reply hsome) ?_
    rintro (hn | ⟨request, hasked⟩)
    · cases hn
    · obtain ⟨-, next, key₂, key₃, hp⟩ := sessionStep_heeded hk hw.heeds hw.step
      obtain ⟨rfl, -⟩ := hp.turn.quit hasked
      have hnext : key₁.state = .done := settle_state hp.settled
      rw [hnext] at writes
      cases writes

section Script

/-- The socket takes no more than this. -/
def sendEnv (n : Nat) : Env := { readyEnv [] with send := some n }

/-- An answer that goes out in two parts. -/
def inParts : List Event := [.ready .write (sendEnv 3), .ready .write (sendEnv 2048)]

theorem reply_sent_iff_in_parts :
    ∃ key key₁ key', run sessionStep firstKey (script []) = .ok key ∧
      key.Queues .read (readyEnv (ascii "EHLO there\r\n")) key₁ key₁.state RequestCommand.ehlo.helloText ∧
      key.Window .read (readyEnv (ascii "EHLO there\r\n")) key₁ key₁.state inParts key' ∧
      (sentBytes key'.os.trace = sentBytes key.os.trace ++ RequestCommand.ehlo.helloText ↔
        (key.Sends key.state (readyEnv (ascii "EHLO there\r\n")) .read →
          RequestCommand.ehlo.helloText.length ≤ 2048)) := by
  obtain ⟨key, h₀, hread, hany⟩ : ∃ key, run sessionStep firstKey (script []) = .ok key ∧ key.Heeds .read ∧
      ((sessionStep key (.ready .read (readyEnv (ascii "EHLO there\r\n")))).toOption.any fun key₁ =>
        decide (key₁.state = .ehloWrite ∧ key₁.log = key.log ++ key₁.log.drop key.log.length ∧
          (key₁.log.drop key.log.length).filterMap Entry.reply = [RequestCommand.ehlo.helloText] ∧
          meetsAll sessionStep (fun key _ => key.state = .ehloWrite) key₁ inParts ∧
          ((run sessionStep key₁ inParts).toOption.any fun key' => decide (key'.state ≠ .ehloWrite)) = true)) =
        true := by
    refine ok_of_any (P := fun key : Key => _ ∧ _) ?_
    decide +kernel
  obtain ⟨key₁, hstep, hstate, hlogged, hreply, hstays, hany⟩ := ok_of_any hany
  obtain ⟨key', hrun, hleft⟩ := ok_of_any hany
  rw [← hstate] at hstays hleft
  have hq : key.Queues .read (readyEnv (ascii "EHLO there\r\n")) key₁ key₁.state RequestCommand.ehlo.helloText := by
    refine .loads rfl ?_ ?_ hlogged hreply
    · rw [hstate]
      rfl
    · rw [hstate]
      rfl
  have hw : key.Window .read (readyEnv (ascii "EHLO there\r\n")) key₁ key₁.state inParts key' :=
    ⟨hread, hstep, Meets.of_check hstays, hrun, hleft⟩
  refine ⟨key, key₁, key', h₀, hq, hw, reply_sent_iff accepted_first h₀ hq hw ?_⟩
  intro ev hev
  rcases List.mem_cons.mp hev with rfl | hev
  · exact (by decide : 0 < 3)
  · rw [List.mem_singleton.mp hev]
    exact (by decide : 0 < 2048)

/-- The greeting, of which five bytes are taken first, is not what is sent. -/
theorem greeting_not_sent :
    Accepted firstKey ∧ ∃ key₁ key',
      firstKey.Queues .write (sendEnv 5) key₁ .greetingWrite (ascii "220 localhost SMTP\r\n") ∧
      firstKey.Window .write (sendEnv 5) key₁ .greetingWrite [.ready .write (sendEnv 2048)] key' ∧
      sentBytes key'.os.trace ≠ sentBytes firstKey.os.trace ++ ascii "220 localhost SMTP\r\n" := by
  have hany : ((sessionStep firstKey (.ready .write (sendEnv 5))).toOption.any fun key₁ => decide
      (meetsAll sessionStep (fun key _ => key.state = .greetingWrite) key₁ [.ready .write (sendEnv 2048)] ∧
        ((run sessionStep key₁ [.ready .write (sendEnv 2048)]).toOption.any fun key' =>
          decide (key'.state ≠ .greetingWrite ∧ sentBytes key'.os.trace ≠
            sentBytes firstKey.os.trace ++ ascii "220 localhost SMTP\r\n")) = true)) = true := by
    decide +kernel
  obtain ⟨key₁, hstep, hstays, hany⟩ := ok_of_any hany
  obtain ⟨key', hrun, hleft, hbytes⟩ := ok_of_any hany
  exact ⟨accepted_first, key₁, key', .greets rfl rfl (by decide +kernel),
    ⟨by decide, hstep, Meets.of_check hstays, hrun, hleft⟩, hbytes⟩

end Script

end Smtpd
