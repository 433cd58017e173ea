import Smtpd.DialogueRefinement

namespace Smtpd

open Checked Runs

/-- The bytes that were written to a descriptor. -/
def handed (fd : Nat) (acts : List Act) : List UInt8 :=
  acts.flatMap fun act => match act with
    | .wrote f bytes => if f = fd then bytes else []
    | _ => []

/-- The bytes that were received from the client. -/
def receivedBytes (acts : List Act) : List UInt8 :=
  acts.flatMap fun act => match act with
    | .received bytes => bytes
    | _ => []

section Acts

variable {fd : Nat} {fds : List Nat}

theorem handed_append (fd : Nat) (xs ys : List Act) :
    handed fd (xs ++ ys) = handed fd xs ++ handed fd ys := by
  simp [handed]

theorem receivedBytes_append (xs ys : List Act) :
    receivedBytes (xs ++ ys) = receivedBytes xs ++ receivedBytes ys := by
  simp [receivedBytes]

@[simp] theorem handed_sent (fd : Nat) (sent : List (List UInt8)) : handed fd (sent.map .sent) = [] := by
  simp [handed]

@[simp] theorem handed_received (fd : Nat) (received : List (List UInt8)) :
    handed fd (received.map .received) = [] := by
  simp [handed]

@[simp] theorem receivedBytes_sent (sent : List (List UInt8)) : receivedBytes (sent.map .sent) = [] := by
  simp [receivedBytes]

@[simp] theorem receivedBytes_received (received : List (List UInt8)) :
    receivedBytes (received.map .received) = received.flatten := by
  induction received with
  | nil => rfl
  | cons bytes received ih => simpa [receivedBytes] using ih

@[simp] theorem receivedBytes_wrote (fds : List Nat) (bytes : List UInt8) :
    receivedBytes (fds.map fun fd => .wrote fd bytes) = [] := by
  simp [receivedBytes]

theorem handed_wrote_other (h : fd ∉ fds) (bytes : List UInt8) :
    handed fd (fds.map fun f => .wrote f bytes) = [] := by
  rw [handed, List.flatMap_eq_nil_iff]
  intro act hact
  obtain ⟨f, hf, rfl⟩ := List.mem_map.mp hact
  have hne : f ≠ fd := by
    intro he
    subst he
    exact h hf
  exact if_neg hne

/-- Of the descriptors of all recipients each gets the bytes once. -/
theorem handed_wrote (hnodup : fds.Nodup) (hm : fd ∈ fds) (bytes : List UInt8) :
    handed fd (fds.map fun f => .wrote f bytes) = bytes := by
  induction fds with
  | nil => cases hm
  | cons f fds ih =>
    obtain ⟨hf, hnodup'⟩ := List.nodup_cons.mp hnodup
    have hsplit : handed fd ((f :: fds).map fun f => .wrote f bytes) =
        (if f = fd then bytes else []) ++ handed fd (fds.map fun f => .wrote f bytes) := rfl
    rw [hsplit]
    by_cases he : f = fd
    · rw [if_pos he, handed_wrote_other (he ▸ hf), List.append_nil]
    · rw [if_neg he, List.nil_append]
      exact ih hnodup' ((List.mem_cons.mp hm).resolve_left (Ne.symm he))

end Acts

/-- What a read event completes of the message fits into the data buffer. -/
def Key.BodyFits (key : Key) (ev : Event) : Prop :=
  ∀ env f rest, ev = .ready .read env → key.state = .mailInfoRead →
    key.data.dataParser.state.held ++ key.atHand env = f ++ rest → DataUnits f → f.length ≤ 2048

/-- A message on its way, since `DATA` was answered: what was read of it is at the descriptors of
all recipients, up to the bytes held back. -/
structure Delivery (start : Key) (fds : List Nat) (acts : List Act) (consumed : List UInt8)
    (key : Key) : Prop where
  trace : key.os.trace = start.os.trace ++ acts
  rcpts : key.data.rcptList = start.data.rcptList
  input : start.data.readBuffer.pending ++ receivedBytes acts = consumed ++ key.data.readBuffer.pending
  waiting : key.state = .dataWrite →
    key.data.requestParser.command = .data ∧ consumed = [] ∧ ∀ fd, handed fd acts = []
  done : key.state ≠ .dataWrite → (key.data.dataParser.state = .done ↔ key.state = .mailInfoWrite)
  output : key.state ≠ .dataWrite →
    ∀ fd ∈ fds, handed fd acts ++ key.data.dataParser.state.held = consumed

section Steps

variable {start key key' : Key} {fds : List Nat} {acts : List Act} {consumed : List UInt8}

/-- Nothing that a delivery speaks about changes, except that the connection may be lost while
the message is read. -/
theorem Delivery.more {more : List Act} (h : Delivery start fds acts consumed key)
    (htrace : key'.os.trace = key.os.trace ++ more) (hmore : receivedBytes more = [])
    (hwrote : ∀ fd, handed fd more = [])
    (hstate : key'.state = key.state ∨ key.state = .mailInfoRead ∧ key'.state = .error)
    (hdata : key'.data.rcptList = key.data.rcptList ∧ key'.data.readBuffer = key.data.readBuffer ∧
      key'.data.requestParser = key.data.requestParser ∧ key'.data.dataParser = key.data.dataParser) :
    Delivery start fds (acts ++ more) consumed key' := by
  obtain ⟨hrcpts, hinput, hrequest, hparser⟩ := hdata
  have hwait : key'.state = .dataWrite → key.state = .dataWrite := by
    rcases hstate with he | ⟨-, he⟩ <;> rw [he]
    · exact id
    · intro hn
      cases hn
  have hread : key'.state ≠ .dataWrite → key.state ≠ .dataWrite := by
    rcases hstate with he | ⟨he, -⟩ <;> rw [he]
    · exact id
    · exact fun _ hn => by cases hn
  have hend : key'.state = .mailInfoWrite ↔ key.state = .mailInfoWrite := by
    rcases hstate with he | ⟨he, he'⟩
    · rw [he]
    · simp [he, he']
  constructor
  · rw [htrace, h.trace, List.append_assoc]
  · rw [hrcpts, h.rcpts]
  · rw [receivedBytes_append, hmore, List.append_nil, hinput, h.input]
  · intro hst
    obtain ⟨hc, hnil, hall⟩ := h.waiting (hwait hst)
    exact ⟨hrequest ▸ hc, hnil, fun fd => by rw [handed_append, hall, hwrote]; rfl⟩
  · rw [hparser, hend]
    exact fun hst => h.done (hread hst)
  · rw [hparser]
    intro hst fd hfd
    rw [handed_append, hwrote, List.append_nil]
    exact h.output (hread hst) fd hfd

/-- A read event of the message, which reads `front`. -/
structure BodyRead (env : Env) (fds : List Nat) (next : SmtpState) (received : List (List UInt8))
    (front : List UInt8) (key key' : Key) : Prop where
  trace : key'.os.trace = key.os.trace ++ (received.map .received ++
    fds.map fun fd => .wrote fd ((dataWritten key.data.dataParser.state front).take 2048))
  rcpts : key'.data.rcptList = key.data.rcptList
  received : key.atHand env = key.data.readBuffer.pending ++ received.flatten
  input : key.atHand env = front ++ key'.data.readBuffer.pending
  state : key'.data.dataParser.state = dataRun key.data.dataParser.state front
  first : ∀ m < front.length, dataRun key.data.dataParser.state (front.take m) ≠ .done
  last : next = .mailInfoRead ∧ key'.data.dataParser.state ≠ .done ∧ key'.data.readBuffer.pending = [] ∨
    next = .mailInfoWrite ∧ key'.data.dataParser.state = .done

theorem mailInfoRead_ok {env : Env} {next : SmtpState} (hs : key.Sound .mailInfoRead)
    (hopen : key.data.dataParser.state ≠ .done)
    (hmap : key.data.rcptList.map RcptNode.fileFd = fds.map some) (hreg : key.registered = true)
    (h : mailInfoRead env key = .ok (next, key')) :
    (key.atHand env = [] ∧ next = .error ∧ ∃ g, key' = key.withInput key.data.readBuffer g []) ∨
      ∃ received front, BodyRead env fds next received front key key' := by
  rcases readStatus_ok hs.input h with ⟨hnil, rfl, hg⟩ | ⟨rb, g, received, hrb, hhand, -, hpend, h⟩
  · exact Or.inl ⟨hnil, rfl, hg⟩
  · obtain ⟨front, rb', dp, os, hfront, -, hdp, hdpread, hdpst, hdppend, hbefore, hwrite, hcase⟩ :=
      mailInfoReadProcess_ok (show (key.withInput rb g received).data.readBuffer.Sized 2048 from hrb)
        hs.body hreg h
    have hinput : key.atHand env = front ++ rb'.pending := hhand.symm.trans hfront
    obtain ⟨fds', hmap', rfl⟩ := writeToFiles_ok hwrite
    have hfds : fds' = fds :=
      List.map_injective_iff.mpr (fun _ _ he => Option.some.inj he) (hmap'.symm.trans hmap)
    have hbytes : (dp.dataBuffer.raw.drop dp.dataBuffer.data).take
        (dp.dataBuffer.write - dp.dataBuffer.data) =
          (dataWritten key.data.dataParser.state front).take 2048 := by
      have hread : dp.dataBuffer.data = dp.dataBuffer.read := by rw [hdp.data, hdpread]
      rw [hread]
      exact hdppend
    rw [hfds, hbytes] at hcase
    refine Or.inr ⟨received, front, ?_⟩
    rcases hcase with ⟨hd, hrest, rfl, rfl⟩ | ⟨hd, rfl, wb, -, rfl⟩
    · exact ⟨List.append_assoc _ _ _, rfl, hhand.symm.trans hpend, hinput, hdpst, hbefore hopen,
        Or.inl ⟨rfl, hd, hrest⟩⟩
    · exact ⟨List.append_assoc _ _ _, rfl, hhand.symm.trans hpend, hinput, hdpst, hbefore hopen,
        Or.inr ⟨rfl, hd⟩⟩

/-- What is read of the message has been received. -/
theorem Delivery.input_more {env : Env} {next : SmtpState} {received : List (List UInt8)}
    {front : List UInt8} (h : Delivery start fds acts consumed key)
    (hbody : BodyRead env fds next received front key key') :
    start.data.readBuffer.pending ++ receivedBytes (acts ++ (received.map .received ++
        fds.map fun fd => .wrote fd ((dataWritten key.data.dataParser.state front).take 2048))) =
      (consumed ++ front) ++ key'.data.readBuffer.pending := by
  rw [receivedBytes_append, receivedBytes_append, receivedBytes_received, receivedBytes_wrote,
    List.append_nil]
  calc start.data.readBuffer.pending ++ (receivedBytes acts ++ received.flatten)
      = consumed ++ (key.data.readBuffer.pending ++ received.flatten) := by
        rw [← List.append_assoc, h.input, List.append_assoc]
    _ = (consumed ++ front) ++ key'.data.readBuffer.pending := by
        rw [← hbody.received, hbody.input, List.append_assoc]

/-- If it fits, nothing of what is read is lost. -/
theorem BodyRead.output {env : Env} {next : SmtpState} {received : List (List UInt8)}
    {front : List UInt8} (h : BodyRead env fds next received front key key')
    (hst : key.state = .mailInfoRead) (hopen : key.data.dataParser.state ≠ .done)
    (hfits : key.BodyFits (.ready .read env)) (hnodup : fds.Nodup) {fd : Nat} (hfd : fd ∈ fds) :
    key.data.dataParser.state.held ++ front =
      handed fd (received.map .received ++
        fds.map fun fd => .wrote fd ((dataWritten key.data.dataParser.state front).take 2048)) ++
        key'.data.dataParser.state.held := by
  have hsplit := held_append h.first
  have hroom : (dataWritten key.data.dataParser.state front).length ≤ 2048 := by
    refine hfits env _ ((dataRun key.data.dataParser.state front).held ++ key'.data.readBuffer.pending)
      rfl hst ?_ (dataWritten_units hopen h.first)
    rw [h.input, ← List.append_assoc, hsplit, List.append_assoc]
  rw [handed_append, handed_received, handed_wrote hnodup hfd, List.take_of_length_le hroom, h.state]
  exact hsplit

/-- If it does not fit, more is written than the data buffer takes. -/
theorem BodyRead.overrun {env : Env} {next : SmtpState} {received : List (List UInt8)}
    {front : List UInt8} (h : BodyRead env fds next received front key key')
    (hfits : ¬ key.BodyFits (.ready .read env)) :
    2048 < (dataWritten key.data.dataParser.state front).length := by
  simp only [Key.BodyFits, not_forall, not_le] at hfits
  obtain ⟨env', f, rest, he, -, hsplit, hf, hlong⟩ := hfits
  cases he
  rw [h.input] at hsplit
  have hall := units_le_written hf hsplit
  have hnone : dataWritten (dataRun key.data.dataParser.state front) key'.data.readBuffer.pending = [] := by
    rw [← h.state]
    rcases h.last with ⟨-, -, hnil⟩ | ⟨-, hd⟩
    · rw [hnil]
      rfl
    · rw [hd]
      exact dataWritten_done _
  rw [dataWritten_append, hnone, List.append_nil] at hall
  omega

/-- A write event of the answer to `DATA`. -/
theorem dataWrite_ok {env : Env} {next : SmtpState} {key₁ : Key}
    (hc : key.data.requestParser.command = .data) (h : dataWrite env key = .ok (next, key₁)) :
    ∃ wb i sent, key₁ = key.withOutput wb i sent ∧
      (next = .error ∨ next = .mailInfoRead ∨ next = .dataWrite) := by
  simp only [dataWrite, hc] at h
  exact writeStatus_ok h

theorem Delivery.waitingStep {env : Env} {next : SmtpState} {key₁ key₂ : Key}
    (h : Delivery start fds acts consumed key) (hst : key.state = .dataWrite)
    (hh : Handled SmtpState.onWrite env .dataWrite next key key₁ key₂ key') :
    key'.state = .error ∨ ∃ acts' consumed', Delivery start fds acts' consumed' key' := by
  obtain ⟨f, hf, hcall⟩ := hh.callback
  cases hf
  obtain ⟨hcmd, hnil, hnone⟩ := h.waiting hst
  have hstate := settle_state hh.settled
  obtain ⟨wb, i, sent, rfl, hnext⟩ := dataWrite_ok hcmd hcall
  obtain ⟨-, -, hkeep⟩ := settle_ok hh.settled
  rcases hnext with rfl | rfl | rfl
  · exact Or.inl hstate
  · have hkey := hkeep (by decide) (by decide)
    have hhooks := hh.hooks
    cases hhooks
    subst hkey
    refine Or.inr ⟨acts ++ sent.map .sent, [], ?_⟩
    subst hnil
    exact {
      trace := by simp [Key.withOutput, h.trace]
      rcpts := h.rcpts
      input := by
        rw [receivedBytes_append, receivedBytes_sent, List.append_nil]
        exact h.input
      waiting := fun hn => by rw [hstate] at hn; cases hn
      done := fun _ => by
        rw [hstate]
        exact iff_of_false (by simp [dataParserInit]) (by decide)
      output := fun _ fd _ => by rw [handed_append, hnone, handed_sent]; rfl }
  · have hkey := hkeep (by decide) (by decide)
    have hhooks := hh.hooks
    cases hhooks
    subst hkey
    exact Or.inr ⟨acts ++ sent.map .sent, consumed, h.more rfl (receivedBytes_sent sent)
      (fun fd => handed_sent fd sent) (Or.inl (hstate.trans hst.symm)) ⟨rfl, rfl, rfl, rfl⟩⟩

/-- An event in which the message is read: the connection is lost, or something is read. -/
theorem mailInfoRead_event {env : Env} {next : SmtpState} {key₁ key₂ : Key}
    (hs : key.Sound .mailInfoRead) (hopen : key.data.dataParser.state ≠ .done)
    (hmap : key.data.rcptList.map RcptNode.fileFd = fds.map some)
    (hh : Handled SmtpState.onRead env .mailInfoRead next key key₁ key₂ key') :
    (key.atHand env = [] ∧ key'.state = .error ∧ key'.os.trace = key.os.trace ++ [.closed key.fd] ∧
      ∃ stm, key'.data = { key.data with stm }) ∨
    ∃ received front, BodyRead env fds key'.state received front key key' := by
  obtain ⟨f, hf, hcall⟩ := hh.callback
  cases hf
  have hstate := settle_state hh.settled
  obtain ⟨hdata, -, hkeep⟩ := settle_ok hh.settled
  have hhooks := hh.hooks
  rw [hstate]
  rcases mailInfoRead_ok hs hopen hmap hh.registered hcall with
    ⟨hnil, rfl, g, rfl⟩ | ⟨received, front, hbody⟩
  · rw [changeState_plain rfl rfl] at hhooks
    cases hhooks
    have hlost : (key.withInput key.data.readBuffer g []).registered = true := hh.registered
    refine Or.inl ⟨hnil, rfl, ?_, _, hdata⟩
    rw [settle_lost hlost hh.settled]
    simp [Key.withInput]
  · have hnext : next = .mailInfoRead ∨ next = .mailInfoWrite := hbody.last.imp And.left And.left
    have hplain : next.arrival = none := by rcases hnext with rfl | rfl <;> rfl
    rw [changeState_plain rfl hplain] at hhooks
    cases hhooks
    have hkey := hkeep (by rcases hnext with rfl | rfl <;> decide) (by rcases hnext with rfl | rfl <;> decide)
    subst hkey
    exact Or.inr ⟨received, front, hbody.trace, hbody.rcpts, hbody.received, hbody.input, hbody.state,
      hbody.first, hbody.last⟩

theorem Delivery.not_done (h : Delivery start fds acts consumed key) (hst : key.state = .mailInfoRead) :
    key.data.dataParser.state ≠ .done := by
  intro hd
  have hwait : key.state ≠ .dataWrite := by
    rw [hst]
    decide
  cases hst.symm.trans ((h.done hwait).mp hd)

theorem Delivery.readingStep {env : Env} {next : SmtpState} {key₁ key₂ : Key}
    (hs : key.Sound .mailInfoRead) (h : Delivery start fds acts consumed key)
    (hfits : key.BodyFits (.ready .read env))
    (hmap : start.data.rcptList.map RcptNode.fileFd = fds.map some) (hnodup : fds.Nodup)
    (hh : Handled SmtpState.onRead env .mailInfoRead next key key₁ key₂ key') :
    key'.state ≠ .dataWrite ∧ ∃ acts' consumed', Delivery start fds acts' consumed' key' := by
  have hst : key.state = .mailInfoRead := hs.machine.state_eq
  have hopen := h.not_done hst
  rcases mailInfoRead_event hs hopen (h.rcpts ▸ hmap) hh with
    ⟨-, hlost, htrace, stm, hdata⟩ | ⟨received, front, hbody⟩
  · refine ⟨by rw [hlost]; decide, acts ++ [.closed key.fd], consumed, ?_⟩
    exact h.more htrace rfl (fun _ => rfl) (Or.inr ⟨hst, hlost⟩) (by rw [hdata]; exact ⟨rfl, rfl, rfl, rfl⟩)
  · have hne : key'.state ≠ .dataWrite := by
      rcases hbody.last with ⟨hn, -⟩ | ⟨hn, -⟩ <;> rw [hn] <;> decide
    refine ⟨hne, acts ++ (received.map .received ++
      fds.map fun fd => .wrote fd ((dataWritten key.data.dataParser.state front).take 2048)),
      consumed ++ front, ?_⟩
    exact {
      trace := by rw [← List.append_assoc, ← h.trace]; exact hbody.trace
      rcpts := hbody.rcpts.trans h.rcpts
      input := h.input_more hbody
      waiting := fun hn => absurd hn hne
      done := fun _ => by
        rcases hbody.last with ⟨hn, hd, -⟩ | ⟨hn, hd⟩ <;> rw [hn]
        · exact iff_of_false hd (by decide)
        · exact iff_of_true hd rfl
      output := fun _ fd hfd => by
        rw [handed_append, List.append_assoc, ← hbody.output hst hopen hfits hnodup hfd,
          ← List.append_assoc, h.output (by rw [hst]; decide) fd hfd] }

/-- A message is waited for or read. -/
def Key.Delivers (key : Key) : Prop := key.state = .dataWrite ∨ key.state = .mailInfoRead

instance : DecidablePred Key.Delivers := fun _ => inferInstanceAs (Decidable (_ ∨ _))

/-- An event of a delivery carries it on, or the connection is lost before the first byte. -/
theorem Delivery.step {ev : Event} (hs : key.Sound key.state) (h : Delivery start fds acts consumed key)
    (hmap : start.data.rcptList.map RcptNode.fileFd = fds.map some) (hnodup : fds.Nodup)
    (hst : key.Delivers) (hfits : key.BodyFits ev) (hstep : sessionStep key ev = .ok key') :
    (key.state = .dataWrite ∧ key'.state = .error) ∨
      (key'.state = .dataWrite → key.state = .dataWrite) ∧
        ∃ acts' consumed', Delivery start fds acts' consumed' key' := by
  rcases sessionStep_cases hs.machine hstep with
    ⟨rfl, -, -⟩ | ⟨globals, tree, used, rfl, rfl⟩ | ⟨env, next, key₁, key₂, rfl, -, hh⟩ |
    ⟨env, next, key₁, key₂, rfl, hh⟩
  · exact Or.inr ⟨id, acts, consumed, h⟩
  · exact Or.inr ⟨id, acts ++ [], consumed, h.more (List.append_nil _).symm rfl (fun _ => rfl) (Or.inl rfl)
      ⟨rfl, rfl, rfl, rfl⟩⟩
  · rcases hst with hst | hst <;> rw [hst] at hh hs
    · obtain ⟨f, hf, -⟩ := hh.callback
      cases hf
    · obtain ⟨hne, hd⟩ := h.readingStep hs hfits hmap hnodup hh
      exact Or.inr ⟨fun hn => absurd hn hne, hd⟩
  · rcases hst with hst | hst <;> rw [hst] at hh hs
    · exact (h.waitingStep hst hh).imp (fun he => ⟨hst, he⟩) (fun hd => ⟨fun _ => hst, hd⟩)
    · obtain ⟨f, hf, -⟩ := hh.callback
      cases hf

end Steps

/-- `DATA` is answered with 354 by an event. -/
structure Key.AnswersData (before : Key) (ev : Event) (start : Key) : Prop where
  state : before.state = .dataRead
  asked : (before.asked .dataRead ev).map Prod.fst = some .data
  step : sessionStep before ev = .ok start

/-- What was consumed of a message since `DATA` was answered is at the descriptor of every
recipient, up to the beginning of the delimiter that the parser holds back. -/
def BodyStored (start key : Key) : Prop :=
  ∃ acts consumed, key.os.trace = start.os.trace ++ acts ∧
    start.data.readBuffer.pending ++ receivedBytes acts = consumed ++ key.data.readBuffer.pending ∧
    ∀ node ∈ key.data.rcptList, ∃ fd ∈ node.fileFd,
      handed fd acts ++ key.data.dataParser.state.held = consumed

section Runs

variable {key before start reading after : Key} {es₀ es : List Event} {ev : Event} {env : Env}

theorem dataAnswer_ok {next : SmtpState} {key key' : Key} (hc : key.data.requestParser.command = .data)
    (h : dataAnswer env key = .ok (next, key')) :
    next = .dataWrite ∧ key'.data.requestParser.command = .data ∧
      ∃ fds : List Nat, key'.data.rcptList.map RcptNode.fileFd = fds.map some ∧ fds.Nodup := by
  simp only [dataAnswer, hc] at h
  obtain ⟨key₁, hreply, h⟩ := bind_ok h
  obtain ⟨wb, rfl⟩ := reply_ok hreply
  obtain ⟨⟨rcptList, os⟩, hcreate, h⟩ := bind_ok h
  obtain ⟨os₁, -, hcreate⟩ := bind_ok hcreate
  obtain ⟨fds, hmap, hnodup, -⟩ := createMailFilesFrom_fds hcreate
  cases h
  exact ⟨rfl, hc, fds, hmap, hnodup⟩

theorem Key.AnswersData.delivery (hs : before.Sound before.state) (h : before.AnswersData ev start) :
    ∃ fds : List Nat, start.data.rcptList.map RcptNode.fileFd = fds.map some ∧ fds.Nodup ∧
      Delivery start fds [] [] start := by
  have hasked := h.asked
  rw [h.state] at hs
  rcases sessionStep_cases hs.machine h.step with
    ⟨-, hnone, -⟩ | ⟨globals, tree, used, rfl, -⟩ | ⟨env, next, key₁, key₂, rfl, hint, hh⟩ |
    ⟨env, next, key₁, key₂, rfl, -⟩
  · rw [hnone] at hasked
    cases hasked
  · cases hasked
  · obtain ⟨f, hf, hcall⟩ := hh.callback
    cases hf
    rcases requestRead_ok hs.input hh.registered hint rfl hcall with
      ⟨hnone, -⟩ | ⟨rb, g, received, rb', p, -, ⟨hnone, -⟩ | ⟨hsome, hanswer⟩⟩
    · rw [hnone] at hasked
      cases hasked
    · rw [hnone] at hasked
      cases hasked
    · have hc : p.command = .data := by
        rw [hsome] at hasked
        exact Option.some.inj hasked
      obtain ⟨rfl, hc', fds, hmap, hnodup⟩ := dataAnswer_ok hc hanswer
      have hhooks := hh.hooks
      rw [changeState_plain rfl rfl] at hhooks
      cases hhooks
      have hstate := settle_state hh.settled
      obtain ⟨-, -, hkeep⟩ := settle_ok hh.settled
      have hkey := hkeep (by decide) (by decide)
      subst hkey
      refine ⟨fds, hmap, hnodup, ?_⟩
      exact {
        trace := (List.append_nil _).symm
        rcpts := rfl
        input := List.append_nil _
        waiting := fun _ => ⟨hc', rfl, fun _ => rfl⟩
        done := fun hn => absurd hstate hn
        output := fun hn => absurd hstate hn }
  · cases hasked

/-- A message whose reads all fit is carried on. -/
theorem delivery_run {fds : List Nat} (hs : start.Sound start.state) (h₀ : Delivery start fds [] [] start)
    (hmap : start.data.rcptList.map RcptNode.fileFd = fds.map some) (hnodup : fds.Nodup)
    (within : Meets sessionStep (fun key _ => key.Delivers) start es)
    (meets : Meets sessionStep Key.BodyFits start es) (h : run sessionStep start es = .ok reading)
    (hst : reading.state = .mailInfoRead) :
    reading.Sound .mailInfoRead ∧ ∃ acts consumed, Delivery start fds acts consumed reading := by
  obtain ⟨hsound, hI⟩ := run_invariant
    (I := fun _ key => key.Sound key.state ∧
      (key.state = .error ∨ ∃ acts consumed, Delivery start fds acts consumed key))
    ⟨hs, Or.inr ⟨[], [], h₀⟩⟩
    (by
      rintro xs ev key key' - ⟨hs, hI⟩ ⟨hdelivers, hfits⟩ hstep
      obtain ⟨st', hs', -⟩ := sessionStep_refines hs hstep
      rw [← hs'.machine.state_eq] at hs'
      refine ⟨hs', ?_⟩
      rcases hI with he | ⟨acts, consumed, hd⟩
      · rw [Key.Delivers, he] at hdelivers
        cases hdelivers with
        | inl hn => cases hn
        | inr hn => cases hn
      · exact (hd.step hs hmap hnodup hdelivers hfits hstep).imp And.right And.right)
    (within.and meets) h
  rw [hst] at hsound hI
  exact ⟨hsound, hI.resolve_left (by decide)⟩

/-- If what is read of a message fits into the data buffer, every recipient has what was consumed
of it after every read event, and without its delimiter when the message is over. -/
theorem body_stored (ha : Accepted key) (hbefore : run sessionStep key es₀ = .ok before)
    (hdata : before.AnswersData ev start)
    (within : Meets sessionStep (fun key _ => key.Delivers) start es)
    (meets : Meets sessionStep Key.BodyFits start (es ++ [.ready .read env]))
    (hreading : run sessionStep start es = .ok reading) (hst : reading.state = .mailInfoRead)
    (h : sessionStep reading (.ready .read env) = .ok after) :
    BodyStored start after ∧ (after.data.dataParser.state = .done ↔ after.state = .mailInfoWrite) := by
  have hs := accepted_sound ha hbefore
  obtain ⟨fds, hmap, hnodup, h₀⟩ := hdata.delivery hs
  have hs₀ : start.Sound start.state :=
    accepted_sound ha (run_concat_ok.mpr ⟨before, hbefore, hdata.step⟩)
  obtain ⟨meets, hlast⟩ := meets.concat
  obtain ⟨hs₁, acts, consumed, hd⟩ := delivery_run hs₀ h₀ hmap hnodup within meets hreading hst
  rcases hd.step (hst ▸ hs₁) hmap hnodup (Or.inr hst) (hlast reading hreading) h with
    ⟨hn, -⟩ | ⟨hne, acts', consumed', hd'⟩
  · cases hst.symm.trans hn
  · have hwait : after.state ≠ .dataWrite := by
      intro hn
      cases hst.symm.trans (hne hn)
    refine ⟨⟨acts', consumed', hd'.trace, hd'.input, fun node hnode => ?_⟩, hd'.done hwait⟩
    have hmem : node.fileFd ∈ fds.map some := by
      rw [← hmap, ← hd'.rcpts]
      exact List.mem_map_of_mem hnode
    obtain ⟨fd, hfd, he⟩ := List.mem_map.mp hmem
    exact ⟨fd, he.symm, hd'.output hwait fd hfd⟩

/-- The first read event that does not fit loses bytes. -/
theorem Delivery.overrun {fds : List Nat} {acts : List Act} {consumed : List UInt8}
    (hs : reading.Sound .mailInfoRead) (h : Delivery start fds acts consumed reading)
    (hmap : start.data.rcptList.map RcptNode.fileFd = fds.map some) (hnodup : fds.Nodup)
    (hsome : start.data.rcptList ≠ []) (hready : reading.registered = true ∧ reading.interest = .read)
    (hfits : ¬ reading.BodyFits (.ready .read env))
    (hstep : sessionStep reading (.ready .read env) = .ok after) : ¬ BodyStored start after := by
  have hst : reading.state = .mailInfoRead := hs.machine.state_eq
  have hopen := h.not_done hst
  simp only [sessionStep, if_pos hready, smtpRead_eq hs.machine] at hstep
  obtain ⟨next, key₁, key₂, hh⟩ := react_ok hready.1 hstep
  rcases mailInfoRead_event hs hopen (h.rcpts ▸ hmap) hh with ⟨hnil, -⟩ | ⟨received, front, hbody⟩
  · -- nothing was received, and what is held back is short
    refine absurd ?_ hfits
    intro env' f rest he _ hsplit _
    cases he
    rw [hnil, List.append_nil] at hsplit
    have hheld := reading.data.dataParser.state.held_length
    rw [hsplit, List.length_append] at hheld
    omega
  · rintro ⟨acts', consumed', htrace, hinput, hall⟩
    have hacts : acts' = acts ++ (received.map .received ++
        fds.map fun fd => .wrote fd ((dataWritten reading.data.dataParser.state front).take 2048)) := by
      rw [hbody.trace, h.trace, List.append_assoc] at htrace
      exact (List.append_cancel_left htrace).symm
    have hconsumed : consumed' = consumed ++ front := by
      rw [hacts, h.input_more hbody] at hinput
      exact (List.append_cancel_right hinput).symm
    obtain ⟨node, nodes, hlist⟩ := List.exists_cons_of_ne_nil hsome
    obtain ⟨fd, hfd, heq⟩ := hall node (by
      rw [hbody.rcpts, h.rcpts, hlist]
      exact List.mem_cons_self)
    have hmem : fd ∈ fds := by
      rw [hlist, List.map_cons, hfd] at hmap
      have hin : some fd ∈ fds.map some := hmap ▸ List.mem_cons_self
      simpa using hin
    -- the bytes that all recipients lack are those behind the data buffer
    have hwritten : (dataWritten reading.data.dataParser.state front).take 2048 =
        dataWritten reading.data.dataParser.state front := by
      have hold := h.output (by rw [hst]; decide) fd hmem
      have hsplit := held_append hbody.first
      rw [hacts, hconsumed, ← hold, handed_append, handed_append, handed_received,
        handed_wrote hnodup hmem, List.nil_append, hbody.state, List.append_assoc, List.append_assoc,
        hsplit] at heq
      exact List.append_cancel_right (List.append_cancel_left heq)
    have hlong := hbody.overrun hfits
    have hshort := List.length_take_le 2048 (dataWritten reading.data.dataParser.state front)
    rw [hwritten] at hshort
    omega

/-- Where the message does not end in what is received, the event is handled. -/
theorem mailInfoRead_received {fds : List Nat} {bytes : List UInt8} (hs : reading.Sound .mailInfoRead)
    (hready : reading.registered = true ∧ reading.interest = .read)
    (hmap : reading.data.rcptList.map RcptNode.fileFd = fds.map some)
    (hempty : reading.data.readBuffer.pending = []) (hrecv : env.recv = some bytes) (hne : bytes ≠ [])
    (hlen : bytes.length ≤ 2048) (hopen : dataRun reading.data.dataParser.state bytes ≠ .done) :
    ∃ after, sessionStep reading (.ready .read env) = .ok after := by
  have hhand := atHand_received hs.input hempty hrecv hlen
  rcases readStatus_eq env mailInfoReadProcess hs.input with
    ⟨hnil, -⟩ | ⟨rb, g, received, hrb, hpend, -, -, hread⟩
  · exact absurd (hhand.symm.trans hnil) hne
  have hrb' : (reading.withInput rb g received).data.readBuffer.Sized 2048 := hrb
  have hp : (reading.withInput rb g received).data.readBuffer.pending = bytes := hpend.trans hhand
  obtain ⟨rb', dp, os, hprocess⟩ := mailInfoReadProcess_of_open env hrb' hs.body hmap (by rwa [hp])
  rw [hprocess] at hread
  have hcall : mailInfoRead env reading = _ := hread
  rw [sessionStep, if_pos hready, smtpRead_eq hs.machine]
  simp only [react, SmtpState.onRead, demand_some, ok_bind, hcall, changeState, if_true]
  exact ⟨_, rfl⟩

end Runs

section Script

/-- A read that does not fill the data buffer. -/
def Key.ReadsLittle (key : Key) : Event → Prop
  | .ready .read env => key.data.dataParser.state.held.length + (key.atHand env).length ≤ 2048
  | _ => True

instance (key : Key) : DecidablePred key.ReadsLittle
  | .ready .read _ => inferInstanceAs (Decidable (_ ≤ _))
  | .ready .write _ | .elsewhere .. => isTrue trivial

theorem Key.ReadsLittle.fits {key : Key} {ev : Event} (h : key.ReadsLittle ev) : key.BodyFits ev := by
  intro env f rest he _ hsplit _
  subst he
  have hlen := congrArg List.length hsplit
  rw [List.length_append, List.length_append] at hlen
  have hle : key.data.dataParser.state.held.length + (key.atHand env).length ≤ 2048 := h
  omega

/-- One recipient, up to `DATA`. -/
def oneRcpt : List (List UInt8) :=
  [ascii "EHLO there\r\n", ascii "MAIL FROM:<a@example.com>\r\n", ascii "RCPT TO:<b@smtpd.com>\r\n"]

def dataEvent : Event := .ready .read (readyEnv (ascii "DATA\r\n"))

/-- The answer is sent, and the first bytes of a message are read. -/
def bodyEvents (bytes : List UInt8) : List Event :=
  [.ready .write (readyEnv []), .ready .read (readyEnv bytes)]

theorem oneRcpt_answered : ∃ before start, run sessionStep firstKey (script oneRcpt) = .ok before ∧
    before.AnswersData dataEvent start ∧
    run sessionStep firstKey (script oneRcpt ++ [dataEvent]) = .ok start ∧ start.data.rcptList ≠ [] := by
  have hrcpts : ((run sessionStep firstKey (script oneRcpt ++ [dataEvent])).toOption.any fun key =>
      decide (key.data.rcptList ≠ [])) = true := by
    decide +kernel
  have hasked : ((run sessionStep firstKey (script oneRcpt)).toOption.any fun key =>
      decide (key.state = .dataRead ∧ (key.asked .dataRead dataEvent).map Prod.fst = some .data)) = true := by
    decide +kernel
  obtain ⟨start, hstart, hsome⟩ := ok_of_any hrcpts
  obtain ⟨before, hbefore, hstep⟩ := run_concat_ok.mp hstart
  rw [hbefore] at hasked
  obtain ⟨hst, hdata⟩ := of_decide_eq_true hasked
  exact ⟨before, start, hbefore, ⟨hst, hdata, hstep⟩, hstart, hsome⟩

theorem body_stored_hello :
    ∃ before start reading after, run sessionStep firstKey (script oneRcpt) = .ok before ∧
      before.AnswersData dataEvent start ∧
      run sessionStep start (bodyEvents (ascii "hello\r\n.\r")) = .ok reading ∧
      sessionStep reading (.ready .read (readyEnv (ascii "\n"))) = .ok after ∧
      BodyStored start after ∧ (after.data.dataParser.state = .done ↔ after.state = .mailInfoWrite) := by
  obtain ⟨before, start, hbefore, hanswers, hstart, -⟩ := oneRcpt_answered
  have hchecked : ((run sessionStep firstKey (script oneRcpt ++ [dataEvent])).toOption.any fun key =>
      decide (meetsAll sessionStep (fun key ev => key.Delivers ∧ key.ReadsLittle ev) key
        (bodyEvents (ascii "hello\r\n.\r") ++ [.ready .read (readyEnv (ascii "\n"))]) = true)) = true := by
    decide +kernel
  have hstate : ((run sessionStep firstKey (script oneRcpt ++ [dataEvent] ++
      bodyEvents (ascii "hello\r\n.\r"))).toOption.any fun key => decide (key.state = .mailInfoRead)) = true := by
    decide +kernel
  obtain ⟨after, h⟩ : ∃ after, run sessionStep firstKey (script oneRcpt ++ [dataEvent] ++
      bodyEvents (ascii "hello\r\n.\r") ++ [.ready .read (readyEnv (ascii "\n"))]) = .ok after := by
    apply ok_of_toOption
    decide +kernel
  obtain ⟨reading, hreading, hlast⟩ := run_concat_ok.mp h
  rw [hreading] at hstate
  rw [run_append, hstart] at hreading
  rw [hstart] at hchecked
  have hmeets := Meets.of_check (of_decide_eq_true hchecked)
  exact ⟨before, start, reading, after, hbefore, hanswers, hreading, hlast,
    body_stored accepted_first hbefore hanswers
      (hmeets.concat.1.mono fun _ _ hc => hc.1) (hmeets.mono fun _ _ hc => hc.2.fits) hreading
      (of_decide_eq_true hstate) hlast⟩

/-- Four bytes of the delimiter are held back when a chunk arrives that fills the buffer. -/
def fullChunk : List UInt8 := List.replicate 2048 97

theorem fullChunk_units : DataUnits (DataState.crlfdotcr.held ++ fullChunk) := by
  have hbytes : ∀ n, DataUnits ([CR, LF, DOT, CR, 97] ++ List.replicate n 97) := by
    intro n
    induction n with
    | zero => exact DataUnits.nil.crlfdotcr (by decide)
    | succ n ih =>
      rw [List.replicate_succ', ← List.append_assoc]
      exact ih.byte (by decide)
  exact hbytes 2047

theorem body_stored_full_chunk :
    ∃ before start reading after, run sessionStep firstKey (script oneRcpt) = .ok before ∧
      before.AnswersData dataEvent start ∧
      run sessionStep start (bodyEvents (ascii "\r\n.\r")) = .ok reading ∧
      reading.state = .mailInfoRead ∧
      sessionStep reading (.ready .read (readyEnv fullChunk)) = .ok after ∧ ¬ BodyStored start after := by
  obtain ⟨before, start, hbefore, hanswers, hstart, hsome⟩ := oneRcpt_answered
  have hchecked : ((run sessionStep firstKey (script oneRcpt ++ [dataEvent])).toOption.any fun key =>
      decide (meetsAll sessionStep (fun key ev => key.Delivers ∧ key.ReadsLittle ev) key
        (bodyEvents (ascii "\r\n.\r")) = true)) = true := by
    decide +kernel
  have hstate : ((run sessionStep firstKey (script oneRcpt ++ [dataEvent] ++
      bodyEvents (ascii "\r\n.\r"))).toOption.any fun key =>
        decide (key.state = .mailInfoRead ∧ (key.registered = true ∧ key.interest = .read) ∧
          key.data.dataParser.state = .crlfdotcr ∧ key.data.readBuffer.pending = [])) = true := by
    decide +kernel
  obtain ⟨reading, hreading, hst, hready, hparser, hempty⟩ := ok_of_any hstate
  rw [run_append, hstart] at hreading
  rw [hstart] at hchecked
  have hmeets := Meets.of_check (of_decide_eq_true hchecked)
  obtain ⟨fds, hmap, hnodup, h₀⟩ := hanswers.delivery (accepted_sound accepted_first hbefore)
  obtain ⟨hs, acts, consumed, hd⟩ := delivery_run (accepted_sound accepted_first hstart) h₀ hmap hnodup
    (hmeets.mono fun _ _ hc => hc.1) (hmeets.mono fun _ _ hc => hc.2.fits) hreading hst
  have hlen : fullChunk.length = 2048 := List.length_replicate
  have hopen : dataRun reading.data.dataParser.state fullChunk ≠ .done := by
    have hrun := dataRun_of_units fullChunk_units
    rw [dataRun_append, dataRun_held] at hrun
    rw [hparser, hrun]
    decide
  obtain ⟨after, hlast⟩ := @mailInfoRead_received reading (readyEnv fullChunk) fds fullChunk hs hready
    (hd.rcpts ▸ hmap) hempty rfl (by rw [← List.length_pos_iff, hlen]; decide) hlen.le hopen
  refine ⟨before, start, reading, after, hbefore, hanswers, hreading, hst, hlast,
    hd.overrun hs hmap hnodup hsome hready (fun hfits => ?_) hlast⟩
  have hhand : reading.atHand (readyEnv fullChunk) = fullChunk := atHand_received hs.input hempty rfl hlen.le
  have hle := hfits _ _ [] rfl hst (by rw [hhand, hparser, List.append_nil]) fullChunk_units
  rw [List.length_append, hlen] at hle
  have hheld : DataState.crlfdotcr.held.length = 4 := rfl
  omega

end Script

end Smtpd
