import Smtpd.SessionStep
import Smtpd.BufferQueue
import Smtpd.Lib.Runs

namespace Smtpd

open Checked Runs FileSystem

inductive Ready
  | read | write
deriving DecidableEq, Repr

/-- What happens to a connection: its descriptor gets ready, or the rest of the server, or of
the system, changes what it shares with the connection. -/
inductive Event
  | ready (op : Ready) (env : Env)
  | elsewhere (globals : Globals) (tree : Tree) (fds : List Nat)

/-- The selector calls a handler only for a registered descriptor and an operation that it
is interested in. -/
def sessionStep (key : Key) : Event → Result Key
  | .ready .read env =>
    if key.registered ∧ key.interest = .read then smtpRead env key else .ok key
  | .ready .write env =>
    if key.registered ∧ key.interest = .write then smtpWrite env key else .ok key
  | .elsewhere globals tree fds => .ok { key with globals, os := { key.os with tree, fds } }

def Ready.interest : Ready → Interest
  | .read => .read
  | .write => .write

/-- The connection is waiting for this operation. -/
def Key.Heeds (key : Key) (op : Ready) : Prop := key.registered = true ∧ key.interest = op.interest

instance (key : Key) (op : Ready) : Decidable (key.Heeds op) := inferInstanceAs (Decidable (_ ∧ _))

/-- A connection as `smtp_passive_accept` registers it. -/
def Accepted (key : Key) : Prop :=
  ∃ env outcome program g os g' os', smtpPassiveAccept env outcome program g os = .ok (g', os', some key)

/-- A buffer in use over an array of at least `n` bytes. -/
structure Buffer.Sized (n : Nat) (b : Buffer) : Prop where
  valid : b.Valid
  data : b.data = 0
  limit : b.limit = n

theorem Buffer.Sized.of_same {n : Nat} {b b' : Buffer} (h : b.Sized n) (hv : b'.Valid)
    (hs : b.SameArray b') : b'.Sized n :=
  ⟨hv, hs.data.trans h.data, hs.limit.trans h.limit⟩

theorem Buffer.Sized.room_of_empty {n : Nat} {b : Buffer} (h : b.Sized n) (he : b.pending = []) :
    b.room = n := by
  rw [h.valid.room_of_empty he, h.data, h.limit, Nat.sub_zero]

theorem Buffer.Sized.reset {n : Nat} {b : Buffer} (h : b.Sized n) :
    (bufferReset b).Sized n ∧ (bufferReset b).pending = [] := by
  have hd : b.data ≤ b.limit := by
    rw [h.data]
    exact Nat.zero_le _
  obtain ⟨hv, hempty⟩ := bufferReset_valid hd h.valid.limit_le
  exact ⟨⟨hv, h.data, h.limit⟩, hempty⟩

theorem bufferInit_sized {n : Nat} {raw : List UInt8} (h : n ≤ raw.length) :
    (bufferInit n raw).Sized n :=
  ⟨(bufferInit_valid h).1, rfl, rfl⟩

/-- What holds of a connection in a state whatever its client does. -/
structure Key.Sound (key : Key) (st : SmtpState) : Prop where
  machine : key.At st
  input : key.data.readBuffer.Sized 2048
  body : key.data.dataParser.dataBuffer.Sized 2048

/-- A connection before its first event. -/
structure Key.Fresh (key : Key) (st : SmtpState) : Prop where
  sound : key.Sound st
  state : st = .greetingWrite ∨ st = .failedConnectionWrite
  parser : key.data.requestParser = requestParserInit
  mailfrom : key.data.mailfrom = List.replicate 255 0
  rcptList : key.data.rcptList = []
  trace : key.os.trace = []
  log : key.log = []

theorem stmInit_ok {σ : Type} {states : List (StateDefinition σ)} {stm stm' : StateMachine}
    (h : stmInit states stm = .ok stm') : stm' = { stm with current := none } := by
  obtain ⟨correlative, -, h⟩ := bind_ok h
  split_ifs at h
  exact (Except.ok.inj h).symm

/-- A connection as it is registered for a client. -/
structure Key.Welcomed (key : Key) (client : Nat) (st : SmtpState) (g : Globals) (os : Os) : Prop where
  fresh : key.Fresh st
  initial : key.data.stm.initial = st.index
  fd : key.fd = client
  registered : key.registered = true
  interest : key.interest = .write
  output : key.data.writeBuffer.Sized 2048
  silent : key.data.writeBuffer.pending = []
  unread : key.data.readBuffer.pending = []
  globals : key.globals = g
  os : key.os = { os with trace := [] }

/-- The state in which a connection starts. -/
def Globals.admission (g : Globals) : SmtpState :=
  if g.currentUsers < g.maxUser then .greetingWrite else .failedConnectionWrite

/-- A client is counted, and then it is registered or its descriptor is closed. -/
theorem smtpPassiveAccept_ok {env : Env} {outcome : AcceptOutcome} {program : Option (List UInt8)}
    {g g' : Globals} {os os' : Os} {r : Option Key}
    (h : smtpPassiveAccept env outcome program g os = .ok (g', os', r)) :
    ∃ client, outcome.client = some client ∧
      g' = { g with program, currentUsers := g.currentUsers + 1, historicUsers := g.historicUsers + 1 } ∧
      (outcome.registers = true ∧ os' = { os with fds := client :: os.fds } ∧
          (∃ key, r = some key ∧ key.Welcomed client g.admission g' os') ∨
        outcome.registers = false ∧ os' = { os with fds := client :: os.fds }.close client ∧ r = none) := by
  obtain ⟨client, hclient, h⟩ := bind_ok h
  split at h
  · cases h
  obtain ⟨stm, hstm, h⟩ := bind_ok h
  obtain ⟨currentUsers, hcurrent, h⟩ := bind_ok h
  obtain ⟨historicUsers, hhistoric, h⟩ := bind_ok h
  rw [stmInit_ok hstm, (increment_ok hcurrent).2, (increment_ok hhistoric).2] at h
  have harray : 2048 ≤ (List.replicate 2048 (0 : UInt8)).length := List.length_replicate.ge
  have hsized := bufferInit_sized harray
  have hempty := (bufferInit_valid harray).2
  by_cases hr : outcome.registers = true
  · simp only [hr, if_true] at h
    cases h
    refine ⟨client, demand_ok hclient, rfl, Or.inl ⟨hr, rfl, _, rfl, ?_⟩⟩
    refine ⟨⟨⟨⟨rfl, rfl, fun _ => ?_⟩, hsized, hsized⟩, ?_, rfl, rfl, rfl, rfl, rfl⟩, rfl, rfl, rfl, rfl, hsized, hempty,
      hempty, rfl, rfl⟩
    all_goals
      unfold Globals.admission
      split_ifs
      · exact Or.inl rfl
      · exact Or.inr rfl
  · have hr' : outcome.registers = false := by simpa using hr
    simp only [hr', Bool.false_eq_true, if_false] at h
    cases h
    exact ⟨client, demand_ok hclient, rfl, Or.inr ⟨hr', rfl, rfl⟩⟩

/-- A client that is accepted can be counted. -/
theorem smtpPassiveAccept_counts {env : Env} {outcome : AcceptOutcome} {program : Option (List UInt8)} {g : Globals}
    {os : Os} {r : Globals × Os × Option Key} (h : smtpPassiveAccept env outcome program g os = .ok r) :
    g.CountsClient := by
  obtain ⟨client, -, h⟩ := bind_ok h
  split at h
  · cases h
  obtain ⟨stm, -, h⟩ := bind_ok h
  obtain ⟨currentUsers, hcurrent, h⟩ := bind_ok h
  obtain ⟨historicUsers, hhistoric, -⟩ := bind_ok h
  exact ⟨(increment_ok hcurrent).1, (increment_ok hhistoric).1⟩

theorem accepted_welcomed {key : Key} (h : Accepted key) :
    ∃ client st g os, key.Welcomed client st g os := by
  obtain ⟨env, outcome, program, g, os, g', os', h⟩ := h
  obtain ⟨client, -, -, ⟨-, -, key', hkey, hw⟩ | ⟨-, -, hnone⟩⟩ := smtpPassiveAccept_ok h
  · cases hkey
    exact ⟨client, _, _, _, hw⟩
  · cases hnone

theorem accepted_fresh {key : Key} (h : Accepted key) : ∃ st, key.Fresh st := by
  obtain ⟨client, st, g, os, hw⟩ := accepted_welcomed h
  exact ⟨st, hw.fresh⟩

/-- The bytes that the parsers get when the descriptor is ready to be read: what a call left
in the buffer, or else what there is to receive. -/
def Key.atHand (key : Key) (env : Env) : List UInt8 :=
  if bufferCanRead key.data.readBuffer then key.data.readBuffer.pending
  else (env.recv.getD []).take key.data.readBuffer.room

/-- The command that the client completes by an event, as the server reads it. -/
def Key.asked (key : Key) (st : SmtpState) : Event → Option (RequestCommand × Request)
  | .ready .read env =>
    if key.registered ∧ key.interest = .read ∧ st.readsRequest ∧ key.atHand env ≠ [] then
      match requestParser.feedUntil (key.data.requestParser, false) (key.atHand env) with
      | .ok ((p, _), _) => if p.state = .done then some (p.command, p.request) else none
      | .error _ => none
    else none
  | _ => none

/-- A handled event: the callback of the state, the hooks of the two states, and what the
server does with a connection that is over. -/
structure Handled (ready : SmtpState → Option (Env → Key → Result (SmtpState × Key))) (env : Env)
    (st next : SmtpState) (key key₁ key₂ key' : Key) : Prop where
  registered : key.registered = true
  callback : ∃ f, ready st = some f ∧ f env key = .ok (next, key₁)
  hooks : changeState env st next key₁ = .ok key₂
  settled : settle key.data.stm next key₂ = .ok key'

theorem react_ok {ready : SmtpState → Option (Env → Key → Result (SmtpState × Key))} {env : Env}
    {st : SmtpState} {key key' : Key} (hreg : key.registered = true)
    (h : react ready env st key = .ok key') :
    ∃ next key₁ key₂, Handled ready env st next key key₁ key₂ key' := by
  obtain ⟨f, hf, h⟩ := bind_ok h
  obtain ⟨⟨next, key₁⟩, hcall, h⟩ := bind_ok h
  obtain ⟨key₂, hhooks, h⟩ := bind_ok h
  exact ⟨next, key₁, key₂, hreg, ⟨f, demand_ok hf, hcall⟩, hhooks, h⟩

/-- What an event can be to a connection. -/
theorem sessionStep_cases {key key' : Key} {st : SmtpState} {ev : Event} (hat : key.At st)
    (h : sessionStep key ev = .ok key') :
    (key' = key ∧ key.asked st ev = none ∧ ∃ op env, ev = .ready op env) ∨
    (∃ globals tree fds, ev = .elsewhere globals tree fds ∧
      key' = { key with globals, os := { key.os with tree, fds } }) ∨
    (∃ env next key₁ key₂, ev = .ready .read env ∧ key.interest = .read ∧
      Handled SmtpState.onRead env st next key key₁ key₂ key') ∨
    (∃ env next key₁ key₂, ev = .ready .write env ∧
      Handled SmtpState.onWrite env st next key key₁ key₂ key') := by
  cases ev with
  | elsewhere globals tree fds =>
    cases h
    exact Or.inr (Or.inl ⟨globals, tree, fds, rfl, rfl⟩)
  | ready op env =>
    cases op with
    | read =>
      by_cases hc : key.registered = true ∧ key.interest = .read
      · simp only [sessionStep, if_pos hc, smtpRead_eq hat] at h
        obtain ⟨next, key₁, key₂, hh⟩ := react_ok hc.1 h
        exact Or.inr (Or.inr (Or.inl ⟨env, next, key₁, key₂, rfl, hc.2, hh⟩))
      · simp only [sessionStep, if_neg hc] at h
        cases h
        refine Or.inl ⟨rfl, ?_, .read, env, rfl⟩
        rw [Key.asked, if_neg]
        exact fun hn => hc ⟨hn.1, hn.2.1⟩
    | write =>
      by_cases hc : key.registered = true ∧ key.interest = .write
      · simp only [sessionStep, if_pos hc, smtpWrite_eq hat] at h
        obtain ⟨next, key₁, key₂, hh⟩ := react_ok hc.1 h
        exact Or.inr (Or.inr (Or.inr ⟨env, next, key₁, key₂, rfl, hh⟩))
      · simp only [sessionStep, if_neg hc] at h
        cases h
        exact Or.inl ⟨rfl, rfl, .write, env, rfl⟩

theorem settle_ok {stm : StateMachine} {next : SmtpState} {key key' : Key}
    (h : settle stm next key = .ok key') :
    key'.data = { key.data with stm := { stm with current := some next.index } } ∧ key'.log = key.log ∧
      (next ≠ .error → next ≠ .done →
        key' = { key with data := { key.data with stm := { stm with current := some next.index } } }) := by
  simp only [settle, smtpDone] at h
  split_ifs at h with hend
  · cases h
    exact ⟨rfl, rfl, fun he hd => absurd hend (by simp [he, hd])⟩
  · cases h
    exact ⟨rfl, rfl, fun _ _ => rfl⟩

/-- The descriptor of a connection that is lost is closed. -/
theorem settle_lost {stm : StateMachine} {key key' : Key} (hreg : key.registered = true)
    (h : settle stm .error key = .ok key') : key'.os.trace = key.os.trace ++ [.closed key.fd] := by
  simp only [settle, smtpDone, true_or, if_true, hreg] at h
  cases h
  rfl

theorem settle_state {stm : StateMachine} {next : SmtpState} {key key' : Key}
    (h : settle stm next key = .ok key') : key'.state = next := by
  obtain ⟨hdata, -, -⟩ := settle_ok h
  rw [Key.state, hdata]
  cases next <;> rfl

/-- Between states without hooks nothing else happens. -/
theorem changeState_plain {env : Env} {st next : SmtpState} (hd : st.departure env = none)
    (ha : next.arrival = none) (key : Key) : changeState env st next key = .ok key := by
  simp [changeState, hd, ha, runHook]

section Script

/-- The descriptor is ready, everything succeeds, and this is there to be read. -/
def readyEnv (input : List UInt8) : Env :=
  { recv := some input, send := some 2048, uuid := fun k => ascii "id" ++ List.replicate k 48,
    time := ascii "Mon Jan 01 00:00:00 2024", memory := true, refuses := fun _ => false }

/-- A line of the client, which is read and then answered. -/
def lineEvents (line : List UInt8) : List Event :=
  [.ready .read (readyEnv line), .ready .write (readyEnv [])]

/-- A client that lets itself be greeted and then sends one line after the other. -/
def script (lines : List (List UInt8)) : List Event :=
  .ready .write (readyEnv []) :: lines.flatMap lineEvents

def firstOutcome : AcceptOutcome := { client := some 5, nio := true, memory := true, registers := true }

def firstOs : Os := { tree := { dirs := [], files := [] }, fds := [0, 1, 2, 3, 4], trace := [] }

/-- The first connection to a server that has just been started. -/
def firstKey : Key :=
  let state := blankSmtp SmtpState.greetingWrite.index false
  let array := bufferInit 2048 (List.replicate 2048 0)
  { fd := 5
    registered := true
    interest := .write
    data := { state with readBuffer := array, writeBuffer := array, dataParser := dataParserInit state.dataParser }
    globals := { initialGlobals with currentUsers := 1, historicUsers := 1 }
    os := { firstOs with fds := 5 :: firstOs.fds }
    log := [] }

theorem accepted_first : Accepted firstKey := by
  refine ⟨readyEnv [], firstOutcome, none, initialGlobals, firstOs, firstKey.globals, firstKey.os, ?_⟩
  decide +kernel

/-- Two recipients of one sender, a message and its end. -/
def twoRcpts : List (List UInt8) :=
  [ascii "EHLO there\r\n", ascii "MAIL FROM:<a@example.com>\r\n", ascii "RCPT TO:<b@smtpd.com>\r\n",
    ascii "RCPT TO:<c@smtpd.com>\r\n", ascii "DATA\r\n", ascii "hello\r\n.\r\n"]

end Script

end Smtpd
