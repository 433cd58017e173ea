import Smtpd.Session

namespace Smtpd

open Checked

/-- The states that read a command. -/
def SmtpState.readsRequest : SmtpState → Bool
  | .failedConnectionRead | .ehloRead | .mailFromRead | .rcptToRead | .dataRead => true
  | _ => false

/-- The recipients of a connection in this state have files. -/
def SmtpState.HasFiles (st : SmtpState) (command : RequestCommand) : Prop :=
  st = .mailInfoRead ∨ st = .mailInfoWrite ∨ st = .dataWrite ∧ command = .data

def SmtpState.onRead : SmtpState → Option (Env → Key → Result (SmtpState × Key))
  | .failedConnectionRead => some Smtpd.failedConnectionRead
  | .ehloRead => some Smtpd.ehloRead
  | .mailFromRead => some Smtpd.mailFromRead
  | .rcptToRead => some Smtpd.rcptToRead
  | .dataRead => some Smtpd.dataRead
  | .mailInfoRead => some Smtpd.mailInfoRead
  | _ => none

def SmtpState.onWrite : SmtpState → Option (Env → Key → Result (SmtpState × Key))
  | .greetingWrite => some Smtpd.greetingWrite
  | .failedConnectionWrite => some Smtpd.failedConnectionWrite
  | .ehloWrite => some Smtpd.ehloWrite
  | .mailFromWrite => some Smtpd.mailFromWrite
  | .rcptToWrite => some Smtpd.rcptToWrite
  | .dataWrite => some Smtpd.dataWrite
  | .mailInfoWrite => some Smtpd.mailInfoWrite
  | _ => none

def SmtpState.arrival (st : SmtpState) : Option (Nat → Key → Result Key) :=
  if st.readsRequest then some requestReadInit else none

def SmtpState.departure (env : Env) : SmtpState → Option (Nat → Key → Result Key)
  | .dataWrite => some dataBufferInit
  | .mailInfoWrite => some (mailInfoReadClose env)
  | _ => none

/-- The message is counted, its files are closed and moved, and its recipients are forgotten. -/
theorem departure_mailInfoWrite {env : Env} {key key' : Key}
    (h : runHook (SmtpState.mailInfoWrite.departure env) SmtpState.mailInfoWrite.index key = .ok key') :
    ∃ os, key.globals.mailsSent < INT_MAX ∧ closeFds env key.os key.data.rcptList = .ok os ∧ key' = { key with
      globals := { key.globals with mailsSent := key.globals.mailsSent + 1 }
      os
      data := { key.data with rcptList := [] } } := by
  obtain ⟨mailsSent, hcounted, h⟩ := bind_ok h
  obtain ⟨os, hclosed, h⟩ := bind_ok h
  obtain ⟨hroom, rfl⟩ := increment_ok hcounted
  cases h
  exact ⟨os, hroom, hclosed, rfl⟩

theorem SmtpState.index_injective {st st' : SmtpState} (h : st.index = st'.index) : st = st' := by
  cases st <;> cases st' <;> first | rfl | cases h

theorem SmtpState.index_le (st : SmtpState) : st.index ≤ SmtpState.error.index := by
  cases st <;> decide

/-- The states in the order of their numbers. -/
def SmtpState.all : List SmtpState :=
  [.greetingWrite, .failedConnectionRead, .failedConnectionWrite, .ehloRead, .ehloWrite,
    .mailFromRead, .mailFromWrite, .rcptToRead, .rcptToWrite, .dataRead, .dataWrite, .mailInfoRead,
    .mailInfoWrite, .done, .error]

/-- The state of the machine of a connection. -/
def Key.state (key : Key) : SmtpState := (SmtpState.all[stmState key.data.stm]?).getD .error

/-- The row of the table for a state. -/
theorem clientStatbl_row (env : Env) (st : SmtpState) :
    (clientStatbl env)[st.index]? = some {
      state := st.index
      onArrival := st.arrival
      onDeparture := st.departure env
      onReadReady := st.onRead.map (callback · env)
      onWriteReady := st.onWrite.map (callback · env) } := by
  cases st <;> rfl

/-- The hooks between two states. -/
def changeState (env : Env) (st next : SmtpState) (key : Key) : Result Key :=
  if next = st then .ok key
  else do
    let key ← runHook (st.departure env) st.index key
    runHook next.arrival next.index key

/-- The machine is in its next state, and a connection that is over leaves the selector. -/
def settle (stm : StateMachine) (next : SmtpState) (key : Key) : Result Key :=
  let key := { key with data := { key.data with stm := { stm with current := some next.index } } }
  if next = .error ∨ next = .done then smtpDone key else .ok key

/-- What an event does to a connection in a state. -/
def react (ready : SmtpState → Option (Env → Key → Result (SmtpState × Key))) (env : Env)
    (st : SmtpState) (key : Key) : Result Key := do
  let f ← demand (.abort .stm) (ready st)
  let (next, key₁) ← f env key
  let key₂ ← changeState env st next key₁
  settle key.data.stm next key₂

/-- The machine of a connection stands in a state, and where it has not started yet it is in
one of the two greetings. -/
structure Key.At (key : Key) (st : SmtpState) : Prop where
  state : stmState key.data.stm = st.index
  maxState : key.data.stm.maxState = SmtpState.error.index
  first : key.data.stm.current = none → st = .greetingWrite ∨ st = .failedConnectionWrite

theorem Key.At.state_eq {key : Key} {st : SmtpState} (h : key.At st) : key.state = st := by
  rw [Key.state, h.state]
  cases st <;> rfl

theorem jump_eq {σ : Type} {states : List (StateDefinition σ)} {stm : StateMachine} {i next : Nat}
    {d d' : StateDefinition σ} (hi : states[i]? = some d) (hn : states[next]? = some d')
    (hmax : next ≤ stm.maxState) (key : σ) :
    jump states { stm with current := some i } next key =
      (if next = i then .ok key
        else runHook d.onDeparture d.state key >>= fun key => runHook d'.onArrival d'.state key) >>=
      fun key => .ok ({ stm with current := some next }, key) := by
  unfold jump
  rw [if_neg (by simpa using hmax)]
  by_cases h : next = i
  · simp [h]
  · simp only [h, Option.some.injEq, Ne.symm h, if_false, departCurrent, StateDefinition.at, hi, hn,
      demand_some, ok_bind, bind_assoc]

theorem handleFirst_eq {σ : Type} {states : List (StateDefinition σ)} {stm : StateMachine}
    {d : StateDefinition σ} (hd : states[stmState stm]? = some d)
    (hfirst : stm.current = none → d.onArrival = none) (key : σ) :
    handleFirst states stm key = .ok ({ stm with current := some (stmState stm) }, key) := by
  obtain ⟨initial, maxState, current⟩ := stm
  cases current with
  | some i => rfl
  | none =>
    have hrow : states[initial]? = some d := hd
    simp [handleFirst, StateDefinition.at, hrow, runHook, hfirst rfl, stmState]

/-- The end of `smtp_read` and of `smtp_write`. -/
def finishHandler (r : Nat × StateMachine × Key) : Result Key :=
  let key := { r.2.2 with data := { r.2.2.data with stm := r.2.1 } }
  if r.1 = SmtpState.error.index ∨ r.1 = SmtpState.done.index then smtpDone key else .ok key

theorem finishHandler_eq (stm : StateMachine) (next : SmtpState) (key : Key) :
    finishHandler (next.index, { stm with current := some next.index }, key) = settle stm next key := by
  have hend : (next.index = SmtpState.error.index ∨ next.index = SmtpState.done.index) ↔
      (next = .error ∨ next = .done) :=
    or_congr ⟨SmtpState.index_injective, fun h => h ▸ rfl⟩ ⟨SmtpState.index_injective, fun h => h ▸ rfl⟩
  simp only [finishHandler, settle, hend]

/-- The machine of `stm.c`, run over the table of the server, does what `react` says. -/
theorem stmHandler_eq {ready : SmtpState → Option (Env → Key → Result (SmtpState × Key))}
    {field : StateDefinition Key → Option (Key → Result (Nat × Key))} {env : Env} {key : Key}
    {st : SmtpState} (hat : key.At st)
    (hfield : ∀ d, (clientStatbl env)[st.index]? = some d → field d = (ready st).map (callback · env)) :
    stmHandler field (clientStatbl env) key.data.stm key >>= finishHandler = react ready env st key := by
  obtain ⟨d, hd, hds, hda, hdd⟩ : ∃ d, (clientStatbl env)[st.index]? = some d ∧ d.state = st.index ∧
      d.onArrival = st.arrival ∧ d.onDeparture = st.departure env :=
    ⟨_, clientStatbl_row env st, rfl, rfl, rfl⟩
  have hf := hfield d hd
  have hfirst : key.data.stm.current = none → d.onArrival = none := by
    intro hn
    rw [hda]
    rcases hat.first hn with rfl | rfl <;> rfl
  have hd' : (clientStatbl env)[stmState key.data.stm]? = some d := by rw [hat.state, hd]
  unfold stmHandler react
  rw [handleFirst_eq hd' hfirst]
  simp only [ok_bind, demand_some, StateDefinition.at, hd', hf]
  cases hr : ready st with
  | none => rfl
  | some f =>
    simp only [Option.map_some, demand_some, ok_bind, callback]
    cases hfk : f env key with
    | error e => rfl
    | ok r =>
      obtain ⟨next, key₁⟩ := r
      obtain ⟨d', hn, hns, hna⟩ : ∃ d', (clientStatbl env)[next.index]? = some d' ∧
          d'.state = next.index ∧ d'.onArrival = next.arrival :=
        ⟨_, clientStatbl_row env next, rfl, rfl⟩
      have hmax : next.index ≤ key.data.stm.maxState := by
        rw [hat.maxState]
        exact next.index_le
      simp only [ok_bind]
      rw [jump_eq hd' hn hmax, hds, hdd, hns, hna, hat.state]
      have hsame : next.index = st.index ↔ next = st :=
        ⟨SmtpState.index_injective, fun h => h ▸ rfl⟩
      simp only [hsame, changeState, bind_assoc, ok_bind, finishHandler_eq]

theorem smtpRead_eq {env : Env} {key : Key} {st : SmtpState} (hat : key.At st) :
    smtpRead env key = react SmtpState.onRead env st key := by
  refine stmHandler_eq hat fun d hd => ?_
  cases hd.symm.trans (clientStatbl_row env st)
  rfl

theorem smtpWrite_eq {env : Env} {key : Key} {st : SmtpState} (hat : key.At st) :
    smtpWrite env key = react SmtpState.onWrite env st key := by
  refine stmHandler_eq hat fun d hd => ?_
  cases hd.symm.trans (clientStatbl_row env st)
  rfl

end Smtpd
