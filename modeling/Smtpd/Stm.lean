import Smtpd.Buffer
import Mathlib.Tactic.SplitIfs

namespace Smtpd

open Checked

variable {σ : Type}

/-- `struct state_definition`, over what the handlers get through their key. -/
structure StateDefinition (σ : Type) where
  state : Nat
  onArrival : Option (Nat → σ → Result σ) := none
  onDeparture : Option (Nat → σ → Result σ) := none
  onReadReady : Option (σ → Result (Nat × σ)) := none
  onWriteReady : Option (σ → Result (Nat × σ)) := none
  onBlockReady : Option (σ → Result (Nat × σ)) := none

/-- `struct state_machine` without the pointer to its table. `current` is an index of the table. -/
structure StateMachine where
  initial : Nat
  maxState : Nat
  current : Option Nat
deriving DecidableEq, Repr

def StateDefinition.at (states : List (StateDefinition σ)) (i : Nat) : Result (StateDefinition σ) :=
  demand .undefined states[i]?

def runHook (hook : Option (Nat → σ → Result σ)) (state : Nat) (key : σ) : Result σ :=
  match hook with
  | some f => f state key
  | none => .ok key

/-- The states have to be correlative. -/
def stmInit (states : List (StateDefinition σ)) (stm : StateMachine) : Result StateMachine := do
  let correlative ← (List.range (stm.maxState + 1)).mapM fun i => do
    let d ← StateDefinition.at states i
    .ok (decide (i = d.state))
  if correlative.all id then
    if stm.initial < stm.maxState then .ok { stm with current := none } else .error (.abort .stm)
  else .error (.abort .stm)

def handleFirst (states : List (StateDefinition σ)) (stm : StateMachine) (key : σ) :
    Result (StateMachine × σ) :=
  match stm.current with
  | some _ => .ok (stm, key)
  | none => do
    let d ← StateDefinition.at states stm.initial
    let key ← runHook d.onArrival d.state key
    .ok ({ stm with current := some stm.initial }, key)

def departCurrent (states : List (StateDefinition σ)) (stm : StateMachine) (key : σ) : Result σ :=
  match stm.current with
  | some i => do
    let d ← StateDefinition.at states i
    runHook d.onDeparture d.state key
  | none => .ok key

def jump (states : List (StateDefinition σ)) (stm : StateMachine) (next : Nat) (key : σ) :
    Result (StateMachine × σ) :=
  if next > stm.maxState then .error (.abort .stm)
  else if stm.current = some next then .ok (stm, key)
  else do
    let key ← departCurrent states stm key
    let d ← StateDefinition.at states next
    let key ← runHook d.onArrival d.state key
    .ok ({ stm with current := some next }, key)

/-- The three handlers differ in the callback they take from the current state. -/
def stmHandler (ready : StateDefinition σ → Option (σ → Result (Nat × σ)))
    (states : List (StateDefinition σ)) (stm : StateMachine) (key : σ) :
    Result (Nat × StateMachine × σ) := do
  let (stm, key) ← handleFirst states stm key
  let current ← demand .undefined stm.current
  let d ← StateDefinition.at states current
  let handler ← demand (.abort .stm) (ready d)
  let (ret, key) ← handler key
  let (stm, key) ← jump states stm ret key
  .ok (ret, stm, key)

def stmHandlerRead (states : List (StateDefinition σ)) (stm : StateMachine) (key : σ) :
    Result (Nat × StateMachine × σ) :=
  stmHandler StateDefinition.onReadReady states stm key

def stmHandlerWrite (states : List (StateDefinition σ)) (stm : StateMachine) (key : σ) :
    Result (Nat × StateMachine × σ) :=
  stmHandler StateDefinition.onWriteReady states stm key

def stmHandlerBlock (states : List (StateDefinition σ)) (stm : StateMachine) (key : σ) :
    Result (Nat × StateMachine × σ) :=
  stmHandler StateDefinition.onBlockReady states stm key

def stmState (stm : StateMachine) : Nat := stm.current.getD stm.initial

end Smtpd
