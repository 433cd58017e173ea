import Smtpd.Stm
import Smtpd.Lib.Runs
import Mathlib.Data.List.Chain

namespace Smtpd

open Checked Runs

variable {σ : Type}

/-- What the selector wakes the machine for. -/
inductive StmEvent
  | read | write | block
deriving DecidableEq, Repr

def stmHandle (states : List (StateDefinition σ)) : StmEvent → StateMachine → σ → Result (Nat × StateMachine × σ)
  | .read => stmHandlerRead states
  | .write => stmHandlerWrite states
  | .block => stmHandlerBlock states

def StateDefinition.onReady (d : StateDefinition σ) : StmEvent → Option (σ → Result (Nat × σ))
  | .read => d.onReadReady
  | .write => d.onWriteReady
  | .block => d.onBlockReady

theorem stmHandle_eq (states : List (StateDefinition σ)) (ev : StmEvent) :
    stmHandle states ev = stmHandler (·.onReady ev) states := by
  cases ev <;> rfl

/-- A callback that was called; for a handler, with the state that it asked for. -/
inductive StmCall
  | arrival (state : Nat)
  | departure (state : Nat)
  | handler (ev : StmEvent) (state ret : Nat)
deriving DecidableEq, Repr

/-- An entry of the table, whose callbacks do what they like to what they get, and return. -/
structure Callbacks (σ : Type) where
  state : Nat
  onArrival : Option (Nat → σ → σ) := none
  onDeparture : Option (Nat → σ → σ) := none
  onReadReady : Option (σ → Nat × σ) := none
  onWriteReady : Option (σ → Nat × σ) := none
  onBlockReady : Option (σ → Nat × σ) := none

def Callbacks.onReady (d : Callbacks σ) : StmEvent → Option (σ → Nat × σ)
  | .read => d.onReadReady
  | .write => d.onWriteReady
  | .block => d.onBlockReady

/-- A hook that leaves a note when it is called. -/
def notedHook (note : Nat → StmCall) (f : Nat → σ → σ) : Nat → σ × List StmCall → Result (σ × List StmCall) :=
  fun state key => .ok (f state key.1, key.2 ++ [note state])

def notedHandler (ev : StmEvent) (state : Nat) (f : σ → Nat × σ) : σ × List StmCall → Result (Nat × σ × List StmCall) :=
  fun key => .ok ((f key.1).1, (f key.1).2, key.2 ++ [.handler ev state (f key.1).1])

/-- The entry as the machine gets it, with callbacks that leave notes. -/
def Callbacks.definition (d : Callbacks σ) : StateDefinition (σ × List StmCall) :=
  { state := d.state
    onArrival := d.onArrival.map (notedHook .arrival)
    onDeparture := d.onDeparture.map (notedHook .departure)
    onReadReady := d.onReadReady.map (notedHandler .read d.state)
    onWriteReady := d.onWriteReady.map (notedHandler .write d.state)
    onBlockReady := d.onBlockReady.map (notedHandler .block d.state) }

section Protocol

variable (T : List (Callbacks σ))

/-- The states up to the highest one are in their places. -/
def Correlative (maxState : Nat) : Prop := ∀ i ≤ maxState, ∃ d, T[i]? = some d ∧ d.state = i

/-- The notes of an arrival at a state, which may have no hook for it. -/
def arrives (s : Nat) : List StmCall := if ((T[s]?).bind Callbacks.onArrival).isSome then [.arrival s] else []

def departs (s : Nat) : List StmCall := if ((T[s]?).bind Callbacks.onDeparture).isSome then [.departure s] else []

/-- The callbacks of some events, each with the state that its handler asked for. -/
def protocol (current : Nat) : List (StmEvent × Nat) → List StmCall
  | [] => []
  | (ev, ret) :: history =>
    .handler ev current ret :: (if ret = current then [] else departs T current ++ arrives T ret) ++ protocol ret history

/-- The notes of a machine that is in one state after another. -/
def stays : List Nat → List StmCall
  | [] => []
  | [s] => arrives T s
  | s :: s' :: path => arrives T s ++ departs T s ++ stays (s' :: path)

end Protocol

def StmCall.isHook : StmCall → Bool
  | .handler _ _ _ => false
  | _ => true

/-- The state that was asked for last. -/
def lastAsked (initial : Nat) (history : List (StmEvent × Nat)) : Nat := (history.map Prod.snd).getLastD initial

section Notes

variable {T : List (Callbacks σ)} {current : Nat} {history more : List (StmEvent × Nat)}

theorem lastAsked_cons (ev : StmEvent) (ret : Nat) : lastAsked current ((ev, ret) :: history) = lastAsked ret history := by
  cases history <;> rfl

theorem lastAsked_concat (ev : StmEvent) (ret : Nat) : lastAsked current (history ++ [(ev, ret)]) = ret := by
  rw [lastAsked, List.map_append]
  exact List.getLastD_concat

theorem protocol_append : protocol T current (history ++ more) =
    protocol T current history ++ protocol T (lastAsked current history) more := by
  induction history generalizing current with
  | nil => rfl
  | cons e history ih =>
    obtain ⟨ev, ret⟩ := e
    rw [lastAsked_cons, List.cons_append, protocol, protocol, ih, List.append_assoc]

theorem filter_arrives (s : Nat) : (arrives T s).filter StmCall.isHook = arrives T s := by
  unfold arrives
  split_ifs <;> rfl

theorem filter_departs (s : Nat) : (departs T s).filter StmCall.isHook = departs T s := by
  unfold departs
  split_ifs <;> rfl

/-- Every state is left before the next one is entered. -/
theorem protocol_stays (T : List (Callbacks σ)) (current : Nat) (history : List (StmEvent × Nat)) :
    ∃ path, (current :: path).IsChain (· ≠ ·) ∧ (current :: path).getLast? = some (lastAsked current history) ∧
      arrives T current ++ (protocol T current history).filter StmCall.isHook = stays T (current :: path) := by
  induction history generalizing current with
  | nil => exact ⟨[], List.isChain_singleton current, rfl, List.append_nil _⟩
  | cons e history ih =>
    obtain ⟨ev, ret⟩ := e
    rw [lastAsked_cons, protocol]
    by_cases hsame : ret = current
    · subst hsame
      obtain ⟨path, hchain, hlast, hnotes⟩ := ih ret
      refine ⟨path, hchain, hlast, ?_⟩
      rw [if_pos rfl]
      exact hnotes
    · obtain ⟨path, hchain, hlast, hnotes⟩ := ih ret
      refine ⟨ret :: path, List.isChain_cons_cons.mpr ⟨Ne.symm hsame, hchain⟩, ?_, ?_⟩
      · rw [List.getLast?_cons_cons]
        exact hlast
      · rw [if_neg hsame, stays, ← hnotes]
        have hhandler : ∀ notes, (StmCall.handler ev current ret :: notes).filter StmCall.isHook =
            notes.filter StmCall.isHook := fun _ => rfl
        rw [List.cons_append, hhandler, List.filter_append, List.filter_append, filter_departs, filter_arrives]
        simp only [List.append_assoc]

end Notes

section Machine

variable {T : List (Callbacks σ)} {stm : StateMachine} {key : σ} {notes : List StmCall} {d : Callbacks σ} {s next : Nat}

/-- What the arrival at a state makes of the key. -/
def Callbacks.arrive (d : Callbacks σ) (key : σ) : σ :=
  match d.onArrival with
  | some f => f d.state key
  | none => key

def Callbacks.depart (d : Callbacks σ) (key : σ) : σ :=
  match d.onDeparture with
  | some f => f d.state key
  | none => key

/-- The key as the handler of an event gets it. -/
def entered (T : List (Callbacks σ)) (stm : StateMachine) (key : σ) : σ :=
  match stm.current with
  | some _ => key
  | none => ((T[stm.initial]?).map (·.arrive key)).getD key

/-- The current state has a handler for the event, which asks for a state of the table. -/
def Serves (T : List (Callbacks σ)) (stm : StateMachine) (key : σ) (ev : StmEvent) : Prop :=
  ((T[stmState stm]?).bind (·.onReady ev)).any (fun f => decide ((f (entered T stm key)).1 ≤ stm.maxState)) = true

instance (T : List (Callbacks σ)) (stm : StateMachine) (key : σ) (ev : StmEvent) : Decidable (Serves T stm key ev) :=
  inferInstanceAs (Decidable (_ = _))

theorem Serves.handler {ev : StmEvent} (h : Serves T stm key ev) :
    ∃ d f, T[stmState stm]? = some d ∧ d.onReady ev = some f ∧ (f (entered T stm key)).1 ≤ stm.maxState := by
  obtain ⟨f, hf, hle⟩ := (Option.any_eq_true _ _).mp h
  obtain ⟨d, hd, hready⟩ := Option.bind_eq_some_iff.mp hf
  exact ⟨d, f, hd, hready, of_decide_eq_true hle⟩

theorem definition_at (h : T[s]? = some d) : StateDefinition.at (T.map Callbacks.definition) s = .ok d.definition := by
  rw [StateDefinition.at, List.getElem?_map, h]
  rfl

theorem arrive_noted (h : T[s]? = some d) (hs : d.state = s) :
    runHook d.definition.onArrival d.definition.state (key, notes) = .ok (d.arrive key, notes ++ arrives T s) := by
  rw [arrives, h]
  unfold Callbacks.arrive
  cases hf : d.onArrival with
  | none => simp [runHook, Callbacks.definition, hf]
  | some f => simp [runHook, Callbacks.definition, hf, notedHook, hs]

theorem depart_noted (h : T[s]? = some d) (hs : d.state = s) :
    runHook d.definition.onDeparture d.definition.state (key, notes) = .ok (d.depart key, notes ++ departs T s) := by
  rw [departs, h]
  unfold Callbacks.depart
  cases hf : d.onDeparture with
  | none => simp [runHook, Callbacks.definition, hf]
  | some f => simp [runHook, Callbacks.definition, hf, notedHook, hs]

/-- The first event finds no current state, and enters the initial one. -/
theorem handleFirst_noted (hT : Correlative T stm.maxState) (hinitial : stm.initial ≤ stm.maxState) :
    handleFirst (T.map Callbacks.definition) stm (key, notes) =
      .ok ({ stm with current := some (stmState stm) },
        entered T stm key, notes ++ if stm.current = none then arrives T stm.initial else []) := by
  obtain ⟨initial, maxState, current⟩ := stm
  cases current with
  | some s => simp [handleFirst, entered, stmState]
  | none =>
    obtain ⟨d, hd, hs⟩ := hT initial hinitial
    simp [handleFirst, entered, stmState, definition_at hd, arrive_noted hd hs, hd]

/-- The hooks are called exactly if the state changes. -/
theorem jump_noted (hT : Correlative T stm.maxState) (hc : stm.current = some s) (hs : s ≤ stm.maxState)
    (hnext : next ≤ stm.maxState) :
    ∃ key', jump (T.map Callbacks.definition) stm next (key, notes) =
      .ok ({ stm with current := some next },
        key', notes ++ if next = s then [] else departs T s ++ arrives T next) := by
  obtain ⟨d, hd, hds⟩ := hT s hs
  obtain ⟨d', hd', hds'⟩ := hT next hnext
  by_cases hsame : next = s
  · subst hsame
    have hstay : jump (T.map Callbacks.definition) stm next (key, notes) = .ok (stm, key, notes) := by
      simp [jump, hc, hnext]
    refine ⟨key, ?_⟩
    rw [hstay, if_pos rfl, List.append_nil, ← hc]
  · refine ⟨d'.arrive (d.depart key), ?_⟩
    have hne : ¬ some s = some next := fun he => hsame (Option.some.inj he).symm
    have hle : ¬ next > stm.maxState := by omega
    have hleave : departCurrent (T.map Callbacks.definition) stm (key, notes) =
        .ok (d.depart key, notes ++ departs T s) := by
      simp [departCurrent, hc, definition_at hd, depart_noted hd hds]
    rw [jump, if_neg hle, hc, if_neg hne, hleave, ok_bind, definition_at hd', ok_bind, arrive_noted hd' hds',
      if_neg hsame, List.append_assoc]
    rfl

theorem definition_onReady (d : Callbacks σ) (ev : StmEvent) :
    d.definition.onReady ev = (d.onReady ev).map (notedHandler ev d.state) := by
  cases ev <;> rfl

/-- An event is handled by the current state, and the machine goes where the handler asks it to go. -/
theorem stmHandle_noted {ev : StmEvent} (hT : Correlative T stm.maxState) (hinitial : stm.initial ≤ stm.maxState)
    (hcurrent : stmState stm ≤ stm.maxState) (h : Serves T stm key ev) :
    ∃ ret key', stmHandle (T.map Callbacks.definition) ev stm (key, notes) =
        .ok (ret, { stm with current := some ret }, key', (notes ++ if stm.current = none then arrives T stm.initial else []) ++
          protocol T (stmState stm) [(ev, ret)]) ∧ ret ≤ stm.maxState := by
  obtain ⟨d, f, hd, hf, hret⟩ := h.handler
  obtain ⟨d', hd', hs⟩ := hT (stmState stm) hcurrent
  obtain rfl : d = d' := Option.some.inj (hd.symm.trans hd')
  have hready : d.definition.onReady ev = some (notedHandler ev (stmState stm) f) := by
    rw [definition_onReady, hf, hs]
    rfl
  obtain ⟨key', hjump⟩ := @jump_noted σ T { stm with current := some (stmState stm) } (f (entered T stm key)).2
    ((notes ++ if stm.current = none then arrives T stm.initial else []) ++
      [.handler ev (stmState stm) (f (entered T stm key)).1]) (stmState stm) (f (entered T stm key)).1 hT rfl hcurrent hret
  refine ⟨(f (entered T stm key)).1, key', ?_, hret⟩
  rw [stmHandle_eq, stmHandler, handleFirst_noted hT hinitial]
  simp only [ok_bind, demand_some, definition_at hd, hready, notedHandler, hjump]
  simp [protocol]

/-- `stm_init` takes a table whose states are in their places, and starts before any of them. -/
theorem stmInit_correlative (hT : Correlative T stm.maxState) (hinitial : stm.initial < stm.maxState) :
    stmInit (T.map Callbacks.definition) stm = .ok { stm with current := none } := by
  have hcheck : (List.range (stm.maxState + 1)).mapM (fun i => do
      let d ← StateDefinition.at (T.map Callbacks.definition) i
      .ok (decide (i = d.state))) = (.ok ((List.range (stm.maxState + 1)).map fun _ => true) : Result (List Bool)) := by
    refine mapM_ok fun i hi => ?_
    obtain ⟨d, hd, hs⟩ := hT i (by have := List.mem_range.mp hi; omega)
    rw [definition_at hd, ok_bind]
    simp [Callbacks.definition, hs]
  rw [stmInit, hcheck, ok_bind, if_pos (by simp), if_pos hinitial]

end Machine

/-- The events of a machine, one after the other. -/
def stmStep (states : List (StateDefinition σ)) (s : StateMachine × σ) (ev : StmEvent) : Result (StateMachine × σ) := do
  let (_, stm, key) ← stmHandle states ev s.1 s.2
  .ok (stm, key)

/-- The notes of all events: the initial state is entered before the first of them is handled. -/
def stmTrace (T : List (Callbacks σ)) (initial : Nat) : List (StmEvent × Nat) → List StmCall
  | [] => []
  | history => arrives T initial ++ protocol T initial history

section Runs

variable {T : List (Callbacks σ)} {stm : StateMachine} {key : σ} {es : List StmEvent}

/-- A machine after some events. -/
structure AfterEvents (T : List (Callbacks σ)) (stm₀ : StateMachine) (history : List (StmEvent × Nat))
    (stm : StateMachine) (notes : List StmCall) : Prop where
  initial : stm.initial = stm₀.initial
  maxState : stm.maxState = stm₀.maxState
  current : stm.current = if history = [] then none else some (lastAsked stm₀.initial history)
  notes : notes = stmTrace T stm₀.initial history
  bound : lastAsked stm₀.initial history ≤ stm₀.maxState

theorem AfterEvents.state {stm₀ : StateMachine} {history : List (StmEvent × Nat)} {notes : List StmCall}
    (h : AfterEvents T stm₀ history stm notes) : stmState stm = lastAsked stm₀.initial history := by
  rw [stmState, h.current, h.initial]
  split_ifs with hnil
  · rw [hnil]
    rfl
  · rfl

theorem stmStep_follows {stm₀ : StateMachine} {history : List (StmEvent × Nat)} {notes : List StmCall} {ev : StmEvent}
    (hT : Correlative T stm₀.maxState) (hinitial : stm₀.initial < stm₀.maxState)
    (h : AfterEvents T stm₀ history stm notes) (hserves : Serves T stm key ev) :
    ∃ ret stm' key' notes', stmStep (T.map Callbacks.definition) (stm, key, notes) ev = .ok (stm', key', notes') ∧
      AfterEvents T stm₀ (history ++ [(ev, ret)]) stm' notes' := by
  have hmax : Correlative T stm.maxState := by
    rw [h.maxState]
    exact hT
  have hstart : stm.initial ≤ stm.maxState := by
    rw [h.initial, h.maxState]
    omega
  have hcurrent : stmState stm ≤ stm.maxState := by
    rw [h.state, h.maxState]
    exact h.bound
  obtain ⟨ret, key', hhandle, hret⟩ := @stmHandle_noted σ T stm key notes ev hmax hstart hcurrent hserves
  refine ⟨ret, _, key', _, by rw [stmStep, hhandle]; rfl, ?_⟩
  constructor
  · exact h.initial
  · exact h.maxState
  · rw [lastAsked_concat, if_neg (by simp)]
  · rw [h.state, h.notes, h.current, h.initial]
    cases history with
    | nil => rfl
    | cons e history =>
      have hcons : e :: history ≠ [] := List.cons_ne_nil e history
      rw [if_neg hcons, if_neg (by simp), List.append_nil]
      show (arrives T stm₀.initial ++ protocol T stm₀.initial (e :: history)) ++ _ =
        arrives T stm₀.initial ++ protocol T stm₀.initial ((e :: history) ++ [(ev, ret)])
      rw [protocol_append, List.append_assoc]
  · rw [lastAsked_concat, ← h.maxState]
    exact hret

/-- For every table, and all events that its states serve: the callbacks called are those of the protocol,
every state that is entered is left before the next one is entered, and the state of the machine is the one
asked for last. -/
theorem stm_callback_protocol (T : List (Callbacks σ)) (stm : StateMachine) (key : σ) (hT : Correlative T stm.maxState)
    (hinitial : stm.initial < stm.maxState) (es : List StmEvent) :
    ∃ stm₀, stmInit (T.map Callbacks.definition) stm = .ok stm₀ ∧ stmState stm₀ = stm.initial ∧
      (Meets (stmStep (T.map Callbacks.definition)) (fun s ev => Serves T s.1 s.2.1 ev) (stm₀, key, []) es →
        ∃ history stm' key' notes, run (stmStep (T.map Callbacks.definition)) (stm₀, key, []) es = .ok (stm', key', notes) ∧
          history.map Prod.fst = es ∧ notes = stmTrace T stm.initial history ∧
          stmState stm' = lastAsked stm.initial history ∧
          (es ≠ [] → ∃ path, (stm.initial :: path).IsChain (· ≠ ·) ∧
            (stm.initial :: path).getLast? = some (stmState stm') ∧
            notes.filter StmCall.isHook = stays T (stm.initial :: path))) := by
  refine ⟨{ stm with current := none }, stmInit_correlative hT hinitial, rfl, fun hmeets => ?_⟩
  have hrun : ∃ history stm' key' notes,
      run (stmStep (T.map Callbacks.definition)) ({ stm with current := none }, key, []) es = .ok (stm', key', notes) ∧
        history.map Prod.fst = es ∧ AfterEvents T stm history stm' notes := by
    induction es using List.reverseRecOn with
    | nil => exact ⟨[], _, key, [], rfl, rfl, ⟨rfl, rfl, rfl, rfl, by show stm.initial ≤ _; omega⟩⟩
    | append_singleton es ev ih =>
      obtain ⟨hbefore, hserves⟩ := hmeets.concat
      obtain ⟨history, stm₁, key₁, notes₁, hrun, hevents, hafter⟩ := ih hbefore
      obtain ⟨ret, stm', key', notes', hstep, hafter'⟩ := stmStep_follows hT hinitial hafter (hserves _ hrun)
      refine ⟨history ++ [(ev, ret)], stm', key', notes', run_concat_ok.mpr ⟨_, hrun, hstep⟩, ?_, hafter'⟩
      rw [List.map_append, hevents]
      rfl
  obtain ⟨history, stm', key', notes, hrun, hevents, hafter⟩ := hrun
  refine ⟨history, stm', key', notes, hrun, hevents, hafter.notes, hafter.state, fun hne => ?_⟩
  obtain ⟨path, hchain, hlast, hnotes⟩ := protocol_stays T stm.initial history
  refine ⟨path, hchain, hlast.trans (congrArg some hafter.state.symm), ?_⟩
  rw [hafter.notes, ← hnotes]
  cases history with
  | nil => exact absurd hevents.symm hne
  | cons e history =>
    show (arrives T stm.initial ++ protocol T stm.initial (e :: history)).filter StmCall.isHook = _
    rw [List.filter_append, filter_arrives]

/-- The second state has no hook for its departure, and asks for itself before it moves on. -/
def threeStates : List (Callbacks Nat) :=
  [{ state := 0, onArrival := some fun _ n => n, onDeparture := some fun _ n => n, onBlockReady := some fun n => (1, n) },
    { state := 1, onArrival := some fun _ n => n, onWriteReady := some fun n => (if n = 0 then 1 else 2, n + 1) },
    { state := 2, onArrival := some fun _ n => n, onDeparture := some fun _ n => n, onReadReady := some fun n => (0, n) }]

theorem stm_callback_protocol_threeStates :
    ∃ stm₀ stm' n, stmInit (threeStates.map Callbacks.definition) { initial := 0, maxState := 2, current := none } = .ok stm₀ ∧
      run (stmStep (threeStates.map Callbacks.definition)) (stm₀, 0, []) [.block, .write, .write] =
        .ok (stm', n, [.arrival 0, .handler .block 0 1, .departure 0, .arrival 1, .handler .write 1 1, .handler .write 1 2,
          .arrival 2]) ∧ stmState stm' = 2 := by
  have hT : Correlative threeStates 2 := by
    intro i hi
    have hcases : i = 0 ∨ i = 1 ∨ i = 2 := by omega
    rcases hcases with rfl | rfl | rfl <;> exact ⟨_, rfl, rfl⟩
  obtain ⟨stm₀, hinit, -, hall⟩ := stm_callback_protocol threeStates { initial := 0, maxState := 2, current := none } 0 hT
    (by decide) [.block, .write, .write]
  cases hinit
  obtain ⟨history, stm', n, notes, hrun, hevents, hnotes, hstate, -⟩ := hall (Meets.of_check (by decide +kernel))
  have hvalue : run (stmStep (threeStates.map Callbacks.definition)) ({ initial := 0, maxState := 2, current := none }, 0, [])
      [.block, .write, .write] = .ok ({ initial := 0, maxState := 2, current := some 2 }, 2,
        [.arrival 0, .handler .block 0 1, .departure 0, .arrival 1, .handler .write 1 1, .handler .write 1 2, .arrival 2]) := by
    rfl
  cases hrun.symm.trans hvalue
  exact ⟨_, _, _, rfl, hvalue, rfl⟩

end Runs

end Smtpd
