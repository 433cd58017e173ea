import Smtpd.Lib.Runs

namespace Smtpd.Parsing

open Checked

inductive ParserFault
  /-- `classes`, `states` or `states_n` is read outside of the table -/
  | outOfTable
  /-- a transition is read behind those of the state -/
  | outOfRow
  /-- `act1` is NULL -/
  | nullPointer
  /-- the counter of the loop starts again at 0 -/
  | endless
deriving DecidableEq, Repr

/-- The two events of a parser, as what a pointer points to. -/
inductive EventName
  | e1 | e2
deriving DecidableEq, Repr

structure ParserEvent where
  type : UInt32
  data : Vector UInt8 3
  n : UInt8
  next : Option EventName
deriving DecidableEq, Repr

/-- `ret->n = 1` and `ret->data[0] = c` -/
def ParserEvent.single (event : ParserEvent) (c : UInt8) : ParserEvent :=
  { event with n := 1, data := event.data.set 0 c }

theorem single_data (event : ParserEvent) (c : UInt8) : (event.single c).data[0]? = some c := by
  simp [ParserEvent.single]

abbrev ParserAct := ParserEvent → UInt8 → ParserEvent

structure ParserStateTransition where
  when : Int
  dest : UInt32
  act1 : Option ParserAct
  act2 : Option ParserAct

abbrev ANY : Int := 512

/-- `struct parser_definition`. A state is the memory behind its pointer, and nothing can be read behind NULL. -/
structure ParserDefinition where
  statesCount : UInt32
  states : List (List ParserStateTransition)
  statesN : List Nat
  startState : UInt32

structure Parser where
  classes : List UInt32
  definition : ParserDefinition
  state : UInt32
  e1 : ParserEvent
  e2 : ParserEvent

/-- An event that `memset` has blanked. -/
def blankEvent : ParserEvent := { type := 0, data := #v[0, 0, 0], n := 0, next := none }

/-- `malloc` gives memory, or NULL. -/
def parserInit (classes : List UInt32) (definition : ParserDefinition) (memory : Bool) : Option Parser :=
  if memory then
    some { classes, definition, state := definition.startState, e1 := blankEvent, e2 := blankEvent }
  else none

def parserReset (p : Parser) : Parser := { p with state := p.definition.startState }

def ParserStateTransition.matched (transition : ParserStateTransition) (type : UInt32) (c : UInt8) : Bool :=
  if transition.when ≤ 0xFF then decide ((c.toNat : Int) = transition.when)
  else if transition.when = ANY then true
  else if 0xFF < transition.when then decide (type &&& UInt32.ofNat transition.when.toNat ≠ 0)
  else false

/-- The loop of `parser_feed`, up to its `break`. -/
def firstMatched (type : UInt32) (c : UInt8) :
    Nat → List ParserStateTransition → Except ParserFault (Option ParserStateTransition)
  | 0, _ => .ok none
  | _ + 1, [] => .error .outOfRow
  | n + 1, transition :: state =>
    if transition.matched type c then .ok (some transition) else firstMatched type c n state

def Parser.follow (p : Parser) (transition : ParserStateTransition) (c : UInt8) : Except ParserFault Parser := do
  let act1 ← demand .nullPointer transition.act1
  let e1 := act1 p.e1 c
  match transition.act2 with
  | none => .ok { p with e1, state := transition.dest }
  | some act2 => .ok { p with e1 := { e1 with next := some .e2 }, e2 := act2 p.e2 c, state := transition.dest }

/-- `p->e1.next = p->e2.next = 0` -/
def Parser.unlink (p : Parser) : Parser :=
  { p with e1 := { p.e1 with next := none }, e2 := { p.e2 with next := none } }

/-- The rest of `parser_feed` behind its loop, which counts with 32 bits. -/
def Parser.advance (p : Parser) (n : Nat) (c : UInt8) : Option ParserStateTransition → Except ParserFault Parser
  | some transition => p.follow transition c
  | none => if n < 4294967296 then .ok p else .error .endless

/-- What is returned is `e1`. -/
def parserFeed (p : Parser) (c : UInt8) : Except ParserFault Parser := do
  let type ← demand .outOfTable p.classes[c.toNat]?
  let p := p.unlink
  let state ← demand .outOfTable p.definition.states[p.state.toNat]?
  let n ← demand .outOfTable p.definition.statesN[p.state.toNat]?
  let matched ← firstMatched type c (min n 4294967296) state
  p.advance n c matched

/-- `static const unsigned classes[0xFF]` -/
def parserNoClasses : List UInt32 := List.replicate 0xFF 0

inductive ParserCall
  | feed (c : UInt8)
  | reset
deriving DecidableEq, Repr

def ParserCall.make (p : Parser) : ParserCall → Except ParserFault Parser
  | .feed c => parserFeed p c
  | .reset => .ok (parserReset p)

/-- For each of its states the definition has as many transitions as it says, and they lead to states. -/
structure ParserDefinition.WellFormed (d : ParserDefinition) : Prop where
  states : d.states.length = d.statesCount.toNat
  statesN : d.statesN.length = d.statesCount.toNat
  rows : ∀ {i : Nat} {state n}, d.states[i]? = some state → d.statesN[i]? = some n → n ≤ state.length
  start : d.startState < d.statesCount
  dests : ∀ {i : Nat} {state n}, d.states[i]? = some state → d.statesN[i]? = some n →
    ∀ transition ∈ state.take n, transition.dest < d.statesCount

/-- Nothing is looked up outside of the tables, and every state on the way is one of the definition. -/
def Contained (p : Parser) (calls : List ParserCall) : Prop :=
  ∀ first rest, calls = first ++ rest →
    Runs.run ParserCall.make p first ≠ .error .outOfTable ∧
      ∀ q, Runs.run ParserCall.make p first = .ok q → q.state < p.definition.statesCount

section Bounds

variable {p q : Parser} {d : ParserDefinition} {type : UInt32} {c : UInt8}

theorem firstMatched_ok {n : Nat} {state : List ParserStateTransition} (hn : n ≤ state.length) :
    ∃ matched, firstMatched type c n state = .ok matched ∧ ∀ transition ∈ matched, transition ∈ state.take n := by
  induction n generalizing state with
  | zero => exact ⟨none, rfl, fun t ht => by cases ht⟩
  | succ n ih =>
    cases state with
    | nil => cases hn
    | cons transition state =>
      rw [firstMatched]
      split
      · refine ⟨some transition, rfl, fun t ht => ?_⟩
        cases ht
        exact List.mem_cons_self
      · obtain ⟨matched, hm, hmem⟩ := ih (Nat.le_of_succ_le_succ hn)
        exact ⟨matched, hm, fun t ht => List.mem_cons_of_mem transition (hmem t ht)⟩

theorem parserFeed_eq {n : Nat} {state : List ParserStateTransition} {matched : Option ParserStateTransition}
    (hc : p.classes[c.toNat]? = some type) (hs : p.definition.states[p.state.toNat]? = some state)
    (hn : p.definition.statesN[p.state.toNat]? = some n) (hm : firstMatched type c (min n 4294967296) state = .ok matched) :
    parserFeed p c = p.unlink.advance n c matched := by
  have hs' : p.unlink.definition.states[p.unlink.state.toNat]? = some state := hs
  have hn' : p.unlink.definition.statesN[p.unlink.state.toNat]? = some n := hn
  unfold parserFeed
  dsimp only
  rw [hc, hs', hn', demand_some, demand_some, demand_some, ok_bind, ok_bind, ok_bind, hm, ok_bind]

theorem parserFeed_unknown (hc : p.classes.length ≤ c.toNat) : parserFeed p c = .error .outOfTable := by
  rw [parserFeed, List.getElem?_eq_none hc]
  rfl

/-- What every call keeps. -/
structure Parser.Within (p : Parser) (classes : List UInt32) (d : ParserDefinition) : Prop where
  classes : p.classes = classes
  definition : p.definition = d
  state : p.state < d.statesCount

variable {classes : List UInt32}

theorem follow_within {transition : ParserStateTransition} (hp : p.Within classes d)
    (ht : transition.dest < d.statesCount) :
    Ensures (fun q => q.Within classes d) (fun fault => fault ≠ .outOfTable) (p.follow transition c) := by
  unfold Parser.follow
  cases transition.act1 with
  | none => exact ParserFault.noConfusion
  | some act1 =>
    rw [demand_some, ok_bind]
    cases transition.act2 with
    | none => exact ⟨hp.classes, hp.definition, ht⟩
    | some act2 => exact ⟨hp.classes, hp.definition, ht⟩

/-- A byte that the classes know keeps the parser within its tables. -/
theorem parserFeed_within (hd : d.WellFormed) (hp : p.Within classes d) (hc : c.toNat < classes.length) :
    Ensures (fun q => q.Within classes d) (fun fault => fault ≠ .outOfTable) (parserFeed p c) := by
  obtain ⟨rfl, rfl, hstate⟩ := hp
  have hlt : p.state.toNat < p.definition.statesCount.toNat := UInt32.lt_iff_toNat_lt.mp hstate
  have hs := List.getElem?_eq_getElem (hd.states.symm ▸ hlt)
  have hn := List.getElem?_eq_getElem (hd.statesN.symm ▸ hlt)
  have hrow := hd.rows hs hn
  obtain ⟨matched, hm, hmem⟩ := firstMatched_ok (Nat.le_trans (Nat.min_le_left _ 4294967296) hrow)
  rw [parserFeed_eq (List.getElem?_eq_getElem hc) hs hn hm]
  have hunlink : p.unlink.Within p.classes p.definition := ⟨rfl, rfl, hstate⟩
  cases matched with
  | none => exact ensures_ite (fun _ => hunlink) fun _ => ParserFault.noConfusion
  | some transition =>
    refine follow_within hunlink (hd.dests hs hn transition ?_)
    exact (List.take_sublist_take_left (Nat.min_le_left _ _)).subset (hmem transition rfl)

theorem make_within (hd : d.WellFormed) (hp : p.Within classes d) {call : ParserCall}
    (hc : ∀ c, call = .feed c → c.toNat < classes.length) :
    Ensures (fun q => q.Within classes d) (fun fault => fault ≠ .outOfTable) (call.make p) := by
  cases call with
  | feed c => exact parserFeed_within hd hp (hc c rfl)
  | reset =>
    refine ⟨hp.classes, hp.definition, ?_⟩
    show p.definition.startState < d.statesCount
    rw [hp.definition]
    exact hd.start

theorem make_unknown {call : ParserCall} (hp : p.Within classes d)
    (hc : ¬ ∀ c, call = .feed c → c.toNat < classes.length) : call.make p = .error .outOfTable := by
  cases call with
  | feed c =>
    refine parserFeed_unknown (Nat.le_of_not_lt fun hlt => hc fun c' hc' => ?_)
    cases hc'
    rw [← hp.classes]
    exact hlt
  | reset => exact absurd (fun c hc' => by cases hc') hc

/-- Calls stay within the tables as long as they feed bytes that the classes know, and no longer. -/
theorem contained_iff (hd : d.WellFormed) (hp : p.Within classes d) (calls : List ParserCall) :
    Contained p calls ↔
      Runs.Meets ParserCall.make (fun _ call => ∀ c, call = .feed c → c.toNat < classes.length) p calls := by
  constructor
  · intro h
    exact (Runs.run_avoids (fun _ _ hp hc => make_within hd hp hc) (fun _ _ hp hc => make_unknown hp hc) hp).mp
      (h calls [] (List.append_nil calls).symm).1
  · rintro hm first rest rfl
    have hrun := Runs.run_ensures (fun _ _ hp hc => make_within hd hp hc) hp hm.left
    rw [ensures_iff] at hrun
    refine ⟨fun h => hrun.2 _ h rfl, fun q hq => ?_⟩
    rw [hp.definition]
    exact (hrun.1 q hq).state

theorem noClasses_known (c : UInt8) : c.toNat < parserNoClasses.length ↔ c ≠ 0xFF := by
  have hlt := c.toNat_lt
  have hlen : parserNoClasses.length = 255 := List.length_replicate
  rw [hlen, ne_eq, ← UInt8.toNat_inj, show (0xFF : UInt8).toNat = 255 from rfl]
  omega

theorem call_known (call : ParserCall) :
    (∀ c, call = .feed c → c.toNat < parserNoClasses.length) ↔ call ≠ .feed 0xFF := by
  simp only [noClasses_known]
  exact ⟨fun h hcall => h 0xFF hcall rfl, fun h c hcall hc => h (hc ▸ hcall)⟩

/-- With the table of `parser_no_classes` a parser of any definition stays within its tables exactly as long as no
byte is 0xFF. -/
theorem parser_contained_iff (hd : d.WellFormed) (hp : parserInit parserNoClasses d true = some p)
    (calls : List ParserCall) :
    Contained p calls ↔ Runs.Meets ParserCall.make (fun _ call => call ≠ .feed 0xFF) p calls := by
  cases hp
  rw [contained_iff hd ⟨rfl, rfl, hd.start⟩]
  simp only [call_known]

end Bounds

section Instance

/-- The events of the machine below. -/
abbrev FOO : UInt32 := 0
abbrev BAR : UInt32 := 1

def sends (type : UInt32) : ParserAct := fun ret c => { ret.single c with type }

/-- The transitions of both states in `parser_test.c`. -/
def fooBarState : List ParserStateTransition := [
  { when := 70, dest := 0, act1 := some (sends FOO), act2 := none },
  { when := 102, dest := 0, act1 := some (sends FOO), act2 := none },
  { when := ANY, dest := 1, act1 := some (sends BAR), act2 := none }]

def fooBar : ParserDefinition :=
  { statesCount := 2, states := [fooBarState, fooBarState], statesN := [3, 3], startState := 0 }

theorem fooBar_wellFormed : fooBar.WellFormed := by
  have hrow : ∀ {i : Nat} {state n}, fooBar.states[i]? = some state → fooBar.statesN[i]? = some n →
      n = 3 ∧ state = fooBarState := by
    intro i state n hs hn
    have hs : state = fooBarState := by simpa [fooBar] using List.mem_of_getElem? hs
    have hn : n = 3 := by simpa [fooBar] using List.mem_of_getElem? hn
    exact ⟨hn, hs⟩
  refine ⟨rfl, rfl, ?_, by decide, ?_⟩
  · intro i state n hs hn
    obtain ⟨rfl, rfl⟩ := hrow hs hn
    decide
  · intro i state n hs hn transition ht
    obtain ⟨rfl, rfl⟩ := hrow hs hn
    have hdests : ∀ transition ∈ fooBarState, transition.dest < fooBar.statesCount := by decide
    exact hdests transition (List.mem_of_mem_take ht)

theorem parser_contained_iff_fooBar : ∃ p, parserInit parserNoClasses fooBar true = some p ∧
    Contained p [.feed 102, .feed 66, .reset, .feed 70] := by
  obtain ⟨p, hp⟩ : ∃ p, parserInit parserNoClasses fooBar true = some p := ⟨_, rfl⟩
  refine ⟨p, hp, (parser_contained_iff fooBar_wellFormed hp _).mpr (Runs.Meets.of_events fun call hcall _ => ?_)⟩
  simp only [List.mem_cons, List.not_mem_nil, or_false] at hcall
  rcases hcall with rfl | rfl | rfl | rfl <;> decide

theorem contained_broken : ∃ p, fooBar.WellFormed ∧ parserInit parserNoClasses fooBar true = some p ∧
    ¬ Contained p [.feed 0xFF] := by
  refine ⟨_, fooBar_wellFormed, rfl, fun h => (h [.feed 0xFF] [] rfl).1 ?_⟩
  rfl

end Instance

end Smtpd.Parsing
