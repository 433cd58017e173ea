import Smtpd.Lib.CString
import Smtpd.Parser

namespace Smtpd.Parsing

open Checked CString

inductive StringCmpEventTypes
  | mayeq | eq | neq
deriving DecidableEq, Repr

def StringCmpEventTypes.value : StringCmpEventTypes → UInt32
  | .mayeq => 0
  | .eq => 1
  | .neq => 2

abbrev STRING_CMP_MAYEQ : UInt32 := StringCmpEventTypes.mayeq.value
abbrev STRING_CMP_EQ : UInt32 := StringCmpEventTypes.eq.value
abbrev STRING_CMP_NEQ : UInt32 := StringCmpEventTypes.neq.value

def cmpAct (type : StringCmpEventTypes) : ParserAct := fun ret c =>
  { ret.single c with type := type.value }

def mayEq : ParserAct := cmpAct .mayeq
def eq : ParserAct := cmpAct .eq
def neq : ParserAct := cmpAct .neq

/-- A transition that `calloc` has blanked. -/
def blankTransition : ParserStateTransition := { when := 0, dest := 0, act1 := none, act2 := none }

/-- The three arrays of `parser_utils_strcmpi`. A state points into `transitions`, or is NULL. -/
structure StrcmpiTables where
  transitions : List ParserStateTransition
  states : List (Option Nat)
  nstates : List Nat

/-- The transitions of a state, with the pointer to them and their number. -/
def StrcmpiTables.put (tables : StrcmpiTables) (i : Nat) (row : List ParserStateTransition) : StrcmpiTables :=
  { transitions := overwrite tables.transitions (i * 3) row
    states := tables.states.set i (some (i * 3))
    nstates := tables.nstates.set i row.length }

def StrcmpiTables.behind (tables : StrcmpiTables) : Option Nat → List ParserStateTransition
  | some i => tables.transitions.drop i
  | none => []

/-- What a state of its own has for every character. -/
def sinkRow (n : Nat) : List ParserStateTransition :=
  [{ when := ANY, dest := UInt32.ofNat (n + 1), act1 := some neq, act2 := none }]

/-- The state of the `i`-th of `n` characters. The character is of 7 bits. -/
def charRow (n i : Nat) (c : UInt8) : List ParserStateTransition :=
  let dest := UInt32.ofNat (if i + 1 = n then n else i + 1)
  let act1 := if i + 1 = n then eq else mayEq
  [{ when := (tolower c).toNat, dest, act1 := some act1, act2 := none },
    { when := (toupper c).toNat, dest, act1 := some act1, act2 := none },
    { when := ANY, dest := UInt32.ofNat (n + 1), act1 := some neq, act2 := none }]

/-- `s` comes without its NUL. `calloc` gives memory three times, or NULL once. -/
def parserUtilsStrcmpi (s : List UInt8) (memory : Bool) : ParserDefinition :=
  let n := s.length
  if memory then
    let tables : StrcmpiTables :=
      { transitions := List.replicate (3 * (n + 2)) blankTransition
        states := List.replicate (n + 2) none
        nstates := List.replicate (n + 2) 0 }
    let tables := s.zipIdx.foldl (fun tables ci => tables.put ci.2 (charRow n ci.2 ci.1)) tables
    let tables := tables.put (n + 0) (sinkRow n)
    let tables := tables.put (n + 1) (sinkRow n)
    { statesCount := UInt32.ofNat (n + 2), states := tables.states.map tables.behind, statesN := tables.nstates
      startState := 0 }
  else { statesCount := 0, states := [], statesN := [], startState := 0 }

section Tables

variable {tables : StrcmpiTables} {n i j : Nat} {row : List ParserStateTransition}

structure StrcmpiTables.Sized (tables : StrcmpiTables) (n : Nat) : Prop where
  transitions : tables.transitions.length = 3 * n
  states : tables.states.length = n
  nstates : tables.nstates.length = n

/-- A state points to its transitions. -/
structure StrcmpiTables.Holds (tables : StrcmpiTables) (i : Nat) (row : List ParserStateTransition) : Prop where
  states : tables.states[i]? = some (some (i * 3))
  nstates : tables.nstates[i]? = some row.length
  transitions : (tables.transitions.drop (i * 3)).take row.length = row

theorem put_sized (ht : tables.Sized n) (hi : i < n) (hrow : row.length ≤ 3) : (tables.put i row).Sized n := by
  refine ⟨?_, ?_, ?_⟩
  · have hlen := ht.transitions
    exact (length_overwrite (by omega)).trans hlen
  · exact (List.length_set ..).trans ht.states
  · exact (List.length_set ..).trans ht.nstates

theorem put_holds (ht : tables.Sized n) (hi : i < n) : (tables.put i row).Holds i row := by
  refine ⟨?_, ?_, ?_⟩
  · exact List.getElem?_set_self (by rw [ht.states]; exact hi)
  · exact List.getElem?_set_self (by rw [ht.nstates]; exact hi)
  · have hlen := ht.transitions
    have hstart : (tables.transitions.take (i * 3)).length = i * 3 := List.length_take_of_le (by omega)
    rw [StrcmpiTables.put, overwrite, List.append_assoc, List.drop_left' hstart, List.take_left]

/-- A state stays as it is when one behind it is put. -/
theorem StrcmpiTables.Holds.put (h : tables.Holds i row) (hrow : row.length ≤ 3) (ht : tables.Sized n) (hij : i < j)
    (hj : j < n) (row' : List ParserStateTransition) : (tables.put j row').Holds i row := by
  refine ⟨?_, ?_, ?_⟩
  · rw [StrcmpiTables.put, List.getElem?_set_ne (by omega)]
    exact h.states
  · rw [StrcmpiTables.put, List.getElem?_set_ne (by omega)]
    exact h.nstates
  · have hlen := ht.transitions
    have hsame := @take_overwrite_of_le _ tables.transitions row' (j * 3) (i * 3 + row.length) (by omega) (by omega)
    rw [StrcmpiTables.put, List.take_drop, hsame, ← List.take_drop]
    exact h.transitions

/-- The loop fills the states of all characters. -/
theorem foldl_put {m : Nat} (ht : tables.Sized m) (s : List UInt8) (hs : s.length ≤ m) :
    (s.zipIdx.foldl (fun tables ci => tables.put ci.2 (charRow n ci.2 ci.1)) tables).Sized m ∧
      ∀ i c, s[i]? = some c →
        (s.zipIdx.foldl (fun tables ci => tables.put ci.2 (charRow n ci.2 ci.1)) tables).Holds i (charRow n i c) := by
  induction s using List.reverseRecOn with
  | nil => exact ⟨ht, fun i c hc => by cases hc⟩
  | append_singleton s c ih =>
    rw [List.length_append, List.length_singleton] at hs
    obtain ⟨hsized, hholds⟩ := ih (by omega)
    rw [List.zipIdx_append, List.foldl_append]
    refine ⟨put_sized hsized (by omega) le_rfl, fun i x hx => ?_⟩
    by_cases hi : i < s.length
    · rw [List.getElem?_append_left hi] at hx
      exact (hholds i x hx).put le_rfl hsized (by omega) (by omega) _
    · rw [List.getElem?_append_right (by omega), List.getElem?_singleton] at hx
      split at hx
      next hlast =>
        cases hx
        obtain rfl : i = s.length := by omega
        simp only [List.zipIdx_singleton, Nat.zero_add, List.foldl_cons, List.foldl_nil]
        exact put_holds hsized (by omega)
      · cases hx

end Tables

section Feed

variable {s : List UInt8} {classes : List UInt32} {p : Parser} {i : Nat} {c : UInt8} {type : UInt32}

/-- The transitions from a state: of a character, or of one of the two sinks. -/
def stateRow (s : List UInt8) (i : Nat) : List ParserStateTransition :=
  match s[i]? with
  | some c => charRow s.length i c
  | none => sinkRow s.length

theorem length_sinkRow (n : Nat) : (sinkRow n).length ≤ 3 := Nat.le_of_ble_eq_true rfl

theorem length_stateRow (s : List UInt8) (i : Nat) : (stateRow s i).length ≤ 3 := by
  unfold stateRow
  cases s[i]? with
  | none => exact length_sinkRow _
  | some c => exact le_rfl

/-- Every state of the definition points to its transitions. -/
theorem strcmpi_states (s : List UInt8) (hi : i < s.length + 2) :
    ∃ state, (parserUtilsStrcmpi s true).states[i]? = some state ∧
      (parserUtilsStrcmpi s true).statesN[i]? = some (stateRow s i).length ∧
      state.take (stateRow s i).length = stateRow s i := by
  have hblank : StrcmpiTables.Sized
      { transitions := List.replicate (3 * (s.length + 2)) blankTransition
        states := List.replicate (s.length + 2) none
        nstates := List.replicate (s.length + 2) 0 } (s.length + 2) :=
    ⟨List.length_replicate, List.length_replicate, List.length_replicate⟩
  obtain ⟨hloop, hchars⟩ := @foldl_put _ s.length _ hblank s (by omega)
  have hsink : (sinkRow s.length).length ≤ 3 := length_sinkRow _
  have heq := put_sized (i := s.length + 0) hloop (by omega) hsink
  obtain ⟨tables, hd, hholds⟩ : ∃ tables : StrcmpiTables,
      (parserUtilsStrcmpi s true).states = tables.states.map tables.behind ∧
        (parserUtilsStrcmpi s true).statesN = tables.nstates ∧ tables.Holds i (stateRow s i) := by
    refine ⟨_, rfl, rfl, ?_⟩
    unfold stateRow
    cases hc : s[i]? with
    | some c =>
      have hlt : i < s.length := (List.getElem?_eq_some_iff.mp hc).1
      exact (((hchars i c hc).put le_rfl hloop (by omega) (by omega) _).put le_rfl heq (by omega) (by omega) _)
    | none =>
      have hge : s.length ≤ i := List.getElem?_eq_none_iff.mp hc
      by_cases hi' : i = s.length + 0
      · rw [hi']
        exact (put_holds hloop (by omega)).put (length_sinkRow _) heq (by omega) (by omega) _
      · obtain rfl : i = s.length + 1 := by omega
        exact put_holds heq (by omega)
  obtain ⟨hn, hholds⟩ := hholds
  refine ⟨tables.transitions.drop (i * 3), ?_, ?_, hholds.transitions⟩
  · rw [hd, List.getElem?_map, hholds.states]
    rfl
  · rw [hn, hholds.nstates]

theorem firstMatched_take (type : UInt32) (c : UInt8) (n : Nat) (state : List ParserStateTransition) :
    firstMatched type c n (state.take n) = firstMatched type c n state := by
  induction n generalizing state with
  | zero => rfl
  | succ n ih =>
    cases state with
    | nil => rfl
    | cons transition state =>
      rw [List.take_succ_cons, firstMatched, firstMatched, ih]

/-- A byte is the next character of the string. -/
def Advances (s : List UInt8) (i : Nat) (c : UInt8) : Prop := ∃ x, s[i]? = some x ∧ tolower c = tolower x

instance (s : List UInt8) (i : Nat) (c : UInt8) : Decidable (Advances s i c) :=
  match h : s[i]? with
  | none => isFalse fun ⟨_, hx, _⟩ => by cases h.symm.trans hx
  | some x =>
    if hc : tolower c = tolower x then isTrue ⟨x, h, hc⟩
    else isFalse fun ⟨_, hx, hc'⟩ => by
      cases h.symm.trans hx
      exact hc hc'

/-- What a byte is reported as. -/
def verdict (s : List UInt8) (i : Nat) (c : UInt8) : StringCmpEventTypes :=
  if Advances s i c then if i + 1 = s.length then .eq else .mayeq else .neq

def target (s : List UInt8) (i : Nat) (c : UInt8) : Nat := if Advances s i c then i + 1 else s.length + 1

theorem matched_char (c x : UInt8) (dest : UInt32) (act1 act2 : Option ParserAct) :
    ParserStateTransition.matched { when := x.toNat, dest, act1, act2 } type c = decide (c = x) := by
  have hx := x.toNat_lt
  have hle : (x.toNat : Int) ≤ 0xFF := by omega
  rw [ParserStateTransition.matched, if_pos hle]
  simp only [Int.natCast_inj, UInt8.toNat_inj]

theorem matched_any (c : UInt8) (dest : UInt32) (act1 act2 : Option ParserAct) :
    ParserStateTransition.matched { when := ANY, dest, act1, act2 } type c = true := rfl

/-- The first transition that matches reports the verdict. -/
theorem firstMatched_stateRow (s : List UInt8) (i : Nat) (c : UInt8) :
    ∃ transition, firstMatched type c (stateRow s i).length (stateRow s i) = .ok (some transition) ∧
      transition.dest = UInt32.ofNat (target s i c) ∧ transition.act1 = some (cmpAct (verdict s i c)) ∧
      transition.act2 = none := by
  unfold stateRow target verdict
  cases hx : s[i]? with
  | none =>
    have hstuck : ¬ Advances s i c := by
      rintro ⟨x, hx', -⟩
      cases hx.symm.trans hx'
    rw [if_neg hstuck, if_neg hstuck]
    exact ⟨_, rfl, rfl, rfl, rfl⟩
  | some x =>
    have hadv : Advances s i c ↔ c = tolower x ∨ c = toupper x := by
      rw [← (casePair x).tolower_eq c]
      constructor
      · rintro ⟨y, hy, hc⟩
        cases hx.symm.trans hy
        exact hc
      · exact fun hc => ⟨x, hx, hc⟩
    have hdest : (if i + 1 = s.length then s.length else i + 1) = i + 1 := by split_ifs <;> omega
    have hact : (if i + 1 = s.length then eq else mayEq) =
        cmpAct (if i + 1 = s.length then .eq else .mayeq) := by split_ifs <;> rfl
    simp only [hadv, charRow, hdest, hact, List.length_cons, List.length_nil, firstMatched, matched_char, matched_any,
      decide_eq_true_eq, if_true]
    by_cases hlower : c = tolower x
    · rw [if_pos hlower, if_pos (Or.inl hlower), if_pos (Or.inl hlower)]
      exact ⟨_, rfl, rfl, rfl, rfl⟩
    · rw [if_neg hlower]
      by_cases hupper : c = toupper x
      · rw [if_pos hupper, if_pos (Or.inr hupper), if_pos (Or.inr hupper)]
        exact ⟨_, rfl, rfl, rfl, rfl⟩
      · have hstuck : ¬ (c = tolower x ∨ c = toupper x) := not_or.mpr ⟨hlower, hupper⟩
        rw [if_neg hupper, if_neg hstuck, if_neg hstuck]
        exact ⟨_, rfl, rfl, rfl, rfl⟩

/-- A parser that compares with `s`, in its `i`-th state. -/
structure Parser.At (p : Parser) (classes : List UInt32) (s : List UInt8) (i : Nat) : Prop where
  classes : p.classes = classes
  definition : p.definition = parserUtilsStrcmpi s true
  state : p.state.toNat = i

/-- One byte is reported, and the parser comes to another state. -/
theorem parserFeed_strcmpi (hp : p.At classes s i) (hi : i < s.length + 2) (hc : c.toNat < classes.length) :
    ∃ q, parserFeed p c = .ok q ∧ q.At classes s (target s i c % 4294967296) ∧
      q.e1.type = (verdict s i c).value ∧ q.e1.n = 1 ∧ q.e1.data[0]? = some c ∧ q.e1.next = none := by
  obtain ⟨rfl, hdef, rfl⟩ := hp
  obtain ⟨state, hs, hn, htake⟩ := strcmpi_states s hi
  obtain ⟨transition, hm, hdest, hact1, hact2⟩ := @firstMatched_stateRow p.classes[c.toNat] s p.state.toNat c
  have hlen := length_stateRow s p.state.toNat
  rw [← hdef] at hs hn
  have hloop : firstMatched p.classes[c.toNat] c (min (stateRow s p.state.toNat).length 4294967296) state =
      .ok (some transition) := by
    rw [Nat.min_eq_left (by omega), ← firstMatched_take, htake]
    exact hm
  rw [parserFeed_eq (List.getElem?_eq_getElem hc) hs hn hloop]
  show ∃ q, p.unlink.follow transition c = .ok q ∧ _
  rw [Parser.follow, hact1, demand_some, ok_bind, hact2]
  refine ⟨_, rfl, ⟨rfl, hdef, ?_⟩, rfl, rfl, ?_, rfl⟩
  · show transition.dest.toNat = _
    rw [hdest]
    exact UInt32.toNat_ofNat'
  · exact single_data p.unlink.e1 c

end Feed

section Recognition

variable {s first : List UInt8} {classes : List UInt32} {p : Parser} {i : Nat} {c : UInt8}

/-- So far the bytes are those of the string, but for the case. -/
def Agrees (s first : List UInt8) : Prop :=
  first.length ≤ s.length ∧ first.map tolower = (s.take first.length).map tolower

instance (s first : List UInt8) : Decidable (Agrees s first) := inferInstanceAs (Decidable (_ ∧ _))

/-- The event of a byte, when these have been fed up to it. -/
structure Reported (s first : List UInt8) (c : UInt8) (event : ParserEvent) : Prop where
  data : event.data[0]? = some c
  n : event.n = 1
  next : event.next = none
  mayeq : event.type = STRING_CMP_MAYEQ ↔ first.length < s.length ∧ first.map tolower = (s.take first.length).map tolower
  eq : event.type = STRING_CMP_EQ ↔ first.length = s.length ∧ first.map tolower = s.map tolower
  neq : event.type = STRING_CMP_NEQ ↔
    ¬ (first.length < s.length ∧ first.map tolower = (s.take first.length).map tolower) ∧
      ¬ (first.length = s.length ∧ first.map tolower = s.map tolower)

/-- Each byte is reported as what it makes of the bytes so far. -/
def Recognises (p : Parser) (s w : List UInt8) : Prop :=
  ∀ first c rest, w = first ++ c :: rest →
    ∃ q, Runs.run parserFeed p (first ++ [c]) = .ok q ∧ Reported s (first ++ [c]) c q.e1

/-- The state when these bytes have been fed. -/
def position (s first : List UInt8) : Nat := if Agrees s first then first.length else s.length + 1

theorem position_lt (s first : List UInt8) : position s first < s.length + 2 := by
  unfold position
  split_ifs with h
  · have := h.1
    omega
  · omega

theorem agrees_concat : Agrees s (first ++ [c]) ↔ Agrees s first ∧ Advances s first.length c := by
  unfold Agrees Advances
  rw [List.length_append, List.length_singleton]
  by_cases hlt : first.length < s.length
  · have hget := List.getElem?_eq_getElem hlt
    rw [List.take_succ_eq_append_getElem hlt, List.map_append, List.map_append]
    constructor
    · rintro ⟨-, hmap⟩
      obtain ⟨hfirst, hlast⟩ := List.append_inj' hmap rfl
      exact ⟨⟨hlt.le, hfirst⟩, s[first.length], hget, (List.cons.inj hlast).1⟩
    · rintro ⟨⟨-, hfirst⟩, x, hx, hc⟩
      cases hget.symm.trans hx
      refine ⟨hlt, ?_⟩
      rw [hfirst, List.map_singleton, List.map_singleton, hc]
  · refine iff_of_false (fun h => hlt h.1) ?_
    rintro ⟨-, x, hx, -⟩
    exact hlt (List.getElem?_eq_some_iff.mp hx).1

theorem advances_position : Advances s (position s first) c ↔ Agrees s (first ++ [c]) := by
  rw [agrees_concat, position]
  split_ifs with h
  · rw [and_iff_right h]
  · refine iff_of_false ?_ fun hc => h hc.1
    rintro ⟨x, hx, -⟩
    have := (List.getElem?_eq_some_iff.mp hx).1
    omega

theorem target_position : target s (position s first) c = position s (first ++ [c]) := by
  by_cases h : Agrees s (first ++ [c])
  · rw [target, if_pos (advances_position.mpr h), position, if_pos (agrees_concat.mp h).1, position, if_pos h,
      List.length_append, List.length_singleton]
  · rw [target, if_neg fun hadv => h (advances_position.mp hadv), position, if_neg h]

theorem verdict_position : verdict s (position s first) c =
    if Agrees s (first ++ [c]) then if (first ++ [c]).length = s.length then .eq else .mayeq else .neq := by
  by_cases h : Agrees s (first ++ [c])
  · rw [verdict, if_pos (advances_position.mpr h), if_pos h, position, if_pos (agrees_concat.mp h).1,
      List.length_append, List.length_singleton]
  · rw [verdict, if_neg fun hadv => h (advances_position.mp hadv), if_neg h]

theorem value_inj {a b : StringCmpEventTypes} : a.value = b.value ↔ a = b := by
  cases a <;> cases b <;> decide

theorem mayeq_iff : first.length < s.length ∧ first.map tolower = (s.take first.length).map tolower ↔
    Agrees s first ∧ first.length ≠ s.length :=
  ⟨fun h => ⟨⟨h.1.le, h.2⟩, h.1.ne⟩, fun h => ⟨lt_of_le_of_ne h.1.1 h.2, h.1.2⟩⟩

theorem eq_iff : first.length = s.length ∧ first.map tolower = s.map tolower ↔
    Agrees s first ∧ first.length = s.length := by
  constructor
  · rintro ⟨hlen, hmap⟩
    refine ⟨⟨hlen.le, ?_⟩, hlen⟩
    rw [hlen, List.take_length, hmap]
  · rintro ⟨⟨-, hmap⟩, hlen⟩
    rw [hlen, List.take_length] at hmap
    exact ⟨hlen, hmap⟩

theorem reported_of_verdict {event : ParserEvent} (ht : event.type = (verdict s (position s first) c).value)
    (hn : event.n = 1) (hdata : event.data[0]? = some c) (hnext : event.next = none) : Reported s (first ++ [c]) c event := by
  rw [verdict_position] at ht
  refine ⟨hdata, hn, hnext, ?_, ?_, ?_⟩
  all_goals
    rw [ht, value_inj]
    simp only [mayeq_iff, eq_iff]
    split_ifs with hagrees hlen
  · exact iff_of_false (by decide) fun h => h.2 hlen
  · exact iff_of_true rfl ⟨hagrees, hlen⟩
  · exact iff_of_false (by decide) fun h => hagrees h.1
  · exact iff_of_true rfl ⟨hagrees, hlen⟩
  · exact iff_of_false (by decide) fun h => hlen h.2
  · exact iff_of_false (by decide) fun h => hagrees h.1
  · exact iff_of_false (by decide) fun h => h.2 ⟨hagrees, hlen⟩
  · exact iff_of_false (by decide) fun h => h.1 ⟨hagrees, hlen⟩
  · exact iff_of_true rfl ⟨fun h => hagrees h.1, fun h => hagrees h.1⟩

/-- A parser of `s` is in the state that the bytes so far lead to. -/
theorem run_strcmpi (hs : s.length + 1 < 4294967296) (hp : p.At classes s 0)
    (hc : ∀ c ∈ first, c.toNat < classes.length) :
    ∃ q, Runs.run parserFeed p first = .ok q ∧ q.At classes s (position s first) := by
  induction first using List.reverseRecOn with
  | nil => exact ⟨p, rfl, hp⟩
  | append_singleton first c ih =>
    obtain ⟨q, hq, hat⟩ := ih fun x hx => hc x (List.mem_append_left _ hx)
    obtain ⟨q', hq', hat', -⟩ := parserFeed_strcmpi hat (position_lt s first) (hc c (by simp))
    refine ⟨q', Runs.run_concat_ok.mpr ⟨q, hq, hq'⟩, ?_⟩
    have hlt := position_lt s (first ++ [c])
    rw [target_position, Nat.mod_eq_of_lt (by omega)] at hat'
    exact hat'

/-- With classes for all of its bytes a text is compared as it should be. -/
theorem strcmpi_recognises (hs : s.length + 1 < 4294967296) (hp : p.At classes s 0) {w : List UInt8}
    (hc : ∀ c ∈ w, c.toNat < classes.length) : Recognises p s w := by
  rintro first c rest rfl
  obtain ⟨q, hq, hat⟩ := @run_strcmpi s first classes p hs hp fun x hx => hc x (by simp [hx])
  obtain ⟨q', hq', -, ht, hn, hdata, hnext⟩ := parserFeed_strcmpi hat (position_lt s first) (hc c (by simp))
  exact ⟨q', Runs.run_concat_ok.mpr ⟨q, hq, hq'⟩, reported_of_verdict ht hn hdata hnext⟩

/-- A byte without a class stops the parser. -/
theorem unknown_stops (hp : p.At classes s 0) {w : List UInt8} (hc : c ∈ w) (hout : classes.length ≤ c.toNat) :
    ¬ Recognises p s w := by
  intro h
  obtain ⟨first, rest, rfl⟩ := List.append_of_mem hc
  obtain ⟨q, hq, -⟩ := h first c rest rfl
  have hmeets := (@Runs.run_avoids _ _ _ parserFeed p (first ++ [c]) (fun p => ∃ i, i < s.length + 2 ∧ p.At classes s i)
    (fun _ c => c.toNat < classes.length) ParserFault.outOfTable ?_ ?_ ⟨0, by omega, hp⟩).mp (by rw [hq]; exact nofun)
  · obtain ⟨u, hu, -⟩ := Runs.run_concat_ok.mp hq
    have hin := hmeets.concat.2 u hu
    omega
  · rintro p c ⟨i, hi, hat⟩ hin
    obtain ⟨q, hq, hat', -⟩ := parserFeed_strcmpi hat hi hin
    rw [hq]
    refine ⟨_, ?_, hat'⟩
    have hle := Nat.mod_le (target s i c) 4294967296
    have htarget : target s i c < s.length + 2 := by
      unfold target
      split_ifs with hadv
      · obtain ⟨x, hx, -⟩ := hadv
        have := (List.getElem?_eq_some_iff.mp hx).1
        omega
      · omega
    omega
  · rintro p c ⟨i, -, hat⟩ hout
    exact parserFeed_unknown (by rw [hat.classes]; omega)

/-- In a string too long for the numbers of its states, the state for what is not equal is one of a character. -/
theorem truncated_recognises (hs : ∀ c ∈ s, c ≠ 0) (hlong : 4294967296 ≤ s.length + 1) (hp : p.At classes s 0)
    (hzero : (0 : UInt8).toNat < classes.length) (hknown : ∀ c ∈ s, c.toNat < classes.length) :
    ∃ x ∈ s, ¬ Recognises p s [0, x] := by
  have hlt : (s.length + 1) % 4294967296 < s.length := by omega
  refine ⟨s[(s.length + 1) % 4294967296], List.getElem_mem hlt, fun h => ?_⟩
  have hstuck : ¬ Advances s 0 0 := by
    rintro ⟨x, hx, hcase⟩
    exact hs x (List.mem_of_getElem? hx) (tolower_eq_zero.mp hcase.symm)
  obtain ⟨q, hq, hat, -⟩ := parserFeed_strcmpi hp (by omega) hzero
  rw [target, if_neg hstuck] at hat
  obtain ⟨r, hr, -, ht, -⟩ := parserFeed_strcmpi hat (by omega) (hknown _ (List.getElem_mem hlt))
  obtain ⟨r', hr', hreported⟩ := h [0] _ [] rfl
  have hrun : Runs.run parserFeed p ([0] ++ [s[(s.length + 1) % 4294967296]]) = .ok r :=
    Runs.run_concat_ok.mpr ⟨q, by rw [Runs.run_cons, hq]; rfl, hr⟩
  cases hrun.symm.trans hr'
  have hdisagrees : ¬ Agrees s ([0] ++ [s[(s.length + 1) % 4294967296]]) := fun hagrees =>
    hstuck ((@agrees_concat s [] 0).mp (agrees_concat.mp hagrees).1).2
  have hneq := hreported.neq.mpr ⟨fun h => hdisagrees (mayeq_iff.mp h).1, fun h => hdisagrees (eq_iff.mp h).1⟩
  have hadvances : Advances s ((s.length + 1) % 4294967296) s[(s.length + 1) % 4294967296] :=
    ⟨_, List.getElem?_eq_getElem hlt, rfl⟩
  rw [ht, value_inj, verdict, if_pos hadvances] at hneq
  split_ifs at hneq

/-- A parser that takes the classes of `parser_no_classes` compares every text without the byte 0xFF as it should,
exactly if the numbers of its states fit into an `unsigned`. The byte 0xFF it never survives. -/
theorem strcmpi_recognises_iff (hs : ∀ c ∈ s, c ≠ 0 ∧ c < 128)
    (hp : parserInit parserNoClasses (parserUtilsStrcmpi s true) true = some p) :
    ((∀ w, (0xFF : UInt8) ∉ w → Recognises p s w) ↔ s.length + 1 < 4294967296) ∧
      ∀ w, (0xFF : UInt8) ∈ w → ¬ Recognises p s w := by
  have hat : p.At parserNoClasses s 0 := by
    cases hp
    exact ⟨rfl, rfl, rfl⟩
  have hlen : parserNoClasses.length = 255 := List.length_replicate
  have hknown : ∀ c ∈ s, c ≠ 0xFF := by
    rintro _ hc rfl
    exact absurd (hs _ hc).2 (by decide)
  refine ⟨⟨fun h => ?_, fun hshort w hw => ?_⟩, fun w hw => unknown_stops hat hw hlen.le⟩
  · by_contra hlong
    obtain ⟨x, hx, hbroken⟩ := truncated_recognises (fun c hc => (hs c hc).1) (Nat.le_of_not_lt hlong) hat
      ((noClasses_known 0).mpr (by decide)) (fun c hc => (noClasses_known c).mpr (hknown c hc))
    refine hbroken (h [0, x] ?_)
    simp only [List.mem_cons, List.not_mem_nil, or_false, not_or]
    exact ⟨by decide, (hknown x hx).symm⟩
  · exact strcmpi_recognises hshort hat fun c hc => (noClasses_known c).mpr fun he => hw (he ▸ hc)

theorem strcmpi_recognises_iff_foo : ∃ p, parserInit parserNoClasses (parserUtilsStrcmpi [102, 111, 111] true) true = some p ∧
    Recognises p [102, 111, 111] [102, 79, 111, 88, 121] := by
  obtain ⟨p, hp⟩ : ∃ p, parserInit parserNoClasses (parserUtilsStrcmpi [102, 111, 111] true) true = some p := ⟨_, rfl⟩
  have hs : ∀ c ∈ ([102, 111, 111] : List UInt8), c ≠ 0 ∧ c < 128 := by
    simp only [List.forall_mem_cons]
    exact ⟨by decide, by decide, by decide, List.forall_mem_nil _⟩
  exact ⟨p, hp, (strcmpi_recognises_iff hs hp).1.mpr (by decide) _ (by decide)⟩

theorem strcmpi_recognises_broken :
    ∃ p, parserInit parserNoClasses (parserUtilsStrcmpi [102, 111, 111] true) true = some p ∧
      parserFeed p 0xFF = .error .outOfTable ∧ ¬ Recognises p [102, 111, 111] [0xFF] := by
  refine ⟨_, rfl, rfl, fun h => ?_⟩
  obtain ⟨q, hq, -⟩ := h [] 0xFF [] rfl
  cases hq

end Recognition

end Smtpd.Parsing
