import Mathlib.Data.List.Perm.Subperm
import Mathlib.Data.List.Perm.Basic
import Mathlib.Data.List.Nodup

namespace Shares

variable {α : Type*} {table table' table₁ p q r : List α} {a b : α} {xs ys : List (List α)}

/-- The shares of a table: whatever is in one of them is in the table, and in no other. -/
structure Apart (table : List α) (shares : List (List α)) : Prop where
  nodup : table.Nodup
  within : shares.flatten.Subperm table

/-- While the table changes, the holder of one share comes to hold another, and nothing of what the others hold is
taken from the table. -/
def Turns (table p table' q : List α) : Prop :=
  table.Nodup → table'.Nodup ∧ ∀ rest, (p ++ rest).Subperm table → (q ++ rest).Subperm table'

theorem Turns.refl (table p : List α) : Turns table p table p := fun h => ⟨h, fun _ => id⟩

theorem Turns.trans (h : Turns table p table₁ q) (h' : Turns table₁ q table' r) : Turns table p table' r := by
  intro hnodup
  obtain ⟨hnodup₁, hq⟩ := h hnodup
  obtain ⟨hnodup', hr⟩ := h' hnodup₁
  exact ⟨hnodup', fun rest hrest => hr rest (hq rest hrest)⟩

theorem Turns.take (p : List α) (h : a ∉ table) : Turns table p (a :: table) (a :: p) := by
  intro hnodup
  exact ⟨List.nodup_cons.mpr ⟨h, hnodup⟩, fun rest hrest => (List.subperm_cons a).mpr hrest⟩

theorem Turns.giveBack [DecidableEq α] (table p : List α) (a : α) : Turns table (a :: p) (table.erase a) p := by
  intro hnodup
  refine ⟨hnodup.erase a, fun rest hrest => ?_⟩
  have herased := hrest.erase a
  rwa [List.cons_append, List.erase_cons_head] at herased

/-- What is let go without being given back stays in the table. -/
theorem Turns.keep (table : List α) (h : q.Subperm p) : Turns table p table q :=
  fun hnodup => ⟨hnodup, fun rest hrest => ((List.subperm_append_right rest).mpr h).trans hrest⟩

/-- What is held besides does not matter. -/
theorem Turns.frame (h : Turns table p table' q) (other : List α) : Turns table (p ++ other) table' (q ++ other) := by
  intro hnodup
  obtain ⟨hnodup', hq⟩ := h hnodup
  refine ⟨hnodup', fun rest hrest => ?_⟩
  rw [List.append_assoc] at hrest ⊢
  exact hq (other ++ rest) hrest

theorem flatten_middle (xs ys : List (List α)) (p : List α) :
    ((xs ++ p :: ys).flatten).Perm (p ++ (xs ++ ys).flatten) := by
  rw [List.flatten_append, List.flatten_cons, List.flatten_append]
  exact List.perm_append_comm_assoc xs.flatten p ys.flatten

/-- The holder of one share moves, and the shares are apart as before. -/
theorem Apart.turn (h : Apart table (xs ++ p :: ys)) (ht : Turns table p table' q) : Apart table' (xs ++ q :: ys) := by
  obtain ⟨hnodup, hq⟩ := ht h.nodup
  have hwithin := (flatten_middle xs ys p).symm.subperm.trans h.within
  exact ⟨hnodup, (flatten_middle xs ys q).subperm.trans (hq _ hwithin)⟩

theorem split_get {shares : List (List α)} {i : Nat} (hi : shares[i]? = some p) :
    shares = shares.take i ++ p :: shares.drop (i + 1) := by
  obtain ⟨hlt, hp⟩ := List.getElem?_eq_some_iff.mp hi
  rw [← hp, ← List.drop_eq_getElem_cons hlt, List.take_append_drop]

theorem set_get {shares : List (List α)} {i : Nat} (hi : shares[i]? = some p) (q : List α) :
    shares.set i q = shares.take i ++ q :: shares.drop (i + 1) := by
  rw [List.set_eq_take_append_cons_drop, if_pos (List.getElem?_eq_some_iff.mp hi).1]

theorem Apart.turn_get {shares : List (List α)} {i : Nat} (h : Apart table shares) (hi : shares[i]? = some p)
    (ht : Turns table p table' q) : Apart table' (shares.set i q) := by
  rw [set_get hi]
  rw [split_get hi] at h
  exact h.turn ht

/-- One share grows. -/
theorem flatten_set {shares : List (List α)} {i : Nat} (hi : shares[i]? = some p) (more : List α) :
    ((shares.set i (p ++ more)).flatten).Perm (shares.flatten ++ more) := by
  have hbefore := flatten_middle (shares.take i) (shares.drop (i + 1)) p
  rw [← split_get hi] at hbefore
  rw [set_get hi]
  refine (flatten_middle _ _ (p ++ more)).trans ?_
  rw [List.append_assoc]
  refine (List.Perm.append_left p List.perm_append_comm).trans ?_
  rw [← List.append_assoc]
  exact hbefore.symm.append_right more

theorem Apart.append (h : Apart table xs) (ht : Turns table [] table' q) : Apart table' (xs ++ [q]) := by
  refine @Apart.turn α table table' [] q xs [] ⟨h.nodup, ?_⟩ ht
  rw [List.flatten_append, List.flatten_cons, List.flatten_nil, List.append_nil, List.append_nil]
  exact h.within

theorem Apart.mem (h : Apart table xs) (hp : p ∈ xs) (ha : a ∈ p) : a ∈ table :=
  h.within.subset (List.mem_flatten.mpr ⟨p, hp, ha⟩)

/-- Nothing is in two shares, nor twice in one. -/
theorem Apart.pairwise (h : Apart table xs) : (∀ p ∈ xs, p.Nodup) ∧ xs.Pairwise List.Disjoint := by
  have hnodup : xs.flatten.Nodup := by
    obtain ⟨l, hperm, hsub⟩ := h.within
    exact hperm.nodup_iff.mp (h.nodup.sublist hsub)
  exact List.nodup_flatten.mp hnodup

theorem Apart.get_disjoint {i j : Nat} (h : Apart table xs) (hi : xs[i]? = some p) (hj : xs[j]? = some q) (hne : i ≠ j) :
    p.Disjoint q := by
  obtain ⟨hilt, rfl⟩ := List.getElem?_eq_some_iff.mp hi
  obtain ⟨hjlt, rfl⟩ := List.getElem?_eq_some_iff.mp hj
  have hpair := List.pairwise_iff_getElem.mp h.pairwise.2
  rcases Nat.lt_or_gt_of_ne hne with hlt | hlt
  · exact hpair i j hilt hjlt hlt
  · exact fun a ha hb => hpair j i hjlt hilt hlt hb ha

end Shares
