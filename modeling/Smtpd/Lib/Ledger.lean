import Mathlib.Data.Multiset.AddSub

namespace Ledger

variable {α : Type*} [DecidableEq α]

/-- What happens to resources that are taken and given back. -/
inductive Move (α : Type*)
  | take (a : α)
  | free (a : α)
deriving DecidableEq, Repr

/-- The resources held after a move. Only what is held can be given back. -/
def book (held : Multiset α) : Move α → Option (Multiset α)
  | .take a => some (a ::ₘ held)
  | .free a => if a ∈ held then some (held.erase a) else none

/-- The resources held after some moves, unless one of them gave back what was not held. -/
def balance (held : Multiset α) (moves : List (Move α)) : Option (Multiset α) := moves.foldlM book held

variable {held held' : Multiset α} {moves moves' : List (Move α)} {a : α}

@[simp] theorem balance_nil (held : Multiset α) : balance held [] = some held := rfl

theorem balance_append (held : Multiset α) (moves moves' : List (Move α)) :
    balance held (moves ++ moves') = (balance held moves).bind fun held => balance held moves' := by
  rw [balance, List.foldlM_append]
  rfl

@[simp] theorem balance_take (held : Multiset α) (a : α) (moves : List (Move α)) :
    balance held (.take a :: moves) = balance (a ::ₘ held) moves := rfl

theorem balance_free (h : a ∈ held) (moves : List (Move α)) :
    balance held (.free a :: moves) = balance (held.erase a) moves := by
  simp [balance, book, h]

theorem balance_takes (held : Multiset α) (l : List α) :
    balance held (l.map .take) = some ((l : Multiset α) + held) := by
  induction l generalizing held with
  | nil => simp
  | cons a l ih =>
    rw [List.map_cons, balance_take, ih, ← Multiset.cons_coe, Multiset.cons_add, Multiset.add_cons]

theorem balance_frees (held : Multiset α) (l : List α) :
    balance ((l : Multiset α) + held) (l.map .free) = some held := by
  induction l with
  | nil => simp
  | cons a l ih =>
    have hmem : a ∈ ((a :: l : List α) : Multiset α) + held := by simp
    rw [List.map_cons, balance_free hmem, ← Multiset.cons_coe, Multiset.cons_add, Multiset.erase_cons_head, ih]

/-- What else is held does not matter. -/
theorem balance_frame (other : Multiset α) (h : balance held moves = some held') :
    balance (held + other) moves = some (held' + other) := by
  induction moves generalizing held with
  | nil =>
    cases h
    rfl
  | cons m moves ih =>
    cases m with
    | take a =>
      rw [balance_take] at h ⊢
      rw [← Multiset.cons_add]
      exact ih h
    | free a =>
      by_cases ha : a ∈ held
      · rw [balance_free ha] at h
        rw [balance_free (Multiset.mem_add.mpr (Or.inl ha)), Multiset.erase_add_left_pos other ha]
        exact ih h
      · simp [balance, book, ha] at h

/-- Everything is given back as often as it was held or taken, up to what is still held. -/
theorem balance_count (h : balance held moves = some held') (a : α) :
    held.count a + moves.count (.take a) = held'.count a + moves.count (.free a) := by
  induction moves generalizing held with
  | nil =>
    cases h
    rfl
  | cons m moves ih =>
    cases m with
    | take b =>
      rw [balance_take] at h
      have hrest := ih h
      by_cases he : b = a
      · subst he
        rw [Multiset.count_cons_self] at hrest
        simp only [List.count_cons, beq_iff_eq, reduceCtorEq, if_false, if_true]
        omega
      · rw [Multiset.count_cons_of_ne (Ne.symm he)] at hrest
        simp only [List.count_cons, beq_iff_eq, Move.take.injEq, reduceCtorEq, he, if_false]
        omega
    | free b =>
      by_cases hb : b ∈ held
      · rw [balance_free hb] at h
        have hrest := ih h
        have hpos : b = a → 1 ≤ held.count a := fun he => he ▸ Multiset.one_le_count_iff_mem.mpr hb
        by_cases he : b = a
        · subst he
          have hp := hpos rfl
          rw [Multiset.count_erase_self] at hrest
          simp only [List.count_cons, beq_iff_eq, reduceCtorEq, if_false, if_true]
          omega
        · rw [Multiset.count_erase_of_ne (Ne.symm he)] at hrest
          simp only [List.count_cons, beq_iff_eq, Move.free.injEq, reduceCtorEq, he, if_false]
          omega
      · simp [balance, book, hb] at h

end Ledger
