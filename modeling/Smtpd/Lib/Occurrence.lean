import Mathlib.Data.List.Infix
import Mathlib.Data.List.Range

namespace Occurrence

variable {α : Type*} [DecidableEq α]

/-- How much of the stream is read when the pattern has just occurred for the first time. -/
def firstEnd (pattern stream : List α) : Option Nat :=
  (List.range (stream.length + 1)).find? (fun n => pattern.isSuffixOf (stream.take n))

theorem firstEnd_eq_some_iff {pattern stream : List α} {n : Nat} :
    firstEnd pattern stream = some n ↔
      n ≤ stream.length ∧ pattern <:+ stream.take n ∧ ∀ m < n, ¬ pattern <:+ stream.take m := by
  unfold firstEnd
  rw [List.find?_range_eq_some]
  simp only [List.isSuffixOf_iff_suffix, List.mem_range, Bool.not_eq_true', Bool.eq_false_iff, ne_eq]
  constructor
  · rintro ⟨hs, hn, hm⟩
    exact ⟨by omega, hs, hm⟩
  · rintro ⟨hn, hs, hm⟩
    exact ⟨hs, by omega, hm⟩

theorem firstEnd_eq_none_iff {pattern stream : List α} :
    firstEnd pattern stream = none ↔ ∀ n ≤ stream.length, ¬ pattern <:+ stream.take n := by
  unfold firstEnd
  rw [List.find?_range_eq_none]
  simp only [Bool.not_eq_true', Bool.eq_false_iff, ne_eq, List.isSuffixOf_iff_suffix]
  exact forall_congr' fun n => by rw [Nat.lt_succ_iff]

/-- The first occurrence cuts the stream in front of the pattern. -/
theorem firstEnd_split {pattern stream : List α} {n : Nat} (h : firstEnd pattern stream = some n) :
    ∃ front rest, stream = front ++ pattern ++ rest ∧ n = front.length + pattern.length := by
  obtain ⟨hn, ⟨front, hf⟩, -⟩ := firstEnd_eq_some_iff.mp h
  refine ⟨front, stream.drop n, ?_, ?_⟩
  · rw [hf, List.take_append_drop]
  · have hl := congrArg List.length hf
    simp only [List.length_append, List.length_take] at hl
    omega

end Occurrence
