import Mathlib.Logic.Function.Basic
import Mathlib.Data.List.Flatten

namespace Leases

variable {κ α : Type*} [DecidableEq κ]

/-- Keys are taken for a value, and returned. -/
inductive Event (κ α : Type*)
  | taken (k : κ) (a : α)
  | returned (k : κ) (a : α)
deriving DecidableEq, Repr

def Event.key : Event κ α → κ
  | .taken k _ | .returned k _ => k

/-- A history in which a key is taken only when it is free and returned only for the value it was taken for,
with the values that are held after it. -/
inductive Holds : List (Event κ α) → (κ → Option α) → Prop
  | nil : Holds [] fun _ => none
  | taken {es m k a} : Holds es m → m k = none → Holds (es ++ [.taken k a]) (Function.update m k (some a))
  | returned {es m k a} : Holds es m → m k = some a → Holds (es ++ [.returned k a]) (Function.update m k none)

def Event.takenFor (k : κ) : Event κ α → Option α
  | .taken k' a => if k' = k then some a else none
  | .returned _ _ => none

/-- The values that a key is taken for, time after time. -/
def takenFor (k : κ) (es : List (Event κ α)) : List α := es.filterMap (Event.takenFor k)

variable {es : List (Event κ α)} {m : κ → Option α}

theorem takenFor_append (k : κ) (es es' : List (Event κ α)) : takenFor k (es ++ es') = takenFor k es ++ takenFor k es' :=
  List.filterMap_append

/-- The events of one key: it is taken and returned, time after time, and may be held at the end. -/
theorem Holds.events_of_key (h : Holds es m) (k : κ) :
    ∃ as : List α, takenFor k es = as ++ (m k).toList ∧ es.filter (fun e => e.key = k) =
      (as.flatMap fun a => [.taken k a, .returned k a]) ++ (m k).toList.map (.taken k) := by
  induction h with
  | nil => exact ⟨[], rfl, rfl⟩
  | @taken es m k' a _ hfree ih =>
    obtain ⟨as, hfor, has⟩ := ih
    refine ⟨as, ?_⟩
    rw [takenFor_append, hfor, List.filter_append, has]
    by_cases hk : k' = k
    · subst hk
      simp [Event.key, takenFor, Event.takenFor, hfree]
    · simp [Event.key, takenFor, Event.takenFor, hk, Function.update_of_ne (Ne.symm hk)]
  | @returned es m k' a _ hheld ih =>
    obtain ⟨as, hfor, has⟩ := ih
    rw [takenFor_append, hfor, List.filter_append, has]
    by_cases hk : k' = k
    · subst hk
      refine ⟨as ++ [a], ?_⟩
      simp [Event.key, takenFor, Event.takenFor, hheld]
    · refine ⟨as, ?_⟩
      simp [Event.key, takenFor, Event.takenFor, hk, Function.update_of_ne (Ne.symm hk)]

/-- When what is still held of a key has been returned, its events are pairs. -/
theorem Holds.pairs (h : Holds es m) (k : κ) :
    (es.filter fun e => e.key = k) ++ (m k).toList.map (.returned k) =
      (takenFor k es).flatMap fun a => [.taken k a, .returned k a] := by
  obtain ⟨as, hfor, has⟩ := h.events_of_key k
  rw [has, hfor, List.flatMap_append, List.append_assoc]
  cases m k <;> rfl

end Leases
