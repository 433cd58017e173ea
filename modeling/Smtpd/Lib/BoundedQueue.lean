import Mathlib.Data.List.Basic
import Mathlib.Tactic.SplitIfs

namespace BoundedQueue

variable {α : Type*} {n : Nat}

/-- A queue in a store of `n` places. What is taken leaves its place unused until the queue is
compacted or runs empty, so there may be less room than places that hold nothing. -/
@[ext] structure Queue (α : Type*) (n : Nat) where
  items : List α
  room : Nat
  bounded : items.length + room ≤ n
  rewound : items = [] → room = n

namespace Queue

def empty (α : Type*) (n : Nat) : Queue α n where
  items := []
  room := n
  bounded := by simp
  rewound := fun _ => rfl

/-- What there is room for joins the queue at its end; the rest is dropped. -/
def append (q : Queue α n) (xs : List α) : Queue α n where
  items := q.items ++ xs.take q.room
  room := q.room - xs.length
  bounded := by
    have hb := q.bounded
    simp only [List.length_append, List.length_take]
    omega
  rewound := by
    intro h
    obtain ⟨hitems, htaken⟩ := List.append_eq_nil_iff.mp h
    have hroom := q.rewound hitems
    have hlen := congrArg List.length htaken
    rw [List.length_take, List.length_nil] at hlen
    omega

/-- The items at the front leave the queue. -/
def drop (q : Queue α n) (k : Nat) : Queue α n where
  items := q.items.drop k
  room := if q.items.length ≤ k then n else q.room
  bounded := by
    have hb := q.bounded
    rw [List.length_drop]
    split <;> omega
  rewound := fun h => if_pos (List.drop_eq_nil_iff.mp h)

/-- All places that hold nothing can be used again. -/
def compact (q : Queue α n) : Queue α n where
  items := q.items
  room := n - q.items.length
  bounded := by
    have hb := q.bounded
    omega
  rewound := by
    intro h
    rw [h]
    rfl

/-- What there is no room for need not be offered. -/
theorem append_take_room (q : Queue α n) (xs : List α) : q.append (xs.take q.room) = q.append xs := by
  ext1
  · show q.items ++ (xs.take q.room).take q.room = q.items ++ xs.take q.room
    rw [List.take_take, Nat.min_self]
  · show q.room - (xs.take q.room).length = q.room - xs.length
    rw [List.length_take]
    omega

theorem append_full {q : Queue α n} (h : q.room = 0) (xs : List α) : q.append xs = q := by
  ext1
  · show q.items ++ xs.take q.room = q.items
    rw [h, List.take_zero, List.append_nil]
  · show q.room - xs.length = q.room
    omega

/-- More cannot be taken than there is. -/
theorem drop_min (q : Queue α n) (k : Nat) : q.drop (min k q.items.length) = q.drop k := by
  ext1
  · show q.items.drop (min k q.items.length) = q.items.drop k
    rw [List.drop_eq_drop_iff]
    omega
  · show (if q.items.length ≤ min k q.items.length then n else q.room) = if q.items.length ≤ k then n else q.room
    split_ifs <;> omega

theorem drop_nil {q : Queue α n} (h : q.items = []) (k : Nat) : q.drop k = q := by
  have hroom := q.rewound h
  ext1
  · show q.items.drop k = q.items
    rw [h, List.drop_nil]
  · show (if q.items.length ≤ k then n else q.room) = q.room
    rw [h, hroom]
    exact if_pos (Nat.zero_le k)

end Queue

end BoundedQueue
