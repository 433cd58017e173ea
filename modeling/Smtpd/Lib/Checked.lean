import Mathlib.Logic.Basic

namespace Checked

universe u v

theorem bind_ok {ε : Type u} {α β : Type v} {x : Except ε α} {f : α → Except ε β} {b : β}
    (h : (x >>= f) = .ok b) : ∃ a, x = .ok a ∧ f a = .ok b := by
  cases x with
  | error e => cases h
  | ok a => exact ⟨a, rfl, h⟩

@[simp] theorem ok_bind {ε : Type u} {α β : Type v} (a : α) (f : α → Except ε β) :
    ((Except.ok a : Except ε α) >>= f) = f a := rfl

@[simp] theorem error_bind {ε : Type u} {α β : Type v} (e : ε) (f : α → Except ε β) :
    ((Except.error e : Except ε α) >>= f) = .error e := rfl

/-- What only puts a result into shape does not fail. -/
theorem error_of_shaped {ε : Type u} {α β : Type v} {x : Except ε α} {g : α → β} {e : ε}
    (h : (x >>= fun a => .ok (g a)) = .error e) : x = .error e := by
  cases x with
  | error e' => exact congrArg Except.error (Except.error.inj h)
  | ok a => cases h

@[simp] theorem pure_eq_ok {ε α : Type*} (a : α) : (pure a : Except ε α) = .ok a := rfl

/-- A partial read, where a missing value is the given fault. -/
def demand {ε α : Type*} (fault : ε) : Option α → Except ε α
  | some a => .ok a
  | none => .error fault

@[simp] theorem demand_some {ε α : Type*} (fault : ε) (a : α) :
    demand fault (some a) = .ok a := rfl

theorem demand_ok {ε α : Type*} {fault : ε} {x : Option α} {a : α}
    (h : demand fault x = .ok a) : x = some a := by
  cases x with
  | none => cases h
  | some b => exact congrArg some (Except.ok.inj h)

theorem mapM_ok {ε α β : Type*} {f : α → Except ε β} {g : α → β} {l : List α} (h : ∀ a ∈ l, f a = .ok (g a)) :
    l.mapM f = .ok (l.map g) := by
  induction l with
  | nil => rfl
  | cons a l ih =>
    have hrest := ih fun b hb => h b (List.mem_cons_of_mem a hb)
    rw [List.mapM_cons, h a List.mem_cons_self, ok_bind, hrest, ok_bind]
    rfl

theorem ok_of_toOption {ε α : Type*} {x : Except ε α} (h : x.toOption.isSome = true) :
    ∃ a, x = .ok a := by
  cases x with
  | error e => cases h
  | ok a => exact ⟨a, rfl⟩

theorem ok_of_any {ε α : Type*} {x : Except ε α} {P : α → Prop} [DecidablePred P]
    (h : (x.toOption.any fun a => decide (P a)) = true) : ∃ a, x = .ok a ∧ P a := by
  cases x with
  | error e => cases h
  | ok a => exact ⟨a, rfl, of_decide_eq_true h⟩

section Ensures

variable {ε : Type u} {α β : Type v} {P Q : α → Prop} {F : ε → Prop} {x : Except ε α}

/-- A computation gives one of these values, or it fails in one of these ways. -/
def Ensures (Q : α → Prop) (F : ε → Prop) : Except ε α → Prop
  | .ok a => Q a
  | .error e => F e

theorem ensures_iff :
    Ensures Q F x ↔ (∀ a, x = .ok a → Q a) ∧ ∀ e, x = .error e → F e := by
  cases x <;> simp [Ensures]

theorem Ensures.mono (h : Ensures P F x) (hpq : ∀ a, P a → Q a) : Ensures Q F x := by
  cases x with
  | error e => exact h
  | ok a => exact hpq a h

theorem Ensures.weaken {G : ε → Prop} (h : Ensures Q F x) (hfg : ∀ e, F e → G e) : Ensures Q G x := by
  cases x with
  | error e => exact hfg e h
  | ok a => exact h

/-- What is known of the values of a computation that fails in these ways only. -/
theorem Ensures.of_ok (h : Ensures (fun _ => True) F x) (hq : ∀ a, x = .ok a → Q a) :
    Ensures Q F x := by
  cases x with
  | error e => exact h
  | ok a => exact hq a rfl

theorem ensures_of_exists (h : ∃ a, x = .ok a ∧ Q a) : Ensures Q F x := by
  obtain ⟨a, rfl, ha⟩ := h
  exact ha

theorem ensures_of_ok (h : ∃ a, x = .ok a) : Ensures (fun _ => True) F x := by
  obtain ⟨a, rfl⟩ := h
  exact trivial

theorem Ensures.bind {R : β → Prop} {f : α → Except ε β} (h : Ensures P F x)
    (hf : ∀ a, P a → Ensures R F (f a)) : Ensures R F (x >>= f) := by
  cases x with
  | error e => exact h
  | ok a => exact hf a h

theorem ensures_demand {fault : ε} (hf : F fault) (o : Option α) :
    Ensures (fun a => o = some a) F (demand fault o) := by
  cases o with
  | none => exact hf
  | some a => rfl

theorem ensures_demand_some {fault : ε} {o : Option α} {a : α} (h : o = some a) (ha : Q a) :
    Ensures Q F (demand fault o) := by
  rw [h]
  exact ha

/-- A computation that has no way to fail has a value. -/
theorem Ensures.exists_ok (h : Ensures Q (fun _ => False) x) : ∃ a, x = .ok a ∧ Q a := by
  cases x with
  | error e => exact absurd h id
  | ok a => exact ⟨a, rfl, h⟩

theorem ensures_ite {c : Prop} [Decidable c] {y : Except ε α} (hx : c → Ensures Q F x)
    (hy : ¬ c → Ensures Q F y) : Ensures Q F (if c then x else y) := by
  by_cases h : c
  · rw [if_pos h]
    exact hx h
  · rw [if_neg h]
    exact hy h

theorem ensures_foldlM {f : α → β → Except ε α} (hf : ∀ a b, P a → Ensures P F (f a b)) (bs : List β)
    {a : α} (ha : P a) : Ensures P F (bs.foldlM f a) := by
  induction bs generalizing a with
  | nil => exact ha
  | cons b bs ih => exact Ensures.bind (hf a b ha) fun a' ha' => ih ha'

end Ensures

end Checked
