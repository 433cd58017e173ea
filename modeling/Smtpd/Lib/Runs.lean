import Smtpd.Lib.Checked
import Mathlib.Data.List.Induction

namespace Runs

open Checked

variable {φ σ ε : Type*}

/-- A system that takes one event after the other and may stop with a fault. -/
def run (step : σ → ε → Except φ σ) (s : σ) (es : List ε) : Except φ σ := es.foldlM step s

variable {step : σ → ε → Except φ σ} {s t : σ} {es : List ε}

@[simp] theorem run_nil (s : σ) : run step s [] = .ok s := rfl

theorem run_cons (s : σ) (e : ε) (es : List ε) : run step s (e :: es) = step s e >>= fun t => run step t es := rfl

theorem run_append (s : σ) (xs ys : List ε) :
    run step s (xs ++ ys) = run step s xs >>= fun t => run step t ys := by
  simp [run, List.foldlM_append]

theorem run_concat_ok {e : ε} :
    run step s (es ++ [e]) = .ok t ↔ ∃ u, run step s es = .ok u ∧ step u e = .ok t := by
  rw [run_append]
  cases h : run step s es with
  | error f => simp [Bind.bind, Except.bind]
  | ok u => cases hs : step u e <;> simp [run, hs]

/-- Every step of the run is taken in a state and on an event that meet the condition. -/
def Meets (step : σ → ε → Except φ σ) (C : σ → ε → Prop) (s : σ) (es : List ε) : Prop :=
  ∀ xs e ys t, es = xs ++ e :: ys → run step s xs = .ok t → C t e

theorem Meets.concat {C : σ → ε → Prop} {e : ε} (h : Meets step C s (es ++ [e])) :
    Meets step C s es ∧ ∀ t, run step s es = .ok t → C t e :=
  ⟨fun xs x ys t he ht => h xs x (ys ++ [e]) t (by simp [he]) ht, fun t ht => h es e [] t rfl ht⟩

theorem Meets.left {C : σ → ε → Prop} {xs ys : List ε} (h : Meets step C s (xs ++ ys)) : Meets step C s xs :=
  fun zs e ws t he ht => h zs e (ws ++ ys) t (by simp [he]) ht

theorem meets_nil (C : σ → ε → Prop) (s : σ) : Meets step C s [] := by
  intro xs e ys t he
  simp at he

theorem meets_concat {C : σ → ε → Prop} {e : ε} (h : run step s es = .ok t) :
    Meets step C s (es ++ [e]) ↔ Meets step C s es ∧ C t e := by
  refine ⟨fun hm => ⟨hm.concat.1, hm.concat.2 t h⟩, ?_⟩
  rintro ⟨hm, hc⟩ xs x ys u heq hu
  rcases List.eq_nil_or_concat ys with rfl | ⟨ys, y, rfl⟩
  · obtain ⟨rfl, hx⟩ := List.append_inj' heq rfl
    obtain rfl := (List.cons.inj hx).1
    obtain rfl : t = u := Except.ok.inj (h.symm.trans hu)
    exact hc
  · have heq' : es ++ [e] = (xs ++ x :: ys) ++ [y] := by simpa using heq
    obtain ⟨rfl, -⟩ := List.append_inj' heq' rfl
    exact hm xs x ys u rfl hu

theorem meets_cons {C : σ → ε → Prop} {e : ε} :
    Meets step C s (e :: es) ↔ C s e ∧ ∀ t, step s e = .ok t → Meets step C t es := by
  constructor
  · intro h
    refine ⟨h [] e es s rfl rfl, fun t ht xs x ys u heq hu => ?_⟩
    refine h (e :: xs) x ys u (by rw [heq]; rfl) ?_
    rw [run_cons, ht]
    exact hu
  · rintro ⟨hc, h⟩ xs x ys u heq hu
    cases xs with
    | nil =>
      cases heq
      cases hu
      exact hc
    | cons x' xs =>
      cases heq
      rw [run_cons] at hu
      obtain ⟨t, ht, hu⟩ := bind_ok hu
      exact h t ht xs x ys u rfl hu

theorem Meets.of_events {C : σ → ε → Prop} (h : ∀ e ∈ es, ∀ t, C t e) : Meets step C s es := by
  intro xs e ys t he _
  exact h e (by simp [he]) t

theorem Meets.and {C D : σ → ε → Prop} (hc : Meets step C s es) (hd : Meets step D s es) :
    Meets step (fun t e => C t e ∧ D t e) s es :=
  fun xs e ys t he ht => ⟨hc xs e ys t he ht, hd xs e ys t he ht⟩

theorem Meets.mono {C D : σ → ε → Prop} (h : Meets step C s es) (hcd : ∀ t e, C t e → D t e) :
    Meets step D s es :=
  fun xs e ys t he ht => hcd t e (h xs e ys t he ht)

/-- The condition, checked along the run. -/
def meetsAll (step : σ → ε → Except φ σ) (C : σ → ε → Prop) [∀ s e, Decidable (C s e)] :
    σ → List ε → Bool
  | _, [] => true
  | s, e :: es => decide (C s e) && match step s e with
    | .ok t => meetsAll step C t es
    | .error _ => true

theorem Meets.of_check {C : σ → ε → Prop} [∀ s e, Decidable (C s e)]
    (h : meetsAll step C s es = true) : Meets step C s es := by
  intro xs e ys t he ht
  induction xs generalizing s es with
  | nil =>
    subst he
    cases ht
    simp only [List.nil_append, meetsAll, Bool.and_eq_true, decide_eq_true_eq] at h
    exact h.1
  | cons x xs ih =>
    subst he
    obtain ⟨u, hu, ht⟩ := bind_ok ht
    simp only [List.cons_append, meetsAll, hu, Bool.and_eq_true] at h
    exact ih h.2 rfl ht

/-- What holds at the start and is preserved by every step that meets the condition holds
after every run of such steps. The invariant may speak about the events so far. -/
theorem run_invariant {C : σ → ε → Prop} {I : List ε → σ → Prop} (start : I [] s)
    (preserved : ∀ xs e t u, run step s xs = .ok t → I xs t → C t e → step t e = .ok u →
      I (xs ++ [e]) u)
    (meets : Meets step C s es) (h : run step s es = .ok t) : I es t := by
  induction es using List.reverseRecOn generalizing t with
  | nil =>
    cases h
    exact start
  | append_singleton es e ih =>
    obtain ⟨u, hu, he⟩ := run_concat_ok.mp h
    obtain ⟨hm, hc⟩ := meets.concat
    exact preserved es e u t hu (ih hm hu) (hc u hu) he

/-- What holds at the start and is preserved by every step holds after every run. -/
theorem run_always {I : List ε → σ → Prop} (start : I [] s)
    (preserved : ∀ xs e t u, run step s xs = .ok t → I xs t → step t e = .ok u → I (xs ++ [e]) u)
    (h : run step s es = .ok t) : I es t := by
  refine run_invariant (C := fun _ _ => True) start ?_ (Meets.of_events fun _ _ _ => trivial) h
  intro xs e t u hxs hi _ hstep
  exact preserved xs e t u hxs hi hstep

section Observed

variable {ω : Type} {observe : σ → ω} {own : ε → Bool} {next : ω → ε → ω}

/-- What is observed of the states, where only some events move it, is what these events make of it. -/
theorem run_observed (moves : ∀ s e t, step s e = .ok t → own e = true → observe t = next (observe s) e)
    (keeps : ∀ s e t, step s e = .ok t → own e = false → observe t = observe s) (h : run step s es = .ok t) :
    observe t = (es.filter own).foldl next (observe s) := by
  induction es generalizing s with
  | nil =>
    cases h
    rfl
  | cons e es ih =>
    obtain ⟨u, hu, h⟩ := bind_ok h
    have hrest := ih h
    cases he : own e with
    | true =>
      rw [List.filter_cons_of_pos he, List.foldl_cons, hrest, moves s e u hu he]
    | false =>
      have hneg : ¬ own e = true := by simp [he]
      rw [List.filter_cons_of_neg hneg, hrest, keeps s e u hu he]

/-- Two runs with the same events of this kind look the same. -/
theorem observed_congr (moves : ∀ s e t, step s e = .ok t → own e = true → observe t = next (observe s) e)
    (keeps : ∀ s e t, step s e = .ok t → own e = false → observe t = observe s) {s' t' : σ} {es' : List ε}
    (h : run step s es = .ok t) (h' : run step s' es' = .ok t') (hstart : observe s = observe s')
    (hes : es.filter own = es'.filter own) : observe t = observe t' := by
  rw [run_observed moves keeps h, run_observed moves keeps h', hstart, hes]

end Observed

/-- A run whose steps meet the condition keeps an invariant, and fails in no other way than they do. -/
theorem run_ensures {I : σ → Prop} {C : σ → ε → Prop} {F : φ → Prop}
    (keeps : ∀ s e, I s → C s e → Ensures I F (step s e)) (hs : I s) (meets : Meets step C s es) :
    Ensures I F (run step s es) := by
  induction es generalizing s with
  | nil => exact hs
  | cons e es ih =>
    obtain ⟨hc, hrest⟩ := meets_cons.mp meets
    have hstep := keeps s e hs hc
    rw [run_cons]
    cases hu : step s e with
    | error f =>
      rw [hu] at hstep
      exact hstep
    | ok u =>
      rw [hu] at hstep
      exact ih hstep (hrest u hu)

/-- A run whose steps keep an invariant, and do not fail where it holds, does not fail. -/
theorem run_total {I : σ → Prop} {C : ε → Prop}
    (total : ∀ s e, I s → C e → Ensures I (fun _ => False) (step s e)) (hs : I s) (hes : ∀ e ∈ es, C e) :
    Ensures I (fun _ => False) (run step s es) := by
  have hmeets : Meets step (fun _ e => C e) s es := Meets.of_events fun e he _ => hes e he
  exact run_ensures total hs hmeets

/-- Where exactly the steps that do not meet the condition end in a fault, so do exactly the runs with such a step. -/
theorem run_avoids {I : σ → Prop} {C : σ → ε → Prop} {fault : φ}
    (keeps : ∀ s e, I s → C s e → Ensures I (fun f => f ≠ fault) (step s e))
    (hits : ∀ s e, I s → ¬ C s e → step s e = .error fault) (hs : I s) :
    run step s es ≠ .error fault ↔ Meets step C s es := by
  constructor
  · intro h
    induction es generalizing s with
    | nil => exact meets_nil C s
    | cons e es ih =>
      rw [run_cons] at h
      have hc : C s e := by
        by_contra hc
        rw [hits s e hs hc] at h
        exact h rfl
      refine meets_cons.mpr ⟨hc, fun u hu => ?_⟩
      have hstep := keeps s e hs hc
      rw [hu] at h hstep
      exact ih hstep h
  · intro meets h
    have hrun := run_ensures keeps hs meets
    rw [h] at hrun
    exact hrun rfl

/-- A run whose steps follow those of an abstract machine, without failing, ends where the machine does. -/
theorem run_simulates {τ : Type*} {next : τ → ε → τ} {R : σ → τ → Prop}
    (simulates : ∀ s t e, R s t → Ensures (fun s' => R s' (next t e)) (fun _ => False) (step s e)) {t : τ} (h : R s t) :
    Ensures (fun s' => R s' (es.foldl next t)) (fun _ => False) (run step s es) := by
  induction es generalizing s t with
  | nil => exact h
  | cons e es ih => exact Ensures.bind (simulates s t e h) fun s' hs' => ih hs'

end Runs
