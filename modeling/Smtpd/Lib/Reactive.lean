import Smtpd.Lib.Runs

namespace Reactive

open Checked Runs

universe u

variable {φ σ ι ω α : Type u} {react : Nat → σ → ι → Except φ (σ × ω)} {observe : Nat → σ → ι → List α} {s t : σ}
  {inputs more : List ι} {i : ι}

/-- One reaction, by the number of inputs before it. -/
def step (react : Nat → σ → ι → Except φ (σ × ω)) (s : σ) (input : ι × Nat) : Except φ σ := do
  let (s, _) ← react input.2 s input.1
  .ok s

/-- The state of a machine that has reacted to some inputs, unless it has failed at one. -/
def after (react : Nat → σ → ι → Except φ (σ × ω)) (s : σ) (inputs : List ι) : Except φ σ :=
  run (step react) s inputs.zipIdx

/-- The reaction to the last input. A machine that has failed does not react any more. -/
def last (react : Nat → σ → ι → Except φ (σ × ω)) (s : σ) (inputs : List ι) : Option ω :=
  match inputs.getLast?, after react s inputs.dropLast with
  | some input, .ok s => (react inputs.dropLast.length s input).toOption.map Prod.snd
  | _, _ => none

theorem after_append : after react s (inputs ++ more) =
    after react s inputs >>= fun t => run (step react) t (more.zipIdx inputs.length) := by
  rw [after, List.zipIdx_append, run_append, Nat.zero_add]
  rfl

theorem after_concat : after react s (inputs ++ [i]) =
    after react s inputs >>= fun t => step react t (i, inputs.length) := by
  rw [after_append]
  apply bind_congr
  intro t
  exact bind_pure _

/-- A machine has come to where it is from where it was before. -/
theorem after_prefix (h : after react s (inputs ++ more) = .ok t) : ∃ u, after react s inputs = .ok u := by
  rw [after_append] at h
  obtain ⟨u, hu, -⟩ := bind_ok h
  exact ⟨u, hu⟩

theorem last_concat (h : after react s inputs = .ok t) :
    last react s (inputs ++ [i]) = (react inputs.length t i).toOption.map Prod.snd := by
  rw [last, List.getLast?_concat, List.dropLast_concat, h]

theorem last_failed {f : φ} (h : after react s inputs = .error f) : last react s (inputs ++ [i]) = none := by
  rw [last, List.getLast?_concat, List.dropLast_concat, h]

theorem after_react {t' : σ} {reaction : ω} (h : after react s inputs = .ok t)
    (hreact : react inputs.length t i = .ok (t', reaction)) :
    after react s (inputs ++ [i]) = .ok t' ∧ last react s (inputs ++ [i]) = some reaction := by
  rw [after_concat, last_concat h, h, ok_bind, step, hreact]
  exact ⟨rfl, rfl⟩

/-- What can be observed of a machine from its `k`-th input on. The input at which it fails is the last that it has. -/
def observedFrom (react : Nat → σ → ι → Except φ (σ × ω)) (observe : Nat → σ → ι → List α) (k : Nat) (s : σ) :
    List ι → List α
  | [] => []
  | i :: inputs => observe k s i ++ match react k s i with
    | .ok (s, _) => observedFrom react observe (k + 1) s inputs
    | .error _ => []

def observed (react : Nat → σ → ι → Except φ (σ × ω)) (observe : Nat → σ → ι → List α) (s : σ) (inputs : List ι) : List α :=
  observedFrom react observe 0 s inputs

theorem observedFrom_concat (k : Nat) (s : σ) : observedFrom react observe k s (inputs ++ [i]) =
    observedFrom react observe k s inputs ++ match run (step react) s (inputs.zipIdx k) with
      | .ok t => observe (k + inputs.length) t i
      | .error _ => [] := by
  induction inputs generalizing k s with
  | nil =>
    rw [List.nil_append, observedFrom, observedFrom]
    cases react k s i <;> exact List.append_nil _
  | cons first inputs ih =>
    rw [List.cons_append, observedFrom, observedFrom, List.zipIdx_cons, run_cons, step, List.append_assoc]
    cases react k s first with
    | error f => rfl
    | ok r =>
      have hlen : k + 1 + inputs.length = k + (inputs.length + 1) := by omega
      rw [ok_bind, ok_bind, List.length_cons, ← hlen]
      dsimp only
      rw [ih]

theorem observed_concat (h : after react s inputs = .ok t) :
    observed react observe s (inputs ++ [i]) = observed react observe s inputs ++ observe inputs.length t i := by
  rw [after] at h
  rw [observed, observedFrom_concat, h, Nat.zero_add]
  rfl

theorem observed_failed {f : φ} (h : after react s inputs = .error f) :
    observed react observe s (inputs ++ [i]) = observed react observe s inputs := by
  rw [after] at h
  rw [observed, observedFrom_concat, h, List.append_nil]
  rfl

theorem observed_forall {P : α → Prop} (h : ∀ k s i, ∀ a ∈ observe k s i, P a) : ∀ a ∈ observed react observe s inputs, P a := by
  have hfrom : ∀ k, ∀ a ∈ observedFrom react observe k s inputs, P a := by
    induction inputs generalizing s with
    | nil => exact fun k a ha => absurd ha List.not_mem_nil
    | cons i inputs ih =>
      intro k a ha
      rw [observedFrom, List.mem_append] at ha
      rcases ha with ha | ha
      · exact h k s i a ha
      · split at ha
        · exact ih (k + 1) a ha
        · cases ha
  exact hfrom 0

/-- A machine that is observed: it keeps what has been seen of it, and idles when it has failed. -/
def observing (react : Nat → σ → ι → Except φ (σ × ω)) (observe : Nat → σ → ι → List α) (idle : ω) (k : Nat)
    (r : Except φ σ × List α) (i : ι) : Except φ ((Except φ σ × List α) × ω) :=
  match r with
  | (.ok s, seen) =>
    match react k s i with
    | .ok (t, reaction) => .ok ((.ok t, seen ++ observe k s i), reaction)
    | .error f => .ok ((.error f, seen ++ observe k s i), idle)
  | (.error f, seen) => .ok ((.error f, seen), idle)

theorem after_observing (idle : ω) (seen : List α) : after (observing react observe idle) (.ok s, seen) inputs =
    .ok (after react s inputs, seen ++ observed react observe s inputs) := by
  induction inputs using List.reverseRecOn with
  | nil =>
    rw [observed, observedFrom, List.append_nil]
    rfl
  | append_singleton inputs i ih =>
    rw [after_concat, after_concat, ih, ok_bind, step]
    cases h : after react s inputs with
    | error f =>
      rw [observed_failed h]
      rfl
    | ok t =>
      rw [ok_bind, observed_concat h, observing, step, ← List.append_assoc]
      dsimp only
      cases react inputs.length t i <;> rfl

theorem last_observing (idle : ω) (seen : List α) :
    (last (observing react observe idle) (.ok s, seen) inputs).getD idle = (last react s inputs).getD idle := by
  induction inputs using List.reverseRecOn with
  | nil => rfl
  | append_singleton inputs i ih =>
    rw [last_concat (after_observing idle seen)]
    cases h : after react s inputs with
    | error f =>
      rw [last_failed h]
      rfl
    | ok t =>
      rw [last_concat h, observing]
      cases react inputs.length t i <;> rfl

end Reactive
