import Mathlib.Data.List.DropRight

namespace History

variable {ε : Type*} {Q : List ε → ε → Prop} {log : List ε} {e : ε}

/-- Every entry of a log stands in a relation to the entries before it. -/
def Always (Q : List ε → ε → Prop) (log : List ε) : Prop :=
  ∀ pre e post, log = pre ++ e :: post → Q pre e

theorem always_nil (Q : List ε → ε → Prop) : Always Q [] := by
  intro pre e post h
  simp at h

theorem always_concat : Always Q (log ++ [e]) ↔ Always Q log ∧ Q log e := by
  constructor
  · intro h
    exact ⟨fun pre x post hlog => h pre x (post ++ [e]) (by simp [hlog]), h log e [] rfl⟩
  · rintro ⟨hall, hlast⟩ pre x post heq
    rcases List.eq_nil_or_concat post with rfl | ⟨post', y, rfl⟩
    · obtain ⟨rfl, hxe⟩ := List.append_inj' heq rfl
      obtain rfl := (List.cons.inj hxe).1
      exact hlast
    · have heq' : log ++ [e] = (pre ++ x :: post') ++ [y] := by simpa using heq
      obtain ⟨rfl, -⟩ := List.append_inj' heq' rfl
      exact hall pre x post' rfl

/-- The entries behind the last one of a kind. -/
def since (p : ε → Bool) (log : List ε) : List ε := log.rtakeWhile (fun e => !p e)

@[simp] theorem since_concat (p : ε → Bool) (log : List ε) (e : ε) :
    since p (log ++ [e]) = if p e then [] else since p log ++ [e] := by
  rw [since, List.rtakeWhile_concat]
  cases hp : p e <;> simp [since]

/-- Two entries, one after the other, behind the last one of a kind. -/
def Ordered (p : ε → Bool) (A B : ε → Prop) (log : List ε) : Prop :=
  ∃ a b, A a ∧ B b ∧ [a, b].Sublist (since p log)

variable {p : ε → Bool} {A B : ε → Prop}

theorem mem_since_concat {x : ε} (hp : p e = false) (h : x ∈ since p log) :
    x ∈ since p (log ++ [e]) := by
  simp [hp, h]

theorem Ordered.concat (hp : p e = false) (h : Ordered p A B log) : Ordered p A B (log ++ [e]) := by
  obtain ⟨a, b, ha, hb, hsub⟩ := h
  exact ⟨a, b, ha, hb, by simpa [hp] using hsub.trans (List.sublist_append_left _ _)⟩

theorem ordered_concat {a : ε} (hp : p e = false) (ha : A a) (hm : a ∈ since p log) (hb : B e) :
    Ordered p A B (log ++ [e]) := by
  refine ⟨a, e, ha, hb, ?_⟩
  have hsub : [a, e].Sublist (since p log ++ [e]) :=
    (List.singleton_sublist.mpr hm).append (List.Sublist.refl [e])
  simpa [hp] using hsub

end History
