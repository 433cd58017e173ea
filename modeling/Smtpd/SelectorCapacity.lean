import Smtpd.SelectorBounds

namespace Smtpd.Selector

open Checked Leases

variable {ε δ : Type}

/-- The table is asked for room apart from any registration, too. -/
inductive CapacityCall (ε δ : Type)
  | perform (act : SelectorAct ε δ)
  | ensureCapacity (n : Nat) (memory : Option (Nat → Item ε δ))

def CapacityCall.make (w : SelectorWorld ε δ) : CapacityCall ε δ → Except SelectorFault (SelectorWorld ε δ)
  | .perform act => act.perform w
  | .ensureCapacity n memory => .ok { w with selector := (Selector.ensureCapacity w.selector n memory).2 }

/-- What `ensure_capacity` leaves behind when it has been asked for `n`. -/
structure CapacityEnsured (s : FdSelector ε δ) (n : Nat) (status : SelectorStatus) (t : FdSelector ε δ) : Prop where
  success : status = .success → n < t.fds.length ∧ t.fds.length ≤ ITEMS_MAX_SIZE + 1 ∧
    ∃ rest, t.fds = s.fds ++ rest ∧ ∀ item ∈ rest, item.fd = FD_UNUSED
  maxfd : status = .maxfd ↔ ITEMS_MAX_SIZE < n ∧ s.fds.length ≤ n
  failure : status ≠ .success → t = s

section Capacity

variable {s t : FdSelector ε δ} {n : Nat} {memory : Option (Nat → Item ε δ)} {status : SelectorStatus}

theorem Grown.valid (hv : s.Valid) (hg : Grown s t n) : t.Valid := by
  have hmax : t.maxFd = s.maxFd := by rw [hg.same]
  have hr : t.masterR = s.masterR := by rw [hg.same]
  have hw : t.masterW = s.masterW := by rw [hg.same]
  have hlook := hg.lookup
  refine ⟨?_, ?_, ?_, ?_, ?_, ?_, ?_⟩
  · intro i item hi
    rw [hlook] at hi
    exact hv.filled hi
  · intro i item hi
    rw [hlook] at hi
    rw [hmax]
    exact hv.greatest hi
  · rw [hmax, hlook]
    exact hv.attained
  · rw [hr, hlook]
    exact hv.masterR
  · rw [hw, hlook]
    exact hv.masterW
  · have := hv.nonempty
    have := hg.longer
    omega
  · have := hv.small
    have := hg.small
    omega

theorem ensureCapacity_valid (hv : s.Valid) (h : ensureCapacity s n memory = (status, t)) : t.Valid := by
  by_cases hs : status = .success
  · subst hs
    exact (ensureCapacity_grown h).valid hv
  · rw [ensureCapacity_failed h hs]
    exact hv

theorem ensureCapacity_maxfd (h : ensureCapacity s n memory = (status, t)) :
    status = .maxfd ↔ ITEMS_MAX_SIZE < n ∧ s.fds.length ≤ n := by
  unfold ensureCapacity at h
  dsimp only at h
  split at h
  next hn =>
    cases h
    exact iff_of_false (by decide) fun hmax => by omega
  next hn =>
    split at h
    next hmax =>
      cases h
      exact iff_of_true rfl ⟨hmax, Nat.le_of_not_lt hn⟩
    next hmax =>
      refine iff_of_false ?_ fun hlt => hmax hlt.1
      -- what is left asks for memory
      split at h
      · cases memory <;> cases h <;> decide
      · split at h
        · cases h
          decide
        · cases memory <;> cases h <;> decide

theorem ensureCapacity_ensured (hv : s.Valid) (h : ensureCapacity s n memory = (status, t)) :
    CapacityEnsured s n status t := by
  refine ⟨?_, ensureCapacity_maxfd h, ensureCapacity_failed h⟩
  rintro rfl
  have hg := ensureCapacity_grown h
  have hsmall := hg.small
  have hold := hv.small
  refine ⟨hg.room, by omega, ?_⟩
  obtain ⟨hfail, -⟩ | ⟨-, -, rfl⟩ | ⟨-, -, -, rest, -, rfl⟩ := ensureCapacity_cases h
  · exact absurd rfl hfail
  · exact ⟨[], (List.append_nil _).symm, fun item hitem => absurd hitem List.not_mem_nil⟩
  · refine ⟨rest.map itemInit, rfl, fun item hitem => ?_⟩
    exact not_not.mp (itemInit_unused item hitem)

/-- Every call of either kind keeps the table in order. -/
theorem make_valid {w w' : SelectorWorld ε δ} {call : CapacityCall ε δ} (hv : w.selector.Valid)
    (h : call.make w = .ok w') : w'.selector.Valid := by
  cases call with
  | perform act => exact (perform_leads act w w' hv h).valid
  | ensureCapacity n memory =>
    cases h
    exact ensureCapacity_valid hv rfl

/-- In whatever state the calls have left the selector, its table grows as it is asked to, or stays as it is. -/
theorem ensureCapacity_post {k : Nat} {struct : Bool} {first : Option (Nat → Item ε δ)}
    (hnew : selectorNew k struct first = some s) {calls : List (CapacityCall ε δ)} {w : SelectorWorld ε δ}
    (hrun : Runs.run CapacityCall.make ⟨s, []⟩ calls = .ok w) (n : Nat) (memory : Option (Nat → Item ε δ)) :
    CapacityEnsured w.selector n (ensureCapacity w.selector n memory).1 (ensureCapacity w.selector n memory).2 := by
  have hvalid : w.selector.Valid := by
    refine @Runs.run_always _ _ _ CapacityCall.make ⟨s, []⟩ w calls (fun _ w => w.selector.Valid)
      (selectorNew_valid hnew).1 ?_ hrun
    intro _ call _ _ _ hv hstep
    exact make_valid hv hstep
  exact ensureCapacity_ensured hvalid rfl

theorem ensureCapacity_post_grown :
    ∃ s w, selectorNew 0 true (some fun _ => (blankItem : Item Nat Nat)) = some s ∧
      Runs.run CapacityCall.make ⟨s, []⟩
        [.perform (.make (.register .self 0 (some ⟨none, none, none, some 7⟩) OP_READ (some 3) none) []),
          .ensureCapacity 10 (some fun _ => blankItem), .perform (.make (.unregister .self 0) [])] = .ok w ∧
      w.selector.fds.length = 17 ∧
      CapacityEnsured w.selector 1025 (ensureCapacity w.selector 1025 none).1 (ensureCapacity w.selector 1025 none).2 := by
  obtain ⟨s, hnew⟩ : ∃ s, selectorNew 0 true (some fun _ => (blankItem : Item Nat Nat)) = some s := ⟨_, rfl⟩
  obtain ⟨w, hrun, hlen⟩ : ∃ w, Runs.run CapacityCall.make ⟨s, []⟩
      [.perform (.make (.register .self 0 (some ⟨none, none, none, some 7⟩) OP_READ (some 3) none) []),
        .ensureCapacity 10 (some fun _ => blankItem), .perform (.make (.unregister .self 0) [])] = .ok w ∧
      w.selector.fds.length = 17 := by
    cases hnew
    exact ok_of_any (by decide +kernel)
  exact ⟨s, w, hnew, hrun, hlen, ensureCapacity_post hnew hrun 1025 none⟩

end Capacity

end Smtpd.Selector
