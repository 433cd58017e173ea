import Smtpd.SelectorTable

namespace Smtpd.Selector

open Checked Leases

variable {ε δ : Type}

/-- The item that a call with valid arguments looks at is in the table, or comes into it. -/
def SelectorCall.InTable (s : FdSelector ε δ) : SelectorCall ε δ → Prop
  | .register arg fd handler _ _ _ => arg = .self → ¬ INVALID_FD fd → handler.isSome → fd ≠ s.fds.length
  | .unregister arg fd => arg = .self → ¬ INVALID_FD fd → fd < s.fds.length
  | .setInterest arg fd _ => arg = .self → ¬ INVALID_FD fd → fd < s.fds.length
  | .setInterestKey key _ => ∀ k ∈ key, k.s = .self → ¬ INVALID_FD k.fd → k.fd < s.fds.length
  | .notifyBlock _ _ => True

theorem SelectorCall.inTable_of_complete {s : FdSelector ε δ} (hc : s.Complete) (call : SelectorCall ε δ) :
    call.InTable s := by
  have hmax : ITEMS_MAX_SIZE = FD_SETSIZE := rfl
  have hlen := hc.length
  have hin : ∀ fd : Int, ¬ INVALID_FD fd → fd < s.fds.length := by
    intro fd hfd
    obtain ⟨i, rfl, hi⟩ := valid_fd hfd
    omega
  cases call with
  | register arg fd handler interest data memory => exact fun _ hfd _ => (hin fd hfd).ne
  | unregister arg fd => exact fun _ hfd => hin fd hfd
  | setInterest arg fd interest => exact fun _ hfd => hin fd hfd
  | setInterestKey key interest => exact fun k _ _ hfd => hin k.fd hfd
  | notifyBlock fd memory => trivial

/-- What a call hands to `handle_close`, if it calls it. -/
def SelectorCall.closingWorld (w : SelectorWorld ε δ) : SelectorCall ε δ → Option (SelectorWorld ε δ)
  | .unregister .self fd =>
    if INVALID_FD fd then none
    else (w.selector.lookup fd.toNat).bind fun item =>
      if item.handler.any fun handler => handler.handleClose.isSome then
        some { w with log := w.log ++ [.returned item.fd item.data] }
      else none
  | _ => none

mutual

/-- A call finds its item, and so do the calls that are made before it returns. -/
def SelectorAct.InTable (w : SelectorWorld ε δ) : SelectorAct ε δ → Prop
  | .make call onClose => call.InTable w.selector ∧ ∀ w', call.closingWorld w = some w' → AllInTable w' onClose

def AllInTable (w : SelectorWorld ε δ) : List (SelectorAct ε δ) → Prop
  | [] => True
  | act :: acts => act.InTable w ∧ ∀ w', act.perform w = .ok w' → AllInTable w' acts

end

section Nested

variable {w w' : SelectorWorld ε δ}

theorem perform_make (call : SelectorCall ε δ) (onClose : List (SelectorAct ε δ)) :
    (SelectorAct.make call onClose).perform w =
      call.apply (fun w => performAll w onClose) w >>= fun r => .ok r.2 := by
  rw [SelectorAct.perform]

theorem performAll_nil : (fun w : SelectorWorld ε δ => performAll w []) = .ok := by
  funext w
  rw [performAll]

theorem performAll_cons (act : SelectorAct ε δ) (acts : List (SelectorAct ε δ)) :
    performAll w (act :: acts) = act.perform w >>= fun w => performAll w acts := by
  rw [performAll]

mutual

theorem perform_leads : ∀ (act : SelectorAct ε δ) (w w' : SelectorWorld ε δ), w.selector.Valid →
    act.perform w = .ok w' → Leads w.selector w'.selector
  | .make call onClose, w, w', hv, h => by
    rw [perform_make] at h
    obtain ⟨⟨status, w₁⟩, hw₁, h⟩ := bind_ok h
    cases h
    exact (SelectorCall.apply_leads hv (performAll_leads onClose) hw₁).1

theorem performAll_leads : ∀ (acts : List (SelectorAct ε δ)) (w w' : SelectorWorld ε δ), w.selector.Valid →
    performAll w acts = .ok w' → Leads w.selector w'.selector
  | [], w, w', hv, h => by
    rw [performAll] at h
    cases h
    exact Leads.refl hv
  | act :: acts, w, w', hv, h => by
    rw [performAll_cons] at h
    obtain ⟨w₁, hw₁, h⟩ := bind_ok h
    have hfirst := perform_leads act w w₁ hv hw₁
    exact hfirst.trans (performAll_leads acts w₁ w' hfirst.valid h)

end

end Nested

section Bounds

variable {w w' : SelectorWorld ε δ} {close : SelectorWorld ε δ → Except SelectorFault (SelectorWorld ε δ)}

theorem unregisterItem_in {s : FdSelector ε δ} {i : Nat} (hv : s.Valid) (hlt : i < s.fds.length) :
    unregisterItem s i ≠ .error .outOfTable := by
  intro h
  cases hlook : s.lookup i with
  | none =>
    rw [unregisterItem_unused hlook hlt] at h
    cases h
  | some item =>
    obtain ⟨r, hr, -⟩ := unregisterItem_ok hv hlook
    cases hr.symm.trans h

theorem setInterest_bounds (hv : w.selector.Valid) (arg : SelectorArg) (fd : Int) (interest : FdInterest) :
    selectorSetInterest w arg fd interest = .error .outOfTable ↔
      ¬ (arg = .self → ¬ INVALID_FD fd → fd < w.selector.fds.length) := by
  constructor
  · intro h hin
    obtain ⟨status, w', hok, -⟩ := @selectorSetInterest_ok _ _ w arg fd interest hv fun hfd harg => hin harg hfd
    cases hok.symm.trans h
  · intro hout
    obtain ⟨harg, hrest⟩ := Classical.not_imp.mp hout
    obtain ⟨hfd, hge⟩ := Classical.not_imp.mp hrest
    subst harg
    obtain ⟨i, rfl, -⟩ := valid_fd hfd
    exact selectorSetInterest_out hfd (by omega)

theorem closingWorld_selector {call : SelectorCall ε δ} (h : call.closingWorld w = some w') :
    w'.selector = w.selector := by
  unfold SelectorCall.closingWorld at h
  split at h
  · split at h
    · cases h
    · obtain ⟨item, -, h⟩ := Option.bind_eq_some_iff.mp h
      split at h
      · cases h
        rfl
      · cases h
  · cases h

theorem closingWorld_some {i : Nat} {item : Item ε δ} (hfd : ¬ INVALID_FD i) (hlook : w.selector.lookup i = some item) :
    (SelectorCall.unregister .self i).closingWorld w =
      if item.handler.any fun handler => handler.handleClose.isSome then
        some { w with log := w.log ++ [.returned item.fd item.data] }
      else none := by
  rw [SelectorCall.closingWorld, if_neg hfd, Int.toNat_natCast, hlook]
  rfl

/-- What follows `handle_close` stays in the table, whatever the callback has done. -/
theorem unregister_finish {i : Nat} (hleads : Leads w.selector w'.selector) (hlt : i < w.selector.fds.length) :
    (if w'.selector.fds.length ≠ w.selector.fds.length then .error .moved
      else unregisterItem w'.selector i >>= fun s => .ok (.success, { w' with selector := s }) :
      Except SelectorFault (SelectorStatus × SelectorWorld ε δ)) ≠ .error .outOfTable := by
  have hlonger := hleads.longer
  have hin := unregisterItem_in hleads.valid (show i < w'.selector.fds.length by omega)
  intro h
  split at h
  · cases h
  · cases hs : unregisterItem w'.selector i with
    | ok s =>
      rw [hs] at h
      cases h
    | error fault =>
      rw [hs] at h
      cases h
      exact hin hs

theorem unregister_bounds (hv : w.selector.Valid)
    (hclose : ∀ w w', w.selector.Valid → close w = .ok w' → Leads w.selector w'.selector) (arg : SelectorArg) (fd : Int) :
    selectorUnregisterFd close w arg fd = .error .outOfTable ↔
      ¬ (SelectorCall.unregister arg fd).InTable w.selector ∨
        ∃ w', (SelectorCall.unregister arg fd).closingWorld w = some w' ∧ close w' = .error .outOfTable := by
  by_cases hargs : arg = .null ∨ INVALID_FD fd
  · rw [selectorUnregisterFd_refused (hargs.imp_right Or.inl)]
    refine iff_of_false (fun h => by cases h) (not_or.mpr ⟨not_not.mpr fun harg hfd => ?_, ?_⟩)
    · rcases hargs with hnull | hinvalid
      · cases hnull.symm.trans harg
      · exact absurd hinvalid hfd
    · rintro ⟨w', hw', -⟩
      cases arg with
      | null => cases hw'
      | self =>
        rw [SelectorCall.closingWorld, if_pos (hargs.resolve_left (by simp))] at hw'
        cases hw'
  · obtain ⟨rfl, i, rfl, hi⟩ := args_of_not hargs
    have hfd := (not_or.mp hargs).2
    by_cases hlt : i < w.selector.fds.length
    · have hin : (SelectorCall.unregister .self i : SelectorCall ε δ).InTable w.selector := fun _ _ => by omega
      rw [or_iff_right (not_not.mpr hin)]
      cases hlook : w.selector.lookup i with
      | none =>
        rw [selectorUnregisterFd_refused (Or.inr (Or.inr ⟨i, rfl, hlt, hlook⟩)), SelectorCall.closingWorld, if_neg hfd,
          Int.toNat_natCast, hlook]
        simp
      | some item =>
        rw [selectorUnregisterFd_eq hv hlook, closingWorld_some hfd hlook, closing]
        split_ifs with hcalled
        · cases hw₁ : close { w with log := w.log ++ [.returned item.fd item.data] } with
          | error fault =>
            rw [error_bind]
            constructor
            · intro h
              cases h
              exact ⟨_, rfl, hw₁⟩
            · rintro ⟨w', hw', h⟩
              cases hw'
              cases hw₁.symm.trans h
              rfl
          | ok w₁ =>
            rw [ok_bind]
            have hleads := hclose { w with log := w.log ++ [.returned item.fd item.data] } w₁ hv hw₁
            refine iff_of_false (unregister_finish hleads hlt) ?_
            rintro ⟨w', hw', h⟩
            cases hw'
            cases hw₁.symm.trans h
        · rw [ok_bind]
          refine iff_of_false (unregister_finish (Leads.refl hv) hlt) ?_
          rintro ⟨w', hw', -⟩
          cases hw'
    · refine iff_of_true (selectorUnregisterFd_out hfd (by omega)) (Or.inl fun hin => ?_)
      have := hin rfl hfd
      omega

/-- A call leaves the table exactly if it does not find its item, or if the callback it calls does. -/
theorem apply_bounds (hv : w.selector.Valid)
    (hclose : ∀ w w', w.selector.Valid → close w = .ok w' → Leads w.selector w'.selector) (call : SelectorCall ε δ) :
    call.apply close w = .error .outOfTable ↔
      ¬ call.InTable w.selector ∨ ∃ w', call.closingWorld w = some w' ∧ close w' = .error .outOfTable := by
  cases call with
  | register arg fd handler interest data memory =>
    have hnone : (SelectorCall.register arg fd handler interest data memory).closingWorld w = none := rfl
    rw [hnone]
    simp only [reduceCtorEq, false_and, exists_false, or_false]
    constructor
    · intro h hin
      obtain ⟨status, w', hok, -⟩ :=
        @selectorRegister_ok _ _ w arg fd handler interest data memory hv fun hfd hh harg => hin harg hfd hh
      cases hok.symm.trans h
    · intro hout
      obtain ⟨harg, hrest⟩ := Classical.not_imp.mp hout
      obtain ⟨hfd, hrest⟩ := Classical.not_imp.mp hrest
      obtain ⟨hh, hend⟩ := Classical.not_imp.mp hrest
      subst harg
      exact selectorRegister_out hfd hh (not_not.mp hend)
  | unregister arg fd =>
    exact unregister_bounds hv hclose arg fd
  | setInterest arg fd interest =>
    have hnone : (SelectorCall.setInterest arg fd interest : SelectorCall ε δ).closingWorld w = none := rfl
    rw [hnone]
    simp only [reduceCtorEq, false_and, exists_false, or_false]
    exact setInterest_bounds hv arg fd interest
  | setInterestKey key interest =>
    have hnone : (SelectorCall.setInterestKey key interest : SelectorCall ε δ).closingWorld w = none := rfl
    rw [hnone]
    simp only [reduceCtorEq, false_and, exists_false, or_false]
    show selectorSetInterestKey w key interest = .error .outOfTable ↔ ¬ SelectorCall.InTable w.selector _
    cases key with
    | none => exact iff_of_false (fun h => by cases h) (not_not.mpr fun k hk => by cases hk)
    | some key =>
      rw [selectorSetInterestKey]
      by_cases hargs : key.s = .null ∨ INVALID_FD key.fd
      · rw [if_pos hargs]
        refine iff_of_false (fun h => by cases h) (not_not.mpr fun k hk harg hfd => ?_)
        cases hk
        rcases hargs with hnull | hinvalid
        · cases hnull.symm.trans harg
        · exact absurd hinvalid hfd
      · rw [if_neg hargs, setInterest_bounds hv]
        simp [SelectorCall.InTable]
  | notifyBlock fd memory =>
    have hnone : (SelectorCall.notifyBlock fd memory : SelectorCall ε δ).closingWorld w = none := rfl
    rw [hnone]
    simp only [reduceCtorEq, false_and, exists_false, or_false, SelectorCall.InTable, not_true, iff_false]
    show selectorNotifyBlock w fd memory ≠ _
    unfold selectorNotifyBlock
    split_ifs <;> exact fun h => by cases h

mutual

theorem perform_bounds : ∀ (act : SelectorAct ε δ) (w : SelectorWorld ε δ), w.selector.Valid →
    (act.perform w = .error .outOfTable ↔ ¬ act.InTable w)
  | .make call onClose, w, hv => by
    have hcall := apply_bounds hv (performAll_leads onClose) call
    have hresult : (SelectorAct.make call onClose).perform w = .error .outOfTable ↔
        call.apply (fun w => performAll w onClose) w = .error .outOfTable := by
      rw [perform_make]
      cases call.apply (fun w => performAll w onClose) w with
      | ok r => exact iff_of_false (fun h => by cases h) (fun h => by cases h)
      | error fault =>
        rw [error_bind]
        constructor <;> intro h <;> cases h <;> rfl
    rw [hresult, hcall, SelectorAct.InTable, not_and_or]
    apply or_congr Iff.rfl
    have hvalid : ∀ w', call.closingWorld w = some w' → w'.selector.Valid := by
      intro w' hw'
      rw [closingWorld_selector hw']
      exact hv
    constructor
    · rintro ⟨w', hw', hout⟩ hall
      exact (performAll_bounds onClose w' (hvalid w' hw')).mp hout (hall w' hw')
    · intro hall
      obtain ⟨w', hw'⟩ := not_forall.mp hall
      obtain ⟨hw', hnot⟩ := Classical.not_imp.mp hw'
      exact ⟨w', hw', (performAll_bounds onClose w' (hvalid w' hw')).mpr hnot⟩

/-- The calls of a callback leave the table exactly if one of them does not find its item. -/
theorem performAll_bounds : ∀ (acts : List (SelectorAct ε δ)) (w : SelectorWorld ε δ), w.selector.Valid →
    (performAll w acts = .error .outOfTable ↔ ¬ AllInTable w acts)
  | [], w, hv => by
    rw [performAll, AllInTable]
    exact iff_of_false (fun h => by cases h) (not_not.mpr trivial)
  | act :: acts, w, hv => by
    rw [performAll_cons, AllInTable, not_and_or, ← perform_bounds act w hv]
    cases hw₁ : act.perform w with
    | error fault =>
      rw [error_bind]
      constructor
      · intro h
        exact Or.inl h
      · rintro (h | h)
        · exact h
        · exact absurd (fun w' hw' => by cases hw') h
    | ok w₁ =>
      have hleads := perform_leads act w w₁ hv hw₁
      rw [ok_bind, performAll_bounds acts w₁ hleads.valid]
      constructor
      · intro h
        exact Or.inr fun hall => h (hall w₁ rfl)
      · rintro (h | h)
        · cases h
        · intro hall
          exact h fun w' hw' => by
            cases hw'
            exact hall

end

mutual

/-- In a table of the full size every call with valid arguments finds its item. -/
theorem perform_inTable : ∀ (act : SelectorAct ε δ) (w : SelectorWorld ε δ), w.selector.Valid → w.selector.Complete →
    act.InTable w
  | .make call onClose, w, hv, hc => by
    rw [SelectorAct.InTable]
    refine ⟨call.inTable_of_complete hc, fun w' hw' => ?_⟩
    have hs := closingWorld_selector hw'
    exact performAll_inTable onClose w' (hs.symm ▸ hv) (hs.symm ▸ hc)

theorem performAll_inTable : ∀ (acts : List (SelectorAct ε δ)) (w : SelectorWorld ε δ), w.selector.Valid →
    w.selector.Complete → AllInTable w acts
  | [], w, hv, hc => by
    rw [AllInTable]
    trivial
  | act :: acts, w, hv, hc => by
    rw [AllInTable]
    refine ⟨perform_inTable act w hv hc, fun w' hw' => ?_⟩
    have hleads := perform_leads act w w' hv hw'
    exact performAll_inTable acts w' hleads.valid (hleads.complete hc)

end

/-- From any new selector, however small, the calls look at items inside of the table, exactly if no registration
asks for the descriptor just behind it, and nothing else is asked of a descriptor behind it at all. -/
theorem table_bounds_iff {s : FdSelector ε δ} {n : Nat} {struct : Bool} {memory : Option (Nat → Item ε δ)}
    (hnew : selectorNew n struct memory = some s) (acts : List (SelectorAct ε δ)) :
    performAll ⟨s, []⟩ acts ≠ .error .outOfTable ↔ AllInTable ⟨s, []⟩ acts := by
  obtain ⟨hv, -, -⟩ := selectorNew_valid hnew
  rw [ne_eq, performAll_bounds acts ⟨s, []⟩ hv, not_not]

theorem table_bounds_iff_grown :
    ∃ s, selectorNew 0 true (some fun _ => (blankItem : Item Nat Nat)) = some s ∧
      performAll ⟨s, []⟩
        [.make (.register .self 3 (some ⟨none, none, none, some 7⟩) OP_READ (some 3) (some fun _ => blankItem)) []] ≠
          .error .outOfTable := by
  obtain ⟨s, hnew⟩ : ∃ s, selectorNew 0 true (some fun _ => (blankItem : Item Nat Nat)) = some s := ⟨_, rfl⟩
  refine ⟨s, hnew, (table_bounds_iff hnew _).mpr ?_⟩
  have hsize : s.fds.length = 2 := by
    cases hnew
    rfl
  rw [AllInTable, SelectorAct.InTable, SelectorCall.InTable]
  refine ⟨⟨fun _ _ _ => ?_, fun w' hw' => by cases hw'⟩, fun w' _ => ?_⟩
  · rw [hsize]
    decide
  · rw [AllInTable]
    trivial

/-- A selector that is asked for half of the greatest size or more, as the program's is, has room for every
descriptor from the start. -/
theorem selectorNew_inTable {s : FdSelector ε δ} {n : Nat} {struct : Bool} {memory : Option (Nat → Item ε δ)}
    (hn : ITEMS_MAX_SIZE / 2 ≤ n) (hnew : selectorNew n struct memory = some s) (acts : List (SelectorAct ε δ)) :
    s.fds.length = ITEMS_MAX_SIZE + 1 ∧ performAll ⟨s, []⟩ acts ≠ .error .outOfTable := by
  obtain ⟨hv, -, -⟩ := selectorNew_valid hnew
  have hc := selectorNew_complete hn hnew
  refine ⟨hc.length, fun hout => ?_⟩
  exact (performAll_bounds acts ⟨s, []⟩ hv).mp hout (performAll_inTable acts ⟨s, []⟩ hv hc)

/-- The smallest table has two items, and descriptor 2 is registered without a place. -/
theorem table_bounds_broken :
    ∃ s, selectorNew 0 true (some fun _ => (blankItem : Item Nat Nat)) = some s ∧
      performAll ⟨s, []⟩
        [.make (.register .self 2 (some ⟨none, none, none, some 7⟩) OP_READ (some 3) (some fun _ => blankItem)) []] =
          .error .outOfTable :=
  ⟨_, rfl, rfl⟩

end Bounds

end Smtpd.Selector
