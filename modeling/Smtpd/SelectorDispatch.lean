import Smtpd.SelectorBounds

namespace Smtpd.Selector

open Checked Leases

variable {ε δ : Type}

section Preserved

/-- The calls of the program, those of the callbacks among them, are of some kind. -/
def Operation.Makes (P : SelectorAct ε δ → Prop) : Operation ε δ → Prop
  | .call act => P act
  | .select callbacks _ => ∀ log, ∀ act ∈ callbacks log, P act

section Acts

variable {P : SelectorAct ε δ → Prop} {I : SelectorWorld ε δ → Prop} {w w' : SelectorWorld ε δ}
  {acts : List (SelectorAct ε δ)}

theorem performAll_preserves (hact : ∀ act w w', P act → I w → act.perform w = .ok w' → I w')
    (hacts : ∀ act ∈ acts, P act) (hi : I w) (h : performAll w acts = .ok w') : I w' := by
  induction acts generalizing w with
  | nil =>
    rw [performAll] at h
    cases h
    exact hi
  | cons act acts ih =>
    rw [performAll_cons] at h
    obtain ⟨w₁, hw₁, h⟩ := bind_ok h
    have hi₁ := hact act w w₁ (hacts act List.mem_cons_self) hi hw₁
    exact ih (fun a ha => hacts a (List.mem_cons_of_mem act ha)) hi₁ h

end Acts

section Rounds

variable {J : DispatchState ε δ → Prop} {callbacks : SelectorCallbacks ε δ} {st st' : DispatchState ε δ}
  {w : SelectorWorld ε δ}
  (hdispatch : ∀ called d w w', J (called, w) → d.selector = w.selector →
    performAll w (callbacks (called ++ [d])) = .ok w' → J (called ++ [d], w'))

include hdispatch

theorem dispatch_keeps {op : DispatchOp} {item : Item ε δ} {key : SelectorKey δ} (hj : J st)
    (h : dispatch callbacks st op item key = .ok st') : J st' := by
  unfold dispatch at h
  obtain ⟨handler, -, h⟩ := bind_ok h
  split at h
  · cases h
  · dsimp only at h
    split at h
    next w hw =>
      cases h
      exact hdispatch st.1 _ st.2 w hj rfl hw
    · cases h

theorem dispatchRead_keeps {item : Item ε δ} {key : SelectorKey δ} (hj : J st)
    (h : dispatchRead callbacks st item key = .ok st') : J st' := by
  unfold dispatchRead at h
  split at h
  · exact dispatch_keeps hdispatch hj h
  · cases h
    exact hj

theorem visitItem_keeps {i : Nat} (hj : J st) (h : visitItem callbacks st i = .ok st') : J st' := by
  unfold visitItem at h
  obtain ⟨item, -, h⟩ := bind_ok h
  split at h
  · obtain ⟨st₁, hread, h⟩ := bind_ok h
    have hj₁ := dispatchRead_keeps hdispatch hj hread
    split at h
    · cases h
    · obtain ⟨item', -, h⟩ := bind_ok h
      split at h
      · exact dispatch_keeps hdispatch hj₁ h
      · cases h
        exact hj₁
  · cases h
    exact hj

theorem notifyItem_keeps {fd : Int} (hj : J st) (h : notifyItem callbacks st fd = .ok st') : J st' := by
  unfold notifyItem at h
  obtain ⟨item, -, h⟩ := bind_ok h
  split at h
  · exact dispatch_keeps hdispatch hj h
  · cases h
    exact hj

variable (hside : ∀ called, ∀ w : SelectorWorld ε δ, ∀ s, J (called, w) → s.fds = w.selector.fds →
  s.maxFd = w.selector.maxFd → s.masterR = w.selector.masterR → s.masterW = w.selector.masterW →
  J (called, { w with selector := s }))

include hside

theorem handleBlockNotifications_keeps (hj : J st) (h : handleBlockNotifications callbacks st = .ok st') : J st' := by
  unfold handleBlockNotifications at h
  split at h
  · cases h
  · obtain ⟨st₁, hrun, h⟩ := bind_ok h
    cases h
    have hstart : J (st.1, { st.2 with selector := { st.2.selector with locked := true } }) :=
      hside st.1 st.2 _ hj rfl rfl rfl rfl
    have hj₁ : J st₁ := by
      refine Runs.run_always (I := fun _ st => J st) hstart ?_ hrun
      intro jobs fd st st' _ hj hstep
      exact notifyItem_keeps hdispatch hj hstep
    exact hside st₁.1 st₁.2 _ hj₁ rfl rfl rfl rfl

/-- What the calls of every callback keep, and what the sets of `select` and the list of jobs are no part of, a round
of the selector keeps. -/
theorem selectorSelect_keeps {fds : PselectResult} {status : SelectorStatus} (hj : J ([], w))
    (h : selectorSelect callbacks w fds = .ok (status, st')) : J st' := by
  unfold selectorSelect at h
  cases fds with
  | interrupted =>
    obtain ⟨st₁, hnotify, h⟩ := bind_ok h
    cases h
    refine handleBlockNotifications_keeps hdispatch hside ?_ hnotify
    exact hside [] w _ hj rfl rfl rfl rfl
  | failed =>
    cases h
    exact hside [] w _ hj rfl rfl rfl rfl
  | ready slaveR slaveW =>
    obtain ⟨st₁, hiteration, h⟩ := bind_ok h
    obtain ⟨st₂, hnotify, h⟩ := bind_ok h
    cases h
    have hj₁ : J st₁ := by
      refine Runs.run_always (I := fun _ st => J st) ?_ ?_ hiteration
      · exact hside [] w _ hj rfl rfl rfl rfl
      · intro is i st st' _ hj hstep
        exact visitItem_keeps hdispatch hj hstep
    exact handleBlockNotifications_keeps hdispatch hside hj₁ hnotify

end Rounds

theorem operate_select {callbacks : SelectorCallbacks ε δ} {w w' : SelectorWorld ε δ} {fds : PselectResult}
    (h : operate w (.select callbacks fds) = .ok w') :
    ∃ status called, selectorSelect callbacks w fds = .ok (status, called, w') := by
  obtain ⟨⟨status, st⟩, hselect, h⟩ := bind_ok h
  cases h
  cases hr : selectorSelect callbacks w fds with
  | error e =>
    rw [hr] at hselect
    cases hselect
  | ok r =>
    rw [hr] at hselect
    cases hselect
    exact ⟨status, st.1, rfl⟩

/-- What every call keeps, and what the sets of `select` and the list of jobs are no part of, the program keeps. -/
theorem operate_preserves {P : SelectorAct ε δ → Prop} {I : SelectorWorld ε δ → Prop} {w w' : SelectorWorld ε δ}
    {op : Operation ε δ} (hact : ∀ act w w', P act → I w → act.perform w = .ok w' → I w')
    (hside : ∀ w : SelectorWorld ε δ, ∀ s, I w → s.fds = w.selector.fds → s.maxFd = w.selector.maxFd →
      s.masterR = w.selector.masterR → s.masterW = w.selector.masterW → I { w with selector := s })
    (hop : op.Makes P) (hi : I w) (h : operate w op = .ok w') : I w' := by
  cases op with
  | call act => exact hact act w w' hop hi h
  | select callbacks fds =>
    obtain ⟨status, called, hselect⟩ := operate_select h
    have hdispatch : ∀ (called : List (Dispatch ε δ)) (d : Dispatch ε δ) w w', I w → d.selector = w.selector →
        performAll w (callbacks (called ++ [d])) = .ok w' → I w' :=
      fun called d w w' hi _ h => performAll_preserves hact (hop (called ++ [d])) hi h
    exact selectorSelect_keeps (J := fun st => I st.2) hdispatch (fun _ => hside) hi hselect

end Preserved

section Sound

variable {w w' : SelectorWorld ε δ}

theorem FdSelector.Valid.side {s t : FdSelector ε δ} (hv : s.Valid) (hfds : t.fds = s.fds) (hmax : t.maxFd = s.maxFd)
    (hr : t.masterR = s.masterR) (hw : t.masterW = s.masterW) : t.Valid := by
  have hlook : t.lookup = s.lookup := lookup_congr hfds
  refine ⟨?_, ?_, ?_, ?_, ?_, ?_, ?_⟩
  · rw [hlook]
    exact hv.filled
  · rw [hlook, hmax]
    exact hv.greatest
  · rw [hlook, hmax]
    exact hv.attained
  · rw [hlook, hr]
    exact hv.masterR
  · rw [hlook, hw]
    exact hv.masterW
  · rw [hfds]
    exact hv.nonempty
  · rw [hfds]
    exact hv.small

theorem FdSelector.Complete.side {s t : FdSelector ε δ} (hc : s.Complete) (hfds : t.fds = s.fds) : t.Complete := by
  refine ⟨?_, ?_⟩
  · rw [hfds]
    exact hc.length
  · rw [hfds]
    exact hc.idle

/-- In every state that the program brings its selector to, the table is valid and complete. -/
theorem run_sound {s : FdSelector ε δ} {struct : Bool} {memory : Option (Nat → Item ε δ)}
    (hnew : selectorNew 1024 struct memory = some s) {ops : List (Operation ε δ)}
    (h : Runs.run operate ⟨s, []⟩ ops = .ok w) : w.selector.Valid ∧ w.selector.Complete := by
  refine Runs.run_always (I := fun _ w => w.selector.Valid ∧ w.selector.Complete)
    ⟨(selectorNew_valid hnew).1, selectorNew_complete (by decide) hnew⟩ ?_ h
  intro ops op w w' _ hi hstep
  refine operate_preserves (P := fun _ => True) (I := fun w => w.selector.Valid ∧ w.selector.Complete) ?_ ?_ ?_ hi hstep
  · rintro act w w' - ⟨hv, hc⟩ hperform
    have hleads := perform_leads act w w' hv hperform
    exact ⟨hleads.valid, hleads.complete hc⟩
  · rintro w s ⟨hv, hc⟩ hfds hmax hr hw
    exact ⟨hv.side hfds hmax hr hw, hc.side hfds⟩
  · cases op with
    | call act => trivial
    | select callbacks fds => exact fun _ _ _ => trivial

end Sound

section Current

variable {callbacks : SelectorCallbacks ε δ} {st st' : DispatchState ε δ} {i : Nat} {item : Item ε δ}
  {key : SelectorKey δ} {op : DispatchOp} {handler : FdHandler ε}

def DispatchOp.interest : DispatchOp → FdInterest
  | .read => OP_READ
  | .write => OP_WRITE
  | .block => OP_NOOP

/-- The callback belongs to what is registered for its descriptor at the moment it is called. -/
def Dispatch.Current (d : Dispatch ε δ) : Prop :=
  ∃ (i : Nat) (item : Item ε δ), d.key.fd = i ∧ d.selector.lookup i = some item ∧ item.handler = some d.handler ∧
    item.interest.includes d.op.interest ∧ d.key.data = item.data

/-- The callbacks that have been called when a visit or an iteration ends, or fails. -/
def dispatched : Dispatching ε δ (DispatchState ε δ) → List (Dispatch ε δ)
  | .ok st => st.1
  | .error e => e.2

/-- The callbacks that have been called when a round of the selector ends, or fails. -/
def selected : Dispatching ε δ (SelectorStatus × DispatchState ε δ) → List (Dispatch ε δ)
  | .ok r => r.2.1
  | .error e => e.2

/-- If a descriptor is to be written to after it has been read from, it is the one that was registered before, or
has the same data. -/
def Fresh (callbacks : SelectorCallbacks ε δ) (st : DispatchState ε δ) (i : Nat) : Prop :=
  ∀ item st' item', st.2.selector.lookup i = some item →
    dispatchRead callbacks st item { s := .self, fd := item.fd, data := item.data } = .ok st' →
    i ∈ st'.2.selector.slaveW → st'.2.selector.lookup i = some item' → item'.interest.includes OP_WRITE →
    (item'.handler.any fun handler => handler.handleWrite.isSome) → item'.data = item.data

theorem dispatch_log (hh : item.handler = some handler) :
    dispatched (dispatch callbacks st op item key) = st.1 ++
      if (handler.callback op).isNone then [] else [{ op, handler, key, selector := st.2.selector }] := by
  unfold dispatch
  rw [hh, demand_some, ok_bind]
  split_ifs with hnone
  · exact (List.append_nil st.1).symm
  · dsimp only
    cases performAll st.2 (callbacks _) <;> rfl

theorem dispatchRead_log (hv : st.2.selector.Valid) (hlook : st.2.selector.lookup i = some item) :
    ∃ new, dispatched (dispatchRead callbacks st item { s := .self, fd := item.fd, data := item.data }) = st.1 ++ new ∧
      ∀ d ∈ new, d.Current := by
  obtain ⟨hfd, -, hh⟩ := hv.filled hlook
  obtain ⟨handler, hh⟩ := Option.isSome_iff_exists.mp hh
  unfold dispatchRead
  by_cases hdue : fdIsset item.fd st.2.selector.slaveR ∧ item.interest.includes OP_READ
  · rw [if_pos hdue, dispatch_log hh]
    refine ⟨_, rfl, ?_⟩
    split_ifs
    · intro d hd
      cases hd
    · intro d hd
      rw [List.mem_singleton.mp hd]
      exact ⟨i, item, hfd, hlook, hh, hdue.2, rfl⟩
  · rw [if_neg hdue]
    exact ⟨[], (List.append_nil st.1).symm, fun d hd => by cases hd⟩

theorem performAll_dispatch (h : dispatch callbacks st op item key = .ok st') :
    ∃ log, performAll st.2 (callbacks log) = .ok st'.2 := by
  unfold dispatch at h
  obtain ⟨handler, -, h⟩ := bind_ok h
  split at h
  · cases h
  · dsimp only at h
    split at h
    next w hw =>
      cases h
      exact ⟨_, hw⟩
    · cases h

/-- Whatever the callbacks do leads on from where the calls before have led. -/
theorem leads_act (s : FdSelector ε δ) (act : SelectorAct ε δ) (w w' : SelectorWorld ε δ) (_ : True)
    (hl : Leads s w.selector) (h : act.perform w = .ok w') : Leads s w'.selector :=
  hl.trans (perform_leads act w w' hl.valid h)

theorem leads_calls (s : FdSelector ε δ) (called : List (Dispatch ε δ)) (d : Dispatch ε δ) (w w' : SelectorWorld ε δ)
    (hl : Leads s w.selector) (_ : d.selector = w.selector) (h : performAll w (callbacks (called ++ [d])) = .ok w') :
    Leads s w'.selector :=
  performAll_preserves (leads_act s) (fun _ _ => trivial) hl h

theorem dispatchRead_leads (hv : st.2.selector.Valid) (h : dispatchRead callbacks st item key = .ok st') :
    Leads st.2.selector st'.2.selector :=
  dispatchRead_keeps (J := fun st' => Leads st.2.selector st'.2.selector) (leads_calls st.2.selector) (Leads.refl hv) h

theorem visitItem_leads (hv : st.2.selector.Valid) (h : visitItem callbacks st i = .ok st') :
    Leads st.2.selector st'.2.selector :=
  visitItem_keeps (J := fun st' => Leads st.2.selector st'.2.selector) (leads_calls st.2.selector) (Leads.refl hv) h

theorem handleWrite_isSome : (handler.callback .write).isNone ↔ ¬ handler.handleWrite.isSome := by
  simp [FdHandler.callback]

/-- The callback for writing is current exactly if the key has the data of what is registered. -/
theorem dispatchWrite_log (hv : st.2.selector.Valid) (hlook : st.2.selector.lookup i = some item)
    (hwrite : item.interest.includes OP_WRITE) (hkey : key.fd = i) :
    ∃ new, dispatched (dispatch callbacks st .write item key) = st.1 ++ new ∧
      ((∀ d ∈ new, d.Current) ↔ ((item.handler.any fun handler => handler.handleWrite.isSome) → item.data = key.data)) := by
  obtain ⟨handler, hh⟩ := Option.isSome_iff_exists.mp (hv.filled hlook).2.2
  rw [dispatch_log hh, hh, Option.any_some]
  refine ⟨_, rfl, ?_⟩
  by_cases hnone : (handler.callback .write).isNone
  · rw [if_pos hnone]
    refine iff_of_true (fun d hd => by cases hd) fun hsome => ?_
    exact absurd hsome (handleWrite_isSome.mp hnone)
  · have hsome : handler.handleWrite.isSome := not_not.mp fun h => hnone (handleWrite_isSome.mpr h)
    rw [if_neg hnone, List.forall_mem_singleton]
    constructor
    · rintro ⟨j, it, hj, hlookj, -, -, hdata⟩ -
      obtain rfl : j = i := Int.natCast_inj.mp (hj.symm.trans hkey)
      cases hlook.symm.trans hlookj
      exact hdata.symm
    · intro hdata
      exact ⟨i, item, hkey, hlook, hh, hwrite, (hdata hsome).symm⟩

/-- The round of a registered descriptor whose callback for reading has returned. -/
theorem fresh_iff (hlook : st.2.selector.lookup i = some item)
    (hread : dispatchRead callbacks st item { s := .self, fd := item.fd, data := item.data } = .ok st') :
    Fresh callbacks st i ↔ ∀ item', i ∈ st'.2.selector.slaveW → st'.2.selector.lookup i = some item' →
      item'.interest.includes OP_WRITE → (item'.handler.any fun handler => handler.handleWrite.isSome) →
      item'.data = item.data := by
  constructor
  · intro h item'
    exact h item st' item' hlook hread
  · intro h item₁ st₁ item' hlook₁ hread₁
    cases hlook.symm.trans hlook₁
    cases hread.symm.trans hread₁
    exact h item'

/-- One round calls back for what is registered at that moment, but for a stale write. -/
theorem visitItem_log (hv : st.2.selector.Valid) (hc : st.2.selector.Complete) (hi : i < st.2.selector.fds.length) :
    ∃ new, dispatched (visitItem callbacks st i) = st.1 ++ new ∧
      ((∀ d ∈ new, d.Current) ↔ Fresh callbacks st i) := by
  obtain ⟨item, -, hget⟩ := item_of_lt hi
  unfold visitItem
  rw [hget, demand_some, ok_bind]
  by_cases hu : item.used
  · have hlook := lookup_eq_some.mpr ⟨hget, hu⟩
    obtain ⟨new, hnew, hcurrent⟩ := @dispatchRead_log _ _ callbacks st i item hv hlook
    rw [if_pos hu]
    dsimp only
    cases hread : dispatchRead callbacks st item { s := .self, fd := item.fd, data := item.data } with
    | error e =>
      -- the callback for reading is missing, or has aborted
      rw [hread] at hnew
      refine ⟨new, hnew, iff_of_true hcurrent ?_⟩
      intro item₁ st' item' hlook₁ hread₁
      cases hlook.symm.trans hlook₁
      cases hread.symm.trans hread₁
    | ok st' =>
      have hleads := dispatchRead_leads hv hread
      have hc' := hleads.complete hc
      have hlen : st'.2.selector.fds.length = st.2.selector.fds.length := hc'.length.trans hc.length.symm
      have hlog : st'.1 = st.1 ++ new := by
        rw [hread] at hnew
        exact hnew
      obtain ⟨item', -, hget'⟩ := item_of_lt (hlen ▸ hi)
      rw [ok_bind, if_neg (not_not.mpr hlen), hget', demand_some, ok_bind, fresh_iff hlook hread]
      have hisset : fdIsset i st'.2.selector.slaveW = true ↔ i ∈ st'.2.selector.slaveW := by simp [fdIsset]
      by_cases hdue : fdIsset i st'.2.selector.slaveW ∧ item'.interest.includes OP_WRITE
      · have hu' : item'.used := by
          intro hunused
          rw [hc'.idle hget' (not_not.mpr hunused), noop_includes] at hdue
          exact absurd hdue.2 (by decide)
        have hlook' := lookup_eq_some.mpr ⟨hget', hu'⟩
        obtain ⟨wrote, hwrote, hsame⟩ := @dispatchWrite_log _ _ callbacks st' i item'
          { s := .self, fd := item.fd, data := item.data } hleads.valid hlook' hdue.2 (hv.filled hlook).1
        rw [if_pos hdue, hwrote, hlog, List.append_assoc]
        refine ⟨new ++ wrote, rfl, ?_⟩
        rw [List.forall_mem_append, and_iff_right hcurrent, hsame]
        constructor
        · intro h item₂ _ hlook₂ _ hsome
          cases hlook'.symm.trans hlook₂
          exact h hsome
        · intro h hsome
          exact h item' (hisset.mp hdue.1) hlook' hdue.2 hsome
      · rw [if_neg hdue]
        refine ⟨new, hlog, iff_of_true hcurrent ?_⟩
        intro item₂ hslave hlook₂ hwrite _
        cases hget'.symm.trans (lookup_eq_some.mp hlook₂).1
        exact absurd ⟨hisset.mpr hslave, hwrite⟩ hdue
  · rw [if_neg hu]
    refine ⟨[], (List.append_nil st.1).symm, iff_of_true (fun d hd => by cases hd) ?_⟩
    intro item₁ st' item' hlook₁
    obtain ⟨hget₁, hu₁⟩ := lookup_eq_some.mp hlook₁
    cases hget.symm.trans hget₁
    exact absurd hu₁ hu

theorem visits_log {is : List Nat} (hv : st.2.selector.Valid) (hc : st.2.selector.Complete)
    (his : ∀ i ∈ is, i < st.2.selector.fds.length) :
    ∃ new, dispatched (Runs.run (visitItem callbacks) st is) = st.1 ++ new ∧
      ((∀ d ∈ new, d.Current) ↔ Runs.Meets (visitItem callbacks) (Fresh callbacks) st is) := by
  induction is generalizing st with
  | nil => exact ⟨[], (List.append_nil st.1).symm, iff_of_true (fun d hd => by cases hd) (Runs.meets_nil _ _)⟩
  | cons i is ih =>
    obtain ⟨new, hnew, hfresh⟩ := @visitItem_log _ _ callbacks st i hv hc (his i List.mem_cons_self)
    rw [Runs.run_cons, Runs.meets_cons]
    cases hvisit : visitItem callbacks st i with
    | error e =>
      rw [hvisit] at hnew
      refine ⟨new, hnew, hfresh.trans (iff_self_and.mpr fun _ st' h => ?_)⟩
      cases h
    | ok st' =>
      rw [hvisit] at hnew
      have hleads := visitItem_leads hv hvisit
      have hc' := hleads.complete hc
      have hlen : st'.2.selector.fds.length = st.2.selector.fds.length := hc'.length.trans hc.length.symm
      obtain ⟨rest, hrest, hmeets⟩ := ih hleads.valid hc' (fun j hj => hlen ▸ his j (List.mem_cons_of_mem i hj))
      have hlog : st'.1 = st.1 ++ new := hnew
      rw [ok_bind, hrest, hlog, List.append_assoc]
      refine ⟨new ++ rest, rfl, ?_⟩
      rw [List.forall_mem_append, hfresh, hmeets]
      apply and_congr_right
      intro _
      constructor
      · intro h st₁ hst₁
        cases hst₁
        exact h
      · intro h
        exact h st' rfl

/-- In an iteration of the selector, every callback for reading or writing belongs to what is registered for its
descriptor when it is called, exactly if in no round the callback for reading leaves the descriptor ready to be
written to for other data. -/
theorem dispatch_current_iff {s : FdSelector ε δ} {struct : Bool} {memory : Option (Nat → Item ε δ)}
    (hnew : selectorNew 1024 struct memory = some s) {ops : List (Operation ε δ)} {w : SelectorWorld ε δ}
    (hrun : Runs.run operate ⟨s, []⟩ ops = .ok w) (slaveR slaveW : FdSet) (callbacks : SelectorCallbacks ε δ) :
    (∀ d ∈ dispatched (handleIteration callbacks ([], { w with selector := { w.selector with slaveR, slaveW } })),
        d.Current) ↔
      Runs.Meets (visitItem callbacks) (Fresh callbacks) ([], { w with selector := { w.selector with slaveR, slaveW } })
        (List.range (w.selector.maxFd + 1)) := by
  obtain ⟨hv, hc⟩ := run_sound hnew hrun
  have hv' : ({ w.selector with slaveR, slaveW } : FdSelector ε δ).Valid := hv.side rfl rfl rfl rfl
  have hc' : ({ w.selector with slaveR, slaveW } : FdSelector ε δ).Complete := hc.side rfl
  obtain ⟨new, hnew, hmeets⟩ := @visits_log _ _ callbacks
    ([], { w with selector := { w.selector with slaveR, slaveW } }) (List.range (w.selector.maxFd + 1)) hv' hc' (by
      intro i hi
      have hlt := hv.maxFd_lt
      have hle := List.mem_range.mp hi
      show i < w.selector.fds.length
      omega)
  rw [← hmeets, handleIteration]
  show (∀ d ∈ dispatched (Runs.run (visitItem callbacks) _ (List.range (w.selector.maxFd + 1))), d.Current) ↔ _
  rw [hnew]
  rfl

abbrev readerWriter : FdHandler Nat := { handleRead := some 1, handleWrite := some 2, handleBlock := none, handleClose := some 3 }

/-- Descriptor 5 is registered for reading and writing, with some data. -/
abbrev registerFive (data : Nat) : SelectorAct Nat Nat :=
  .make (.register .self 5 (some readerWriter) (OP_READ ||| OP_WRITE) (some data) none) []

theorem dispatch_current_iff_idle :
    ∃ s w, selectorNew 1024 true (some fun _ => (blankItem : Item Nat Nat)) = some s ∧
      Runs.run operate ⟨s, []⟩ [.call (registerFive 1)] = .ok w ∧
      ∀ d ∈ dispatched (handleIteration (fun _ => [])
        ([], { w with selector := { w.selector with slaveR := {5}, slaveW := {5} } })), d.Current := by
  obtain ⟨s, hnew⟩ : ∃ s, selectorNew 1024 true (some fun _ => (blankItem : Item Nat Nat)) = some s := ⟨_, rfl⟩
  obtain ⟨w, hw⟩ : ∃ w, Runs.run operate ⟨s, []⟩ [.call (registerFive 1)] = .ok w := by
    cases hnew
    exact ok_of_toOption (by decide +kernel)
  refine ⟨s, w, hnew, hw, (dispatch_current_iff hnew hw {5} {5} fun _ => []).mpr ?_⟩
  apply Runs.Meets.of_events
  intro i _ st item st' item' hlook hread _ hlook' _ _
  have hsame : st'.2 = st.2 := by
    unfold dispatchRead at hread
    split at hread
    · obtain ⟨log, hlog⟩ := performAll_dispatch hread
      rw [performAll] at hlog
      exact (Except.ok.inj hlog).symm
    · cases hread
      rfl
  rw [hsame] at hlook'
  cases hlook.symm.trans hlook'
  rfl

/-- The data of the key is not that of the registration. -/
def Dispatch.stale (d : Dispatch ε Nat) : Bool :=
  (d.selector.lookup d.key.fd.toNat).any fun item => item.data ≠ d.key.data

theorem not_current_of_stale {d : Dispatch ε Nat} (h : d.stale = true) : ¬ d.Current := by
  rintro ⟨i, item, hfd, hlook, -, -, hdata⟩
  rw [Dispatch.stale, hfd, Int.toNat_natCast, hlook, Option.any_some, hdata] at h
  simp at h

/-- The callback for reading gives up descriptor 5, which is registered again at once, with other data. -/
abbrev reuseFive (log : List (Dispatch Nat Nat)) : List (SelectorAct Nat Nat) :=
  if log.length = 1 then [.make (.unregister .self 5) [], registerFive 2] else []

theorem dispatch_stale_data :
    ∃ s w, selectorNew 1024 true (some fun _ => (blankItem : Item Nat Nat)) = some s ∧
      Runs.run operate ⟨s, []⟩ [.call (registerFive 1)] = .ok w ∧
      ¬ ∀ d ∈ dispatched (handleIteration reuseFive
        ([], { w with selector := { w.selector with slaveR := {5}, slaveW := {5} } })), d.Current := by
  obtain ⟨w, hw, hstale⟩ := ok_of_any
    (x := (selectorNew 1024 true (some fun _ => (blankItem : Item Nat Nat))).elim (.error .nullPointer) fun s =>
      Runs.run operate ⟨s, []⟩ [.call (registerFive 1)])
    (P := fun w => (dispatched (handleIteration reuseFive
      ([], { w with selector := { w.selector with slaveR := {5}, slaveW := {5} } }))).any Dispatch.stale = true)
    (by decide +kernel)
  refine ⟨_, w, rfl, hw, fun hall => ?_⟩
  obtain ⟨d, hd, hdstale⟩ := List.any_eq_true.mp hstale
  exact not_current_of_stale hdstale (hall d hd)

end Current

end Smtpd.Selector
