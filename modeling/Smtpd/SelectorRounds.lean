import Smtpd.SelectorDispatch
import Smtpd.Lib.Reactive

namespace Smtpd.Selector

open Checked Leases

variable {ε δ : Type}

/-- What the calls for a descriptor are no concern of: the sets of the last `pselect`, and the jobs. -/
structure Beside (s t : FdSelector ε δ) : Prop where
  slaveR : t.slaveR = s.slaveR
  slaveW : t.slaveW = s.slaveW
  jobs : t.resolutionJobs = s.resolutionJobs

section Calls

variable {s t u : FdSelector ε δ} {w w' : SelectorWorld ε δ} {item : Item ε δ} {i : Nat} {fd : Int} {arg : SelectorArg}
  {status : SelectorStatus} {interest : FdInterest}

theorem Beside.refl (s : FdSelector ε δ) : Beside s s := ⟨rfl, rfl, rfl⟩

theorem Beside.trans (h : Beside s t) (h' : Beside t u) : Beside s u :=
  ⟨h'.slaveR.trans h.slaveR, h'.slaveW.trans h.slaveW, h'.jobs.trans h.jobs⟩

theorem itemsUpdate_beside (h : itemsUpdateFdsetForFd s item = .ok t) : Beside s t := by
  by_cases hin : 0 ≤ item.fd ∧ item.fd < FD_SETSIZE
  · have hfd : item.fd = (item.fd.toNat : Int) := by omega
    rw [itemsUpdate_ok hfd (by omega)] at h
    cases h
    exact ⟨rfl, rfl, rfl⟩
  · rw [itemsUpdateFdsetForFd, fdClr, if_neg hin, error_bind] at h
    cases h

theorem unregisterItem_beside (h : unregisterItem s fd = .ok t) : Beside s t := by
  obtain ⟨item, -, h⟩ := bind_ok h
  obtain ⟨s₁, hupdate, h⟩ := bind_ok h
  obtain ⟨maxFd, -, h⟩ := bind_ok h
  cases h
  have hbeside := itemsUpdate_beside hupdate
  exact ⟨hbeside.slaveR, hbeside.slaveW, hbeside.jobs⟩

theorem makeRoom_beside {memory : Option (Nat → Item ε δ)} (hne : i ≠ s.fds.length)
    (h : makeRoom s i memory = (.success, t)) : Beside s t := by
  have hgrown := makeRoom_grown hne h
  rw [hgrown.same]
  exact ⟨rfl, rfl, rfl⟩

theorem registerItem_beside (h : registerItem s item = .ok (status, t)) : Beside s t := by
  obtain ⟨old, -, h⟩ := bind_ok h
  split at h
  · cases h
    exact Beside.refl s
  · obtain ⟨s₁, hupdate, h⟩ := bind_ok h
    cases h
    have hbeside := itemsUpdate_beside hupdate
    exact ⟨hbeside.slaveR, hbeside.slaveW, hbeside.jobs⟩

theorem selectorRegister_beside {handler : Option (FdHandler ε)} {data : Option δ} {memory : Option (Nat → Item ε δ)}
    (hc : w.selector.Complete) (h : selectorRegister w arg fd handler interest data memory = .ok (status, w')) :
    Beside w.selector w'.selector := by
  unfold selectorRegister at h
  split at h
  · cases h
    exact Beside.refl _
  next hargs =>
    have hfd : ¬ INVALID_FD fd := fun hfd => hargs (Or.inr (Or.inl hfd))
    obtain ⟨i, rfl, hi⟩ := valid_fd hfd
    have hmax : ITEMS_MAX_SIZE = FD_SETSIZE := rfl
    have hne : i ≠ w.selector.fds.length := by
      rw [hc.length]
      omega
    rw [Int.toNat_natCast] at h
    split at h
    next t hroom =>
      obtain ⟨⟨status', u⟩, hitem, h⟩ := bind_ok h
      cases h
      exact (makeRoom_beside hne hroom).trans (registerItem_beside hitem)
    next status t hs hroom =>
      cases h
      rw [makeRoom_failed hroom hs]
      exact Beside.refl _

/-- The interest in a descriptor that is registered is changed. -/
theorem setInterest_found (hv : w.selector.Valid) (hlook : w.selector.lookup i = some item) (interest : FdInterest) :
    ∃ w', selectorSetInterest w .self i interest = .ok (.success, w') ∧
      Changes w.selector w'.selector i (some { item with interest }) ∧ w'.log = w.log ∧
      Beside w.selector w'.selector := by
  obtain ⟨hfd, hi, -⟩ := hv.filled hlook
  have hmax : ITEMS_MAX_SIZE = FD_SETSIZE := rfl
  have hvalid : ¬ INVALID_FD (i : Int) := by
    unfold INVALID_FD
    omega
  have hlt := lookup_lt hlook
  obtain ⟨status, w', h, hcases⟩ := @selectorSetInterest_ok _ _ w .self i interest hv fun _ _ => by omega
  have hrun := h
  unfold selectorSetInterest at hrun
  rw [if_neg (not_args hvalid), item_of_lookup hlook, ok_bind, if_neg (not_not.mpr (used_of_fd hfd))] at hrun
  obtain ⟨s, hupdate, hrun⟩ := bind_ok hrun
  cases hrun
  have hbeside := itemsUpdate_beside hupdate
  obtain ⟨hne, -⟩ | ⟨-, j, it, hj, hlookj, hc, hlog⟩ := hcases
  · exact absurd rfl hne
  · obtain rfl : i = j := Int.natCast_inj.mp hj
    obtain rfl : item = it := Option.some.inj (hlook.symm.trans hlookj)
    exact ⟨_, h, hc, hlog, hbeside.slaveR, hbeside.slaveW, hbeside.jobs⟩

/-- A descriptor that is registered is given to `handle_close`, which leaves the selector alone, and unregistered. -/
theorem unregister_found (hv : w.selector.Valid) (hlook : w.selector.lookup i = some item)
    (hclose : item.handler.any fun handler => handler.handleClose.isSome) :
    ∃ w', selectorUnregisterFd .ok w .self i = .ok (.success, w') ∧ Changes w.selector w'.selector i none ∧
      w'.log = w.log ++ [.returned i item.data] ∧ Beside w.selector w'.selector := by
  obtain ⟨r, hr, hc⟩ := unregisterItem_ok hv hlook
  have hfd : item.fd = i := (hv.filled hlook).1
  rw [selectorUnregisterFd_eq hv hlook, closing, if_pos hclose, ok_bind, if_neg (not_not.mpr rfl), hr, hfd]
  have hbeside := unregisterItem_beside hr
  exact ⟨_, rfl, hc, rfl, hbeside.slaveR, hbeside.slaveW, hbeside.jobs⟩

end Calls

/-- What a round serves of the descriptors that are ready: reading before writing. -/
def due (readable writable : FdSet) (i : Nat) : Option (Int × DispatchOp) :=
  if i ∈ readable then some (i, .read) else if i ∈ writable then some (i, .write) else none

/-- The callbacks of a program that reacts to each by what has become of its state. -/
def reacting {φ σ : Type} (react : Nat → σ → Dispatch ε δ → Except φ (σ × List (SelectorAct ε δ))) (s : σ) :
    SelectorCallbacks ε δ :=
  fun log => (Reactive.last react s log).getD []

/-- A program whose callbacks keep to their own descriptor: each descriptor is registered for one operation, with a
callback for it, and what a callback calls the selector for leaves alone what is registered for other descriptors. -/
structure Disciplined {φ σ : Type} (react : Nat → σ → Dispatch ε δ → Except φ (σ × List (SelectorAct ε δ)))
    (I : σ → SelectorWorld ε δ → Prop) : Prop where
  valid : ∀ {s w}, I s w → w.selector.Valid ∧ w.selector.Complete
  idle : ∀ {s w}, I s w → w.selector.resolutionJobs = [] ∧ w.selector.locked = false
  single : ∀ {s w i item}, I s w → w.selector.lookup i = some item →
    ¬ (item.interest.includes OP_READ ∧ item.interest.includes OP_WRITE)
  handled : ∀ {s w i item op}, I s w → w.selector.lookup i = some item → op ≠ .block → item.interest.includes op.interest →
    ∃ handler, item.handler = some handler ∧ (handler.callback op).isSome
  reacts : ∀ {s s' w i item op handler k acts}, I s w → w.selector.lookup i = some item → op ≠ .block →
    item.interest.includes op.interest → item.handler = some handler →
    react k s { op, handler, key := { s := .self, fd := item.fd, data := item.data }, selector := w.selector } =
      .ok (s', acts) →
    ∃ w', performAll w acts = .ok w' ∧ I s' w' ∧ Beside w.selector w'.selector ∧
      ∀ j it, j ≠ i → w.selector.lookup j = some it → w'.selector.lookup j = some it
  side : ∀ {s w slaveR slaveW}, I s w → I s { w with selector := { w.selector with slaveR, slaveW } }

section Rounds

variable {φ σ ι : Type} {react : Nat → σ → Dispatch ε δ → Except φ (σ × List (SelectorAct ε δ))}
  {I : σ → SelectorWorld ε δ → Prop} {s t t' : σ} {st st' : DispatchState ε δ} {i n : Nat} {item : Item ε δ}
  {op : DispatchOp} {readable writable : FdSet} {callbacks : SelectorCallbacks ε δ} {key : SelectorKey δ}

/-- A callback that is due runs. If the program survives it, it finds the selector as it left it. -/
theorem Disciplined.dispatch (hd : Disciplined react I) (op : DispatchOp) (hafter : Reactive.after react s st.1 = .ok t) (hi : I t st.2)
    (hlook : st.2.selector.lookup i = some item) (hop : op ≠ .block) (hint : item.interest.includes op.interest) :
    ∃ d w', Selector.dispatch (reacting react s) st op item { s := .self, fd := item.fd, data := item.data } =
        .ok (st.1 ++ [d], w') ∧ d.op = op ∧ d.key.fd = (i : Int) ∧ d.Current ∧
      w'.selector.fds.length = st.2.selector.fds.length ∧ Beside st.2.selector w'.selector ∧
      ∀ t', Reactive.after react s (st.1 ++ [d]) = .ok t' →
        I t' w' ∧ ∀ j it, j ≠ i → st.2.selector.lookup j = some it → w'.selector.lookup j = some it := by
  obtain ⟨handler, hh, hcallback⟩ := hd.handled hi hlook hop hint
  have hfd : item.fd = i := ((hd.valid hi).1.filled hlook).1
  have hnone : ¬ (handler.callback op).isNone := by
    rw [Option.isNone_iff_eq_none, ← ne_eq, ← Option.isSome_iff_ne_none]
    exact hcallback
  obtain ⟨d, hdef⟩ : ∃ d : Dispatch ε δ, d =
      { op, handler, key := { s := .self, fd := item.fd, data := item.data }, selector := st.2.selector } := ⟨_, rfl⟩
  have hcurrent : d.Current := by
    rw [hdef]
    exact ⟨i, item, hfd, hlook, hh, hint, rfl⟩
  have hdispatch : ∀ {w'}, performAll st.2 (reacting react s (st.1 ++ [d])) = .ok w' →
      Selector.dispatch (reacting react s) st op item { s := .self, fd := item.fd, data := item.data } =
        .ok (st.1 ++ [d], w') := by
    intro w' hperform
    unfold Selector.dispatch
    rw [hh, demand_some, ok_bind, if_neg hnone]
    subst hdef
    dsimp only
    rw [hperform]
  cases hreact : react st.1.length t d with
  | error f =>
    -- the program has failed, and calls nothing any more
    have hacts : reacting react s (st.1 ++ [d]) = [] := by
      rw [reacting, Reactive.last_concat hafter, hreact]
      rfl
    refine ⟨d, st.2, hdispatch (by rw [hacts, performAll]), by rw [hdef], by rw [hdef]; exact hfd, hcurrent, rfl,
      Beside.refl _, fun t' ht' => ?_⟩
    rw [Reactive.after_concat, hafter, ok_bind, Reactive.step, hreact] at ht'
    cases ht'
  | ok r =>
    obtain ⟨hnext, hlast⟩ := Reactive.after_react hafter hreact
    have hacts : reacting react s (st.1 ++ [d]) = r.2 := by
      rw [reacting, hlast]
      rfl
    rw [hdef] at hreact
    obtain ⟨w', hperform, hi', hbeside, hothers⟩ := hd.reacts hi hlook hop hint hh hreact
    have hlen : w'.selector.fds.length = st.2.selector.fds.length :=
      (hd.valid hi').2.length.trans (hd.valid hi).2.length.symm
    refine ⟨d, w', hdispatch (by rw [hacts, hperform]), by rw [hdef], by rw [hdef]; exact hfd, hcurrent, hlen, hbeside,
      fun t' ht' => ?_⟩
    cases hnext.symm.trans ht'
    exact ⟨hi', hothers⟩

/-- What is known of a round that has come to a descriptor. -/
structure Served (I : σ → SelectorWorld ε δ → Prop) (readable writable : FdSet) (n : Nat) (t : σ) (st : DispatchState ε δ) :
    Prop where
  holds : I t st.2
  slaveR : st.2.selector.slaveR = readable
  slaveW : st.2.selector.slaveW = writable
  readers : ∀ j, n ≤ j → j ∈ readable → ∃ item, st.2.selector.lookup j = some item ∧ item.interest.includes OP_READ
  writers : ∀ j, n ≤ j → j ∈ writable → ∃ item, st.2.selector.lookup j = some item ∧ item.interest.includes OP_WRITE
  calls : (st.1.map fun d => (d.key.fd, d.op)) = (List.range n).filterMap (due readable writable)
  current : ∀ d ∈ st.1, d.Current

theorem Served.idle (h : Served I readable writable n t st) (hdue : due readable writable n = none) :
    Served I readable writable (n + 1) t st := by
  refine ⟨h.holds, h.slaveR, h.slaveW, fun j hj => h.readers j (by omega), fun j hj => h.writers j (by omega), ?_, h.current⟩
  rw [h.calls, List.range_succ, List.filterMap_append, List.filterMap_cons_none hdue, List.filterMap_nil, List.append_nil]

/-- The round goes on when the callback that was due has returned. -/
theorem Served.next {d : Dispatch ε δ} {w' : SelectorWorld ε δ} (h : Served I readable writable n t st)
    (hdue : due readable writable n = some (d.key.fd, d.op)) (hcurrent : d.Current) (hi : I t' w')
    (hbeside : Beside st.2.selector w'.selector)
    (hothers : ∀ j it, j ≠ n → st.2.selector.lookup j = some it → w'.selector.lookup j = some it) :
    Served I readable writable (n + 1) t' (st.1 ++ [d], w') := by
  refine ⟨hi, hbeside.slaveR.trans h.slaveR, hbeside.slaveW.trans h.slaveW, fun j hj hr => ?_, fun j hj hw => ?_, ?_, ?_⟩
  · obtain ⟨item, hlook, hint⟩ := h.readers j (by omega) hr
    exact ⟨item, hothers j item (by omega) hlook, hint⟩
  · obtain ⟨item, hlook, hint⟩ := h.writers j (by omega) hw
    exact ⟨item, hothers j item (by omega) hlook, hint⟩
  · rw [List.map_append, h.calls, List.range_succ, List.filterMap_append, List.filterMap_cons_some hdue]
    rfl
  · intro d' hd'
    rcases List.mem_append.mp hd' with hd' | hd'
    · exact h.current d' hd'
    · rw [List.mem_singleton.mp hd']
      exact hcurrent

theorem dispatch_extends (callbacks : SelectorCallbacks ε δ) (st : DispatchState ε δ) (op : DispatchOp) (item : Item ε δ)
    (key : SelectorKey δ) : ∃ new, dispatched (dispatch callbacks st op item key) = st.1 ++ new := by
  cases hh : item.handler with
  | none =>
    refine ⟨[], ?_⟩
    rw [dispatch, hh, List.append_nil]
    rfl
  | some handler => exact ⟨_, dispatch_log hh⟩

theorem dispatchRead_extends (callbacks : SelectorCallbacks ε δ) (st : DispatchState ε δ) (item : Item ε δ)
    (key : SelectorKey δ) : ∃ new, dispatched (dispatchRead callbacks st item key) = st.1 ++ new := by
  unfold dispatchRead
  split
  · exact dispatch_extends callbacks st .read item key
  · exact ⟨[], (List.append_nil st.1).symm⟩

/-- The callbacks that have been called stay called, whatever comes of the round. -/
theorem visitItem_extends (callbacks : SelectorCallbacks ε δ) (st : DispatchState ε δ) (i : Nat) :
    ∃ new, dispatched (visitItem callbacks st i) = st.1 ++ new := by
  have hsame : ∃ new, st.1 = st.1 ++ new := ⟨[], (List.append_nil st.1).symm⟩
  unfold visitItem
  cases st.2.selector.fds[i]? with
  | none => exact hsame
  | some item =>
    rw [demand_some, ok_bind]
    by_cases hu : item.used
    · rw [if_pos hu]
      obtain ⟨new, hnew⟩ := dispatchRead_extends callbacks st item { s := .self, fd := item.fd, data := item.data }
      dsimp only
      cases hread : dispatchRead callbacks st item { s := .self, fd := item.fd, data := item.data } with
      | error e =>
        rw [hread] at hnew
        exact ⟨new, hnew⟩
      | ok st' =>
        rw [hread] at hnew
        have hlog : st'.1 = st.1 ++ new := hnew
        rw [ok_bind]
        split
        · exact ⟨new, hlog⟩
        · cases st'.2.selector.fds[i]? with
          | none => exact ⟨new, hlog⟩
          | some item' =>
            rw [demand_some, ok_bind]
            split
            · obtain ⟨wrote, hwrote⟩ := dispatch_extends callbacks st' .write item'
                { s := .self, fd := item.fd, data := item.data }
              exact ⟨new ++ wrote, by rw [hwrote, hlog, List.append_assoc]⟩
            · exact ⟨new, hlog⟩
    · rw [if_neg hu]
      exact hsame

theorem run_extends {step : DispatchState ε δ → ι → Dispatching ε δ (DispatchState ε δ)}
    (hstep : ∀ st e, ∃ new, dispatched (step st e) = st.1 ++ new) (st : DispatchState ε δ) (es : List ι) :
    ∃ new, dispatched (Runs.run step st es) = st.1 ++ new := by
  induction es generalizing st with
  | nil => exact ⟨[], (List.append_nil st.1).symm⟩
  | cons e es ih =>
    obtain ⟨new, hnew⟩ := hstep st e
    rw [Runs.run_cons]
    cases h : step st e with
    | error f =>
      rw [h] at hnew
      exact ⟨new, hnew⟩
    | ok st' =>
      rw [h] at hnew
      have hlog : st'.1 = st.1 ++ new := hnew
      obtain ⟨rest, hrest⟩ := ih st'
      exact ⟨new ++ rest, by rw [ok_bind, hrest, hlog, List.append_assoc]⟩

theorem notifyItem_extends (callbacks : SelectorCallbacks ε δ) (st : DispatchState ε δ) (fd : Int) :
    ∃ new, dispatched (notifyItem callbacks st fd) = st.1 ++ new := by
  unfold notifyItem
  cases st.2.selector.item fd with
  | error f => exact ⟨[], (List.append_nil st.1).symm⟩
  | ok item =>
    rw [Except.mapError, ok_bind]
    split
    · exact dispatch_extends callbacks st .block item _
    · exact ⟨[], (List.append_nil st.1).symm⟩

theorem handleBlockNotifications_extends (callbacks : SelectorCallbacks ε δ) (st : DispatchState ε δ) :
    ∃ new, dispatched (handleBlockNotifications callbacks st) = st.1 ++ new := by
  unfold handleBlockNotifications
  split
  · exact ⟨[], (List.append_nil st.1).symm⟩
  · dsimp only
    obtain ⟨new, hnew⟩ := run_extends (notifyItem_extends callbacks)
      (st.1, { st.2 with selector := { st.2.selector with locked := true } }) st.2.selector.resolutionJobs
    cases h : Runs.run (notifyItem callbacks) (st.1, { st.2 with selector := { st.2.selector with locked := true } })
        st.2.selector.resolutionJobs with
    | error f =>
      rw [h] at hnew
      exact ⟨new, hnew⟩
    | ok st' =>
      rw [h] at hnew
      exact ⟨new, hnew⟩

theorem mem_of_fdIsset {i : Nat} {set : FdSet} : fdIsset i set = true ↔ i ∈ set := by simp [fdIsset]

/-- The visit of a descriptor calls back what is due there, and nothing else. -/
theorem Served.visit (hd : Disciplined react I) (hafter : Reactive.after react s st.1 = .ok t)
    (h : Served I readable writable n t st) (hn : n < st.2.selector.fds.length) :
    ∃ st', visitItem (reacting react s) st n = .ok st' ∧
      ∀ t', Reactive.after react s st'.1 = .ok t' → Served I readable writable (n + 1) t' st' := by
  obtain ⟨item, -, hget⟩ := item_of_lt hn
  have hidle : due readable writable n = none → ∀ t', Reactive.after react s st.1 = .ok t' →
      Served I readable writable (n + 1) t' st := by
    intro hdue t' ht'
    cases hafter.symm.trans ht'
    exact h.idle hdue
  unfold visitItem
  rw [hget, demand_some, ok_bind]
  by_cases hu : item.used
  · have hlook := lookup_eq_some.mpr ⟨hget, hu⟩
    have hfd : item.fd = n := ((hd.valid h.holds).1.filled hlook).1
    have hreads : n ∈ readable → item.interest.includes OP_READ := by
      intro hr
      obtain ⟨it, hit, hint⟩ := h.readers n le_rfl hr
      cases hlook.symm.trans hit
      exact hint
    have hwrites : n ∈ writable → item.interest.includes OP_WRITE := by
      intro hw
      obtain ⟨it, hit, hint⟩ := h.writers n le_rfl hw
      cases hlook.symm.trans hit
      exact hint
    rw [if_pos hu]
    dsimp only
    by_cases hr : n ∈ readable
    · have hw : n ∉ writable := fun hw => hd.single h.holds hlook ⟨hreads hr, hwrites hw⟩
      have hisset : fdIsset item.fd st.2.selector.slaveR ∧ item.interest.includes OP_READ := by
        rw [hfd, h.slaveR]
        exact ⟨mem_of_fdIsset.mpr hr, hreads hr⟩
      obtain ⟨d, w', hdispatch, hop, hkey, hcurrent, hlen, hbeside, hnext⟩ :=
        hd.dispatch .read hafter h.holds hlook (by decide) (hreads hr)
      have hlen : (st.1 ++ [d], w').2.selector.fds.length = st.2.selector.fds.length := hlen
      obtain ⟨item', -, hget'⟩ := item_of_lt (hlen ▸ hn)
      have hnot : ¬ (fdIsset n w'.selector.slaveW ∧ item'.interest.includes OP_WRITE) := by
        rw [hbeside.slaveW, h.slaveW]
        exact fun hset => hw (mem_of_fdIsset.mp hset.1)
      rw [dispatchRead, if_pos hisset, hdispatch, ok_bind, if_neg (not_not.mpr hlen), hget', demand_some, ok_bind,
        if_neg hnot]
      refine ⟨_, rfl, fun t' ht' => ?_⟩
      obtain ⟨hi', hothers⟩ := hnext t' ht'
      exact h.next (by rw [due, if_pos hr, hkey, hop]) hcurrent hi' hbeside hothers
    · have hisset : ¬ (fdIsset item.fd st.2.selector.slaveR ∧ item.interest.includes OP_READ) := by
        rw [hfd, h.slaveR]
        exact fun hset => hr (mem_of_fdIsset.mp hset.1)
      rw [dispatchRead, if_neg hisset, ok_bind, if_neg (not_not.mpr rfl), hget, demand_some, ok_bind]
      by_cases hw : n ∈ writable
      · have hdue : fdIsset n st.2.selector.slaveW ∧ item.interest.includes OP_WRITE := by
          rw [h.slaveW]
          exact ⟨mem_of_fdIsset.mpr hw, hwrites hw⟩
        obtain ⟨d, w', hdispatch, hop, hkey, hcurrent, -, hbeside, hnext⟩ :=
          hd.dispatch .write hafter h.holds hlook (by decide) (hwrites hw)
        rw [if_pos hdue, hdispatch]
        refine ⟨_, rfl, fun t' ht' => ?_⟩
        obtain ⟨hi', hothers⟩ := hnext t' ht'
        exact h.next (by rw [due, if_neg hr, if_pos hw, hkey, hop]) hcurrent hi' hbeside hothers
      · have hdue : ¬ (fdIsset n st.2.selector.slaveW ∧ item.interest.includes OP_WRITE) := by
          rw [h.slaveW]
          exact fun hset => hw (mem_of_fdIsset.mp hset.1)
        rw [if_neg hdue]
        exact ⟨st, rfl, hidle (by rw [due, if_neg hr, if_neg hw])⟩
  · have hnone : st.2.selector.lookup n = none := by
      apply lookup_eq_none.mpr
      intro it hit
      cases hget.symm.trans hit
      exact hu
    have hr : n ∉ readable := by
      intro hr
      obtain ⟨it, hit, -⟩ := h.readers n le_rfl hr
      cases hnone.symm.trans hit
    have hw : n ∉ writable := by
      intro hw
      obtain ⟨it, hit, -⟩ := h.writers n le_rfl hw
      cases hnone.symm.trans hit
    rw [if_neg hu]
    exact ⟨st, rfl, hidle (by rw [due, if_neg hr, if_neg hw])⟩

/-- Unless the program has failed by then, a round comes to every descriptor. -/
theorem Served.visits (hd : Disciplined react I) (hafter : Reactive.after react s st.1 = .ok t)
    (h : Served I readable writable 0 t st) (hn : n ≤ st.2.selector.fds.length) :
    ∀ t', Reactive.after react s (dispatched (Runs.run (visitItem (reacting react s)) st (List.range n))) = .ok t' →
      ∃ st', Runs.run (visitItem (reacting react s)) st (List.range n) = .ok st' ∧ Served I readable writable n t' st' := by
  induction n with
  | zero =>
    intro t' ht'
    cases hafter.symm.trans ht'
    exact ⟨st, rfl, h⟩
  | succ n ih =>
    intro t' ht'
    have hrun : Runs.run (visitItem (reacting react s)) st (List.range (n + 1)) =
        Runs.run (visitItem (reacting react s)) st (List.range n) >>= fun st => visitItem (reacting react s) st n := by
      rw [List.range_succ, Runs.run_append]
      apply bind_congr
      intro st'
      exact bind_pure _
    rw [hrun] at ht' ⊢
    cases hprev : Runs.run (visitItem (reacting react s)) st (List.range n) with
    | error e =>
      rw [hprev, error_bind] at ht'
      obtain ⟨st', hst', -⟩ := ih (by omega) t' (by rw [hprev]; exact ht')
      cases hprev.symm.trans hst'
    | ok st₁ =>
      rw [hprev, ok_bind] at ht'
      obtain ⟨new, hnew⟩ := visitItem_extends (reacting react s) st₁ n
      rw [hnew] at ht'
      obtain ⟨u, hu⟩ := Reactive.after_prefix ht'
      obtain ⟨st', hst', hserved⟩ := ih (by omega) u (by rw [hprev]; exact hu)
      cases hprev.symm.trans hst'
      have hlen : st₁.2.selector.fds.length = st.2.selector.fds.length :=
        (hd.valid hserved.holds).2.length.trans (hd.valid h.holds).2.length.symm
      obtain ⟨st', hvisit, hnext⟩ := hserved.visit hd hu (by omega)
      rw [hvisit] at hnew
      have hlog : st'.1 = st₁.1 ++ new := hnew
      rw [ok_bind, hvisit]
      exact ⟨st', rfl, hnext t' (by rw [hlog]; exact ht')⟩

/-- Without jobs nothing is notified. -/
theorem handleBlockNotifications_idle {callbacks : SelectorCallbacks ε δ} (hjobs : st.2.selector.resolutionJobs = [])
    (hlocked : st.2.selector.locked = false) : handleBlockNotifications callbacks st = .ok st := by
  obtain ⟨log, selector, events⟩ := st
  obtain ⟨fds, maxFd, masterR, masterW, slaveR, slaveW, jobs, locked⟩ := selector
  cases hjobs
  cases hlocked
  rfl

/-- In a round of a disciplined program that does not fail, every descriptor that is ready for what it is registered
for is called back exactly once, in the order of the descriptors, each for what is registered at that moment. -/
theorem Disciplined.select {w : SelectorWorld ε δ} (hd : Disciplined react I) (hi : I s w)
    (hr : readable ⊆ w.selector.masterR) (hw : writable ⊆ w.selector.masterW) :
    ∀ t, Reactive.after react s (selected (selectorSelect (reacting react s) w (.ready readable writable))) = .ok t →
      ∃ st, selectorSelect (reacting react s) w (.ready readable writable) = .ok (.success, st) ∧ I t st.2 ∧
        (st.1.map fun d => (d.key.fd, d.op)) = (List.range (w.selector.maxFd + 1)).filterMap (due readable writable) ∧
        ∀ d ∈ st.1, d.Current := by
  intro t ht
  obtain ⟨hv, hc⟩ := hd.valid hi
  obtain ⟨w₀, hw₀⟩ : ∃ w₀ : SelectorWorld ε δ, w₀ = { w with selector :=
      { w.selector with slaveR := readable, slaveW := writable } } := ⟨_, rfl⟩
  have hlook : w₀.selector.lookup = w.selector.lookup := by
    rw [hw₀]
    exact lookup_congr rfl
  have hstart : Served I readable writable 0 s ([], w₀) := by
    refine ⟨hw₀ ▸ hd.side hi, by rw [hw₀], by rw [hw₀], fun j _ hj => ?_, fun j _ hj => ?_, rfl, fun d hd => ?_⟩
    · show ∃ item, w₀.selector.lookup j = some item ∧ _
      rw [hlook]
      exact (hv.masterR j).mp (hr hj)
    · show ∃ item, w₀.selector.lookup j = some item ∧ _
      rw [hlook]
      exact (hv.masterW j).mp (hw hj)
    · cases hd
  have hselect : selectorSelect (reacting react s) w (.ready readable writable) =
      Runs.run (visitItem (reacting react s)) ([], w₀) (List.range (w.selector.maxFd + 1)) >>= fun st =>
        handleBlockNotifications (reacting react s) st >>= fun st => .ok (.success, st) := by
    rw [hw₀]
    rfl
  have hlen : w.selector.maxFd + 1 ≤ w₀.selector.fds.length := by
    rw [hw₀]
    exact hv.maxFd_lt
  have hvisits := hstart.visits hd (n := w.selector.maxFd + 1) rfl hlen
  rw [hselect] at ht ⊢
  cases hrun : Runs.run (visitItem (reacting react s)) ([], w₀) (List.range (w.selector.maxFd + 1)) with
  | error e =>
    rw [hrun] at ht
    obtain ⟨st, hst, -⟩ := hvisits t (by rw [hrun]; exact ht)
    cases hrun.symm.trans hst
  | ok st =>
    rw [hrun, ok_bind] at ht
    obtain ⟨new, hnew⟩ := handleBlockNotifications_extends (reacting react s) st
    have hlog : selected (handleBlockNotifications (reacting react s) st >>= fun st => .ok (SelectorStatus.success, st)) =
        st.1 ++ new := by
      rw [← hnew]
      cases handleBlockNotifications (reacting react s) st <;> rfl
    obtain ⟨u, hu⟩ := Reactive.after_prefix (hlog ▸ ht)
    obtain ⟨st', hst', hserved⟩ := hvisits u (by rw [hrun]; exact hu)
    cases hrun.symm.trans hst'
    obtain ⟨hjobs, hlocked⟩ := hd.idle hserved.holds
    have hnotify := @handleBlockNotifications_idle _ _ st (reacting react s) hjobs hlocked
    rw [hnotify] at ht
    have hsame : Reactive.after react s st.1 = .ok t := ht
    cases hu.symm.trans hsame
    rw [ok_bind, hnotify]
    exact ⟨st, rfl, hserved.holds, hserved.calls, hserved.current⟩

end Rounds

end Smtpd.Selector
