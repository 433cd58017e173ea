import Smtpd.SelectorDispatch

namespace Smtpd.Selector

open Checked Leases

variable {ε δ : Type}

/-- The data of the registration of a descriptor. -/
def FdSelector.dataOf (s : FdSelector ε δ) (fd : Int) : Option (Option δ) :=
  if 0 ≤ fd then (s.lookup fd.toNat).map fun item => item.data else none

/-- Every handler registers with its `handle_close`. -/
def SelectorCall.Closing : SelectorCall ε δ → Prop
  | .register _ _ handler _ _ _ => ∀ h ∈ handler, h.handleClose.isSome
  | _ => True

/-- A call whose `handle_close` does not call back. -/
def SelectorAct.Quiet (act : SelectorAct ε δ) : Prop := ∃ call, act = .make call [] ∧ call.Closing

/-- The registrations that have not been closed are those in the table. -/
structure Accounted (w : SelectorWorld ε δ) : Prop where
  valid : w.selector.Valid
  complete : w.selector.Complete
  holds : Holds w.log w.selector.dataOf
  closable : ∀ {i item}, w.selector.lookup i = some item → item.handler.any fun handler => handler.handleClose.isSome

section Accounting

variable {w w' : SelectorWorld ε δ} {s t : FdSelector ε δ} {i : Nat} {o : Option (Item ε δ)}

theorem dataOf_natCast (s : FdSelector ε δ) (i : Nat) : s.dataOf i = (s.lookup i).map fun item => item.data := by
  rw [FdSelector.dataOf, if_pos (Int.natCast_nonneg i), Int.toNat_natCast]

theorem Changes.dataOf (h : Changes s t i o) :
    t.dataOf = Function.update s.dataOf (i : Int) (o.map fun item => item.data) := by
  funext fd
  by_cases hfd : fd = i
  · subst hfd
    rw [Function.update_self, dataOf_natCast, h.lookup, Function.update_self]
  · rw [Function.update_of_ne hfd]
    unfold FdSelector.dataOf
    split
    next hpos =>
      have hne : fd.toNat ≠ i := by omega
      rw [h.lookup, Function.update_of_ne hne]
    next => rfl

theorem dataOf_congr (h : t.fds = s.fds) : t.dataOf = s.dataOf := by
  funext fd
  unfold FdSelector.dataOf
  rw [lookup_congr h]

theorem Accounted.changes (ha : Accounted w) (hc : Changes w.selector w'.selector i o)
    (hholds : Holds w'.log (Function.update w.selector.dataOf (i : Int) (o.map fun item => item.data)))
    (ho : ∀ item, o = some item → item.handler.any fun handler => handler.handleClose.isSome) : Accounted w' := by
  refine ⟨hc.valid, hc.complete ha.complete, hc.dataOf ▸ hholds, ?_⟩
  intro j item hj
  rw [hc.lookup] at hj
  by_cases hji : j = i
  · subst hji
    rw [Function.update_self] at hj
    exact ho item hj
  · rw [Function.update_of_ne hji] at hj
    exact ha.closable hj

theorem Accounted.closed {item : Item ε δ} (ha : Accounted w) (hlook : w.selector.lookup i = some item)
    (hc : Changes w.selector w'.selector i none) (hlog : w'.log = w.log ++ [.returned i item.data]) : Accounted w' := by
  have hheld : w.selector.dataOf i = some item.data := by rw [dataOf_natCast, hlook, Option.map_some]
  refine ha.changes hc ?_ fun it hit => by cases hit
  rw [hlog]
  exact ha.holds.returned hheld

/-- Unregistering calls `handle_close` for the registration that it ends. -/
theorem unregister_cases {arg : SelectorArg} {fd : Int} {status : SelectorStatus} (ha : Accounted w)
    (h : selectorUnregisterFd .ok w arg fd = .ok (status, w')) :
    w' = w ∨ ∃ (i : Nat) (item : Item ε δ), fd = i ∧ w.selector.lookup i = some item ∧
      Changes w.selector w'.selector i none ∧ w'.log = w.log ++ [.returned i item.data] := by
  obtain ⟨-, rfl⟩ | ⟨-, i, item, w₁, rfl, hlook, hclosing, -, hc, hlog⟩ := selectorUnregisterFd_cases ha.valid quiet_leads h
  · exact Or.inl rfl
  · rw [closing, if_pos (ha.closable hlook)] at hclosing
    cases hclosing
    have hfd : item.fd = i := (ha.valid.filled hlook).1
    rw [hfd] at hlog
    exact Or.inr ⟨i, item, rfl, hlook, hc, hlog⟩

/-- What a call can do: nothing but to note a notification, or register a descriptor, or unregister one, or change
the interest in one. -/
theorem perform_cases {act : SelectorAct ε δ} (hquiet : act.Quiet) (ha : Accounted w) (h : act.perform w = .ok w') :
    (∃ jobs, w' = { w with selector := { w.selector with resolutionJobs := jobs } }) ∨
      (∃ (i : Nat) (item : Item ε δ), w.selector.lookup i = none ∧ Changes w.selector w'.selector i (some item) ∧
        (item.handler.any fun handler => handler.handleClose.isSome) ∧ w'.log = w.log ++ [.taken i item.data]) ∨
      (∃ (arg : SelectorArg) (i : Nat) (item : Item ε δ), act = .make (.unregister arg i) [] ∧
        w.selector.lookup i = some item ∧ Changes w.selector w'.selector i none ∧
        w'.log = w.log ++ [.returned i item.data]) ∨
      (∃ (i : Nat) (item : Item ε δ) (interest : FdInterest), w.selector.lookup i = some item ∧
        Changes w.selector w'.selector i (some { item with interest }) ∧ w'.log = w.log) := by
  obtain ⟨call, rfl, hclosing⟩ := hquiet
  rw [perform_make] at h
  obtain ⟨⟨status, w₁⟩, hcall, h⟩ := bind_ok h
  cases h
  rw [performAll_nil] at hcall
  have hset : ∀ {arg fd interest}, selectorSetInterest w arg fd interest = .ok (status, w₁) → w₁ = w ∨
      ∃ (i : Nat) (item : Item ε δ) (interest : FdInterest), w.selector.lookup i = some item ∧
        Changes w.selector w₁.selector i (some { item with interest }) ∧ w₁.log = w.log := by
    intro arg fd interest h
    obtain ⟨-, hsame⟩ | ⟨-, i, item, -, hlook, hc, hlog⟩ := selectorSetInterest_cases ha.valid h
    · exact Or.inl hsame
    · exact Or.inr ⟨i, item, interest, hlook, hc, hlog⟩
  cases call with
  | register arg fd handler interest data memory =>
    obtain ⟨-, rfl⟩ | ⟨-, i, rfl, hfree, hc, hlog⟩ := selectorRegister_cases ha.valid hcall
    · exact Or.inl ⟨_, rfl⟩
    · have hnew : w₁.selector.lookup i = some { fd := i, interest, handler, data } := by
        rw [hc.lookup, Function.update_self]
      obtain ⟨callbacks, rfl⟩ := Option.isSome_iff_exists.mp (hc.valid.filled hnew).2.2
      exact Or.inr (Or.inl ⟨i, _, hfree, hc, hclosing callbacks rfl, hlog⟩)
  | unregister arg fd =>
    obtain rfl | ⟨i, item, rfl, hlook, hc, hlog⟩ := unregister_cases ha hcall
    · exact Or.inl ⟨_, rfl⟩
    · exact Or.inr (Or.inr (Or.inl ⟨arg, i, item, rfl, hlook, hc, hlog⟩))
  | setInterest arg fd interest =>
    obtain rfl | hchanged := hset hcall
    · exact Or.inl ⟨_, rfl⟩
    · exact Or.inr (Or.inr (Or.inr hchanged))
  | setInterestKey key interest =>
    obtain hiargs | ⟨fd, hfd, -⟩ := selectorSetInterestKey_eq w key interest
    · cases hiargs.symm.trans hcall
      exact Or.inl ⟨_, rfl⟩
    · obtain rfl | hchanged := hset (hfd.symm.trans hcall)
      · exact Or.inl ⟨_, rfl⟩
      · exact Or.inr (Or.inr (Or.inr hchanged))
  | notifyBlock fd memory =>
    simp only [SelectorCall.apply, selectorNotifyBlock] at hcall
    split at hcall
    · cases hcall
      exact Or.inl ⟨_, rfl⟩
    · split at hcall
      · cases hcall
      · cases hcall
        exact Or.inl ⟨_, rfl⟩

theorem Accounted.side (ha : Accounted w) (hfds : t.fds = w.selector.fds) (hmax : t.maxFd = w.selector.maxFd)
    (hr : t.masterR = w.selector.masterR) (hw : t.masterW = w.selector.masterW) : Accounted { w with selector := t } := by
  have hdata : t.dataOf = w.selector.dataOf := dataOf_congr hfds
  have hlook : t.lookup = w.selector.lookup := lookup_congr hfds
  refine ⟨ha.valid.side hfds hmax hr hw, ha.complete.side hfds, ?_, ?_⟩
  · show Holds w.log t.dataOf
    rw [hdata]
    exact ha.holds
  · intro i item hi
    have hi : t.lookup i = some item := hi
    rw [hlook] at hi
    exact ha.closable hi

theorem Accounted.perform {act : SelectorAct ε δ} (hquiet : act.Quiet) (ha : Accounted w) (h : act.perform w = .ok w') :
    Accounted w' := by
  obtain ⟨jobs, rfl⟩ | ⟨i, item, hfree, hc, hclosable, hlog⟩ | ⟨arg, i, item, -, hlook, hc, hlog⟩ |
    ⟨i, item, interest, hlook, hc, hlog⟩ := perform_cases hquiet ha h
  · apply ha.side <;> rfl
  · have hnew : w.selector.dataOf i = none := by rw [dataOf_natCast, hfree, Option.map_none]
    refine ha.changes hc ?_ fun it hit => ?_
    · rw [hlog]
      exact ha.holds.taken hnew
    · cases hit
      exact hclosable
  · exact ha.closed hlook hc hlog
  · have hsame : w.selector.dataOf i = some item.data := by rw [dataOf_natCast, hlook, Option.map_some]
    refine ha.changes hc ?_ fun it hit => ?_
    · rw [hlog, Option.map_some, ← hsame, Function.update_eq_self]
      exact ha.holds
    · have hclosable := ha.closable hlook
      cases hit
      exact hclosable

theorem Accounted.operate {op : Operation ε δ} (hop : op.Makes SelectorAct.Quiet) (ha : Accounted w)
    (h : operate w op = .ok w') : Accounted w' := by
  refine operate_preserves (P := SelectorAct.Quiet) (I := Accounted) ?_ ?_ hop ha h
  · intro act w w' hquiet ha h
    exact ha.perform hquiet h
  · intro w s ha hfds hmax hr hw
    exact ha.side hfds hmax hr hw

theorem accounted_new {struct : Bool} {memory : Option (Nat → Item ε δ)} (hnew : selectorNew 1024 struct memory = some s) :
    Accounted ⟨s, []⟩ := by
  obtain ⟨hv, -, hlook⟩ := selectorNew_valid hnew
  refine ⟨hv, selectorNew_complete (by decide) hnew, ?_, ?_⟩
  · have hdata : s.dataOf = fun _ => none := by
      funext fd
      unfold FdSelector.dataOf
      rw [hlook]
      split_ifs <;> rfl
    show Holds [] s.dataOf
    rw [hdata]
    exact Holds.nil
  · intro i item hi
    have hi : s.lookup i = some item := hi
    rw [hlook] at hi
    cases hi

end Accounting

section Destruction

variable {w : SelectorWorld ε δ}

/-- What `handle_close` is called for when a descriptor is destroyed. -/
def closes (i : Nat) : Option (Item ε δ) → List (Leases.Event Int (Option δ))
  | some item => if item.handler.any fun handler => handler.handleClose.isSome then [.returned i item.data] else []
  | none => []

theorem destroyItem_closes (hv : w.selector.Valid) (i : Nat) :
    ∃ w', destroyItem .ok w i = .ok w' ∧ w'.selector.Valid ∧
      w'.selector.lookup = Function.update w.selector.lookup i none ∧
      w'.log = w.log ++ closes i (w.selector.lookup i) := by
  have hkeep : w.selector.lookup i = none → w.selector.lookup = Function.update w.selector.lookup i none ∧
      w.log = w.log ++ closes i (w.selector.lookup i) := by
    intro hnone
    refine ⟨?_, by rw [hnone]; exact (List.append_nil _).symm⟩
    rw [← hnone, Function.update_eq_self]
  unfold destroyItem
  by_cases hlt : i < w.selector.fds.length
  · obtain ⟨item, hitem, hget⟩ := item_of_lt hlt
    rw [if_pos hlt, hitem, ok_bind]
    by_cases hu : item.used
    · have hlook := lookup_eq_some.mpr ⟨hget, hu⟩
      have hfd : item.fd = i := (hv.filled hlook).1
      obtain ⟨r, hr, hc⟩ := unregisterItem_ok hv hlook
      rw [if_pos hu, selectorUnregisterFd_eq hv hlook, closing, hlook, closes, hfd]
      split
      all_goals
        rw [ok_bind, if_neg (not_not.mpr rfl), hr]
        refine ⟨_, rfl, hc.valid, hc.lookup, ?_⟩
      · rfl
      · exact (List.append_nil _).symm
    · rw [if_neg hu]
      have hnone : w.selector.lookup i = none := by
        apply lookup_eq_none.mpr
        intro it hit
        cases hget.symm.trans hit
        exact hu
      exact ⟨w, rfl, hv, hkeep hnone⟩
  · rw [if_neg hlt]
    have hnone : w.selector.lookup i = none := by
      apply lookup_eq_none.mpr
      intro it hit
      rw [List.getElem?_eq_none (by omega)] at hit
      cases hit
    exact ⟨w, rfl, hv, hkeep hnone⟩

/-- The loop of `selector_destroy` calls `handle_close` for what is registered, by the order of the descriptors. -/
theorem destroy_closes (hv : w.selector.Valid) (n : Nat) :
    ∃ w', Runs.run (destroyItem .ok) w (List.range n) = .ok w' ∧ w'.selector.Valid ∧
      (∀ j, w'.selector.lookup j = if j < n then none else w.selector.lookup j) ∧
      w'.log = w.log ++ (List.range n).flatMap fun j => closes j (w.selector.lookup j) := by
  induction n with
  | zero => exact ⟨w, rfl, hv, fun j => (if_neg (Nat.not_lt_zero j)).symm, (List.append_nil _).symm⟩
  | succ n ih =>
    obtain ⟨w₁, hw₁, hv₁, hlook₁, hlog₁⟩ := ih
    obtain ⟨w₂, hw₂, hv₂, hlook₂, hlog₂⟩ := destroyItem_closes hv₁ n
    refine ⟨w₂, ?_, hv₂, fun j => ?_, ?_⟩
    · rw [List.range_succ]
      exact Runs.run_concat_ok.mpr ⟨w₁, hw₁, hw₂⟩
    · rw [hlook₂]
      by_cases hj : j = n
      · rw [hj, Function.update_self, if_pos (Nat.lt_succ_self n)]
      · rw [Function.update_of_ne hj, hlook₁ j]
        have hiff : j < n + 1 ↔ j < n := by omega
        simp only [hiff]
    · have hn : w₁.selector.lookup n = w.selector.lookup n := by rw [hlook₁, if_neg (Nat.lt_irrefl n)]
      rw [hlog₂, hlog₁, hn, List.range_succ, List.flatMap_append, List.flatMap_singleton, List.append_assoc]

/-- Nothing is registered any more when the selector has been destroyed. -/
theorem selectorDestroy_closes (hv : w.selector.Valid) :
    ∃ w', selectorDestroy .ok w = .ok w' ∧ (∀ j, w'.selector.lookup j = none) ∧
      w'.log = w.log ++ (List.range (ITEMS_MAX_SIZE + 1)).flatMap fun j => closes j (w.selector.lookup j) := by
  obtain ⟨w', hw', hv', hlook, hlog⟩ := destroy_closes hv (ITEMS_MAX_SIZE + 1)
  refine ⟨w', hw', fun j => ?_, hlog⟩
  rw [hlook j]
  split
  · rfl
  next hge =>
    cases h : w.selector.lookup j with
    | none => rfl
    | some item =>
      have hlt := lookup_lt h
      have hsmall := hv.small
      omega

theorem closes_filter (ha : Accounted w) (fd : Int) (j : Nat) :
    (closes j (w.selector.lookup j)).filter (fun e => e.key = fd) =
      if (j : Int) = fd then (w.selector.dataOf fd).toList.map (.returned fd) else [] := by
  by_cases hj : (j : Int) = fd
  · subst hj
    rw [if_pos rfl, dataOf_natCast]
    cases hlook : w.selector.lookup j with
    | none => rfl
    | some item =>
      rw [closes, if_pos (ha.closable hlook)]
      simp [Event.key]
  · rw [if_neg hj]
    unfold closes
    split
    · split_ifs <;> simp [Event.key, hj]
    · rfl

/-- What is closed of one descriptor when the selector is destroyed. -/
theorem closes_of_key (ha : Accounted w) (fd : Int) (n : Nat) :
    ((List.range n).flatMap fun j => closes j (w.selector.lookup j)).filter (fun e => e.key = fd) =
      if fd.toNat < n then (w.selector.dataOf fd).toList.map (.returned fd) else [] := by
  induction n with
  | zero => rfl
  | succ n ih =>
    rw [List.range_succ, List.flatMap_append, List.flatMap_singleton, List.filter_append, ih, closes_filter ha]
    by_cases hfd : 0 ≤ fd
    · by_cases hn : (n : Int) = fd
      · rw [if_neg (by omega), if_pos hn, if_pos (by omega), List.nil_append]
      · have hlt : fd.toNat < n + 1 ↔ fd.toNat < n := by omega
        rw [if_neg hn, List.append_nil]
        simp only [hlt]
    · have hnone : w.selector.dataOf fd = none := if_neg hfd
      rw [hnone]
      simp

end Destruction

section Moments

/-- The operation unregisters the descriptor, or one of its callbacks does. -/
def Operation.Unregisters (fd : Int) : Operation ε δ → Prop
  | .call act => ∃ arg onClose, act = .make (.unregister arg fd) onClose
  | .select callbacks _ => ∃ log arg onClose, SelectorAct.make (.unregister arg fd) onClose ∈ callbacks log

/-- The calls of `handle_close` for a descriptor. -/
def SelectorWorld.closings (w : SelectorWorld ε δ) (fd : Int) : List (Option δ) :=
  w.log.filterMap fun e => match e with
    | .returned fd' data => if fd' = fd then some data else none
    | .taken _ _ => none

variable {w w' : SelectorWorld ε δ} {fd : Int}

theorem closings_congr (h : w'.log = w.log) : w'.closings fd = w.closings fd := by
  rw [SelectorWorld.closings, h, SelectorWorld.closings]

theorem closings_taken {fd' : Int} {data : Option δ} (h : w'.log = w.log ++ [.taken fd' data]) :
    w'.closings fd = w.closings fd := by
  rw [SelectorWorld.closings, h, List.filterMap_append]
  exact List.append_nil _

theorem closings_returned {fd' : Int} {data : Option δ} (h : w'.log = w.log ++ [.returned fd' data]) (hne : fd' ≠ fd) :
    w'.closings fd = w.closings fd := by
  rw [SelectorWorld.closings, h, List.filterMap_append]
  simp only [List.filterMap_cons, if_neg hne, List.filterMap_nil]
  exact List.append_nil _

/-- No other call than that which unregisters a descriptor calls `handle_close` for it. -/
theorem perform_closings {act : SelectorAct ε δ} (hquiet : act.Quiet)
    (hother : ∀ arg onClose, act ≠ .make (.unregister arg fd) onClose) (ha : Accounted w) (h : act.perform w = .ok w') :
    w'.closings fd = w.closings fd := by
  obtain ⟨jobs, rfl⟩ | ⟨i, item, -, -, -, hlog⟩ | ⟨arg, i, item, hact, -, -, hlog⟩ | ⟨i, item, interest, -, -, hlog⟩ :=
    perform_cases hquiet ha h
  · rfl
  · exact closings_taken hlog
  · have hne : (i : Int) ≠ fd := by
      rintro rfl
      exact hother arg [] hact
    exact closings_returned hlog hne
  · exact closings_congr hlog

theorem operate_closings {op : Operation ε δ} (hop : op.Makes SelectorAct.Quiet) (hother : ¬ op.Unregisters fd)
    (ha : Accounted w) (h : operate w op = .ok w') : w'.closings fd = w.closings fd := by
  have hkept := @operate_preserves _ _
    (fun act => act.Quiet ∧ ∀ arg onClose, act ≠ SelectorAct.make (.unregister arg fd) onClose)
    (fun u => Accounted u ∧ u.closings fd = w.closings fd) w w' op (by
      rintro act u u' ⟨hquiet, hact⟩ ⟨hu, hsame⟩ hperform
      exact ⟨hu.perform hquiet hperform, (perform_closings hquiet hact hu hperform).trans hsame⟩) (by
      rintro u t ⟨hu, hsame⟩ hfds hmax hr hw
      exact ⟨hu.side hfds hmax hr hw, hsame⟩)
  refine (hkept ?_ ⟨ha, rfl⟩ h).2
  cases op with
  | call act => exact ⟨hop, fun arg onClose he => hother ⟨arg, onClose, he⟩⟩
  | select callbacks fds =>
    intro log act hact
    refine ⟨hop log act hact, fun arg onClose he => hother ⟨log, arg, onClose, ?_⟩⟩
    rw [← he]
    exact hact

end Moments

section Registrations

/-- The data that a call has registered the descriptor with: that of `selector_register` for it, if it returns
`SELECTOR_SUCCESS`. -/
def SelectorCall.registers (fd : Int) : SelectorCall ε δ → SelectorStatus → Option (Option δ)
  | .register _ fd' _ _ data _, .success => if fd' = fd then some data else none
  | _, _ => none

/-- The data that these calls register the descriptor with, one after the other. -/
def registersAll (fd : Int) (s : FdSelector ε δ) : List (SelectorAct ε δ) → List (Option δ)
  | [] => []
  | .make call _ :: acts =>
    match call.apply .ok ⟨s, []⟩ with
    | .ok (status, w) => (call.registers fd status).toList ++ registersAll fd w.selector acts
    | .error _ => []

/-- The same of the callbacks that have been called, each of which finds the selector as it was at that moment. -/
def callbacksRegister (fd : Int) (callbacks : SelectorCallbacks ε δ) (called : List (Dispatch ε δ)) : List (Option δ) :=
  called.inits.flatMap fun log => log.getLast?.elim [] fun d => registersAll fd d.selector (callbacks log)

def Operation.registers (fd : Int) (w : SelectorWorld ε δ) : Operation ε δ → List (Option δ)
  | .call act => registersAll fd w.selector [act]
  | .select callbacks fds => callbacksRegister fd callbacks (selected (selectorSelect callbacks w fds))

/-- The data of all registrations of the descriptor that succeed while the program runs. -/
def registrations (fd : Int) (w : SelectorWorld ε δ) : List (Operation ε δ) → List (Option δ)
  | [] => []
  | op :: ops => op.registers fd w ++
    match operate w op with
    | .ok w' => registrations fd w' ops
    | .error _ => []

variable {w w' : SelectorWorld ε δ} {fd : Int}

/-- What a call takes a descriptor for is what it registers it with. -/
theorem apply_registers {call : SelectorCall ε δ} {status : SelectorStatus} (h : call.apply .ok w = .ok (status, w')) :
    ∃ new, w'.log = w.log ++ new ∧ takenFor fd new = (call.registers fd status).toList ∧
      call.apply .ok ⟨w.selector, []⟩ = .ok (status, ⟨w'.selector, new⟩) := by
  have hnothing : w'.log = w.log → w'.log = w.log ++ [] := fun hlog => hlog.trans (List.append_nil _).symm
  cases call with
  | register arg fd' handler interest data memory =>
    obtain ⟨new, hlog, rfl, hsame⟩ := selectorRegister_adds h
    refine ⟨_, hlog, ?_, hsame⟩
    by_cases hs : status = .success
    · subst hs
      by_cases hfd : fd' = fd <;> simp [takenFor, Event.takenFor, SelectorCall.registers, hfd]
    · rw [if_neg hs]
      cases status <;> first | rfl | exact absurd rfl hs
  | unregister arg fd' =>
    obtain ⟨new, hlog, hreturned, hsame⟩ := selectorUnregisterFd_adds h
    refine ⟨new, hlog, List.filterMap_eq_nil_iff.mpr fun e he => ?_, hsame⟩
    obtain ⟨fd, data, rfl⟩ := hreturned e he
    rfl
  | setInterest arg fd' interest =>
    obtain ⟨hlog, hsame⟩ := selectorSetInterest_adds h
    exact ⟨[], hnothing hlog, rfl, hsame⟩
  | setInterestKey key interest =>
    obtain ⟨hlog, hsame⟩ := selectorSetInterestKey_adds h
    exact ⟨[], hnothing hlog, rfl, hsame⟩
  | notifyBlock fd' memory =>
    obtain ⟨hlog, hsame⟩ := selectorNotifyBlock_adds h
    exact ⟨[], hnothing hlog, rfl, hsame⟩

theorem performAll_registers {acts : List (SelectorAct ε δ)} (hquiet : ∀ act ∈ acts, act.Quiet)
    (h : performAll w acts = .ok w') : takenFor fd w'.log = takenFor fd w.log ++ registersAll fd w.selector acts := by
  induction acts generalizing w with
  | nil =>
    rw [performAll] at h
    cases h
    exact (List.append_nil _).symm
  | cons act acts ih =>
    obtain ⟨call, rfl, -⟩ := hquiet _ List.mem_cons_self
    rw [performAll_cons] at h
    obtain ⟨w₁, hperform, h⟩ := bind_ok h
    rw [perform_make] at hperform
    obtain ⟨⟨status, w₂⟩, hcall, hperform⟩ := bind_ok hperform
    cases hperform
    rw [performAll_nil] at hcall
    obtain ⟨new, hlog, htaken, hsame⟩ := @apply_registers _ _ w w₂ fd call status hcall
    rw [ih (fun a ha => hquiet a (List.mem_cons_of_mem _ ha)) h, hlog, takenFor_append, htaken, List.append_assoc,
      registersAll, hsame]

theorem callbacksRegister_concat (callbacks : SelectorCallbacks ε δ) (called : List (Dispatch ε δ)) (d : Dispatch ε δ) :
    callbacksRegister fd callbacks (called ++ [d]) =
      callbacksRegister fd callbacks called ++ registersAll fd d.selector (callbacks (called ++ [d])) := by
  rw [callbacksRegister, List.inits_append, List.flatMap_append]
  simp [callbacksRegister]

/-- What an operation takes a descriptor for is what its calls register it with. -/
theorem operate_registers {op : Operation ε δ} (hop : op.Makes SelectorAct.Quiet) (h : operate w op = .ok w') :
    takenFor fd w'.log = takenFor fd w.log ++ op.registers fd w := by
  cases op with
  | call act =>
    refine @performAll_registers _ _ _ _ _ [act] (fun a ha => ?_) ?_
    · rw [List.mem_singleton.mp ha]
      exact hop
    · rw [performAll_cons]
      show act.perform w >>= _ = _
      rw [show act.perform w = .ok w' from h, ok_bind, performAll]
  | select callbacks fds =>
    obtain ⟨status, called, hselect⟩ := operate_select h
    rw [Operation.registers, hselect]
    refine selectorSelect_keeps (J := fun st => takenFor fd st.2.log =
      takenFor fd w.log ++ callbacksRegister fd callbacks st.1) ?_ ?_ ?_ hselect
    · intro called d w₁ w₂ hj hselector hacts
      rw [performAll_registers (hop (called ++ [d])) hacts, hj, callbacksRegister_concat, hselector, List.append_assoc]
    · intro called w₁ s hj _ _ _ _
      exact hj
    · exact (List.append_nil _).symm

theorem run_registers {ops : List (Operation ε δ)} (hops : ∀ op ∈ ops, op.Makes SelectorAct.Quiet)
    (h : Runs.run operate w ops = .ok w') : takenFor fd w'.log = takenFor fd w.log ++ registrations fd w ops := by
  induction ops generalizing w with
  | nil =>
    cases h
    exact (List.append_nil _).symm
  | cons op ops ih =>
    rw [Runs.run_cons] at h
    obtain ⟨w₁, hstep, h⟩ := bind_ok h
    rw [ih (fun o ho => hops o (List.mem_cons_of_mem op ho)) h,
      operate_registers (hops op List.mem_cons_self) hstep, registrations, hstep, List.append_assoc]

end Registrations

section Destroyed

variable {s : FdSelector ε δ} {struct : Bool} {memory : Option (Nat → Item ε δ)} {ops : List (Operation ε δ)}
  {w : SelectorWorld ε δ}

theorem run_accounted (hnew : selectorNew 1024 struct memory = some s) (hops : ∀ op ∈ ops, op.Makes SelectorAct.Quiet)
    (hrun : Runs.run operate ⟨s, []⟩ ops = .ok w) : Accounted w := by
  refine Runs.run_invariant (C := fun _ op => op.Makes SelectorAct.Quiet) (I := fun _ w => Accounted w)
    (accounted_new hnew) ?_ (Runs.Meets.of_events fun op hop _ => hops op hop) hrun
  intro xs op u u' _ hu hop hstep
  exact hu.operate hop hstep

/-- Whatever the program does with its selector before it destroys it, each registration of a descriptor that succeeds
is followed by one call of `handle_close` with its data, and none of these calls comes but with an operation that
unregisters the descriptor. -/
theorem close_exactly_once (hnew : selectorNew 1024 struct memory = some s)
    (hops : ∀ op ∈ ops, op.Makes SelectorAct.Quiet) (hrun : Runs.run operate ⟨s, []⟩ ops = .ok w) :
    (∃ w', selectorDestroy .ok w = .ok w' ∧ ∀ fd, w'.log.filter (fun e => e.key = fd) =
      (registrations fd ⟨s, []⟩ ops).flatMap fun data => [.taken fd data, .returned fd data]) ∧
    ∀ xs op ys u u' fd, ops = xs ++ op :: ys → Runs.run operate ⟨s, []⟩ xs = .ok u → operate u op = .ok u' →
      u'.closings fd ≠ u.closings fd → op.Unregisters fd := by
  constructor
  · have ha := run_accounted hnew hops hrun
    obtain ⟨w', hw', -, hlog⟩ := selectorDestroy_closes ha.valid
    refine ⟨w', hw', fun fd => ?_⟩
    have hregistered : takenFor fd w.log = registrations fd ⟨s, []⟩ ops := run_registers hops hrun
    have hout : ¬ fd.toNat < ITEMS_MAX_SIZE + 1 → w.selector.dataOf fd = none := by
      intro hge
      unfold FdSelector.dataOf
      split_ifs
      · have hlook : w.selector.lookup fd.toNat = none := by
          apply lookup_eq_none.mpr
          intro item hitem
          have hlen := ha.complete.length
          rw [List.getElem?_eq_none (by omega)] at hitem
          cases hitem
        rw [hlook, Option.map_none]
      · rfl
    rw [hlog, List.filter_append, closes_of_key ha, ← hregistered, ← ha.holds.pairs fd]
    split_ifs with hlt
    · rfl
    · rw [hout hlt]
      rfl
  · rintro xs op ys u u' fd rfl hxs hstep hchanged
    have hu := run_accounted hnew (fun o ho => hops o (List.mem_append_left _ ho)) hxs
    by_contra hother
    exact hchanged (operate_closings (hops op (by simp)) hother hu hstep)

/-- The data of descriptor 5, which is given up and registered again. -/
theorem close_exactly_once_reused :
    ∃ s w, selectorNew 1024 true (some fun _ => (blankItem : Item Nat Nat)) = some s ∧
      Runs.run operate ⟨s, []⟩ [.call (registerFive 1), .call (.make (.unregister .self 5) []), .call (registerFive 2)] =
        .ok w ∧
      (∃ w', selectorDestroy .ok w = .ok w' ∧ w'.log.filter (fun e => e.key = 5) =
        [.taken 5 (some 1), .returned 5 (some 1), .taken 5 (some 2), .returned 5 (some 2)]) ∧
      ∀ xs op ys u u' fd,
        [.call (registerFive 1), .call (.make (.unregister .self 5) []), .call (registerFive 2)] = xs ++ op :: ys →
        Runs.run operate ⟨s, []⟩ xs = .ok u → operate u op = .ok u' → u'.closings fd ≠ u.closings fd →
        op.Unregisters fd := by
  obtain ⟨s, hnew⟩ : ∃ s, selectorNew 1024 true (some fun _ => (blankItem : Item Nat Nat)) = some s := ⟨_, rfl⟩
  obtain ⟨w, hw⟩ : ∃ w, Runs.run operate ⟨s, []⟩
      [.call (registerFive 1), .call (.make (.unregister .self 5) []), .call (registerFive 2)] = .ok w := by
    cases hnew
    exact ok_of_toOption (by decide +kernel)
  have hregistered : registrations 5 ⟨s, []⟩
      [.call (registerFive 1), .call (.make (.unregister .self 5) []), .call (registerFive 2)] = [some 1, some 2] := by
    cases hnew
    decide +kernel
  have hquiet : ∀ data, (registerFive data).Quiet := fun data => ⟨_, rfl, fun h hh => by cases hh; rfl⟩
  have hunregister : SelectorAct.Quiet (.make (.unregister .self 5) [] : SelectorAct Nat Nat) := ⟨_, rfl, trivial⟩
  obtain ⟨⟨w', hw', hpairs⟩, hcloses⟩ := close_exactly_once hnew (by
    intro op hop
    simp only [List.mem_cons, List.not_mem_nil, or_false] at hop
    rcases hop with rfl | rfl | rfl
    · exact hquiet 1
    · exact hunregister
    · exact hquiet 2) hw
  have hfive := hpairs 5
  rw [hregistered] at hfive
  exact ⟨s, w, hnew, hw, ⟨w', hw', hfive⟩, hcloses⟩

end Destroyed

end Smtpd.Selector
