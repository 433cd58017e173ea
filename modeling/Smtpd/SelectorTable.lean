import Smtpd.Selector

namespace Smtpd.Selector

open Checked Leases

variable {ε δ : Type}

/-- What the selector has registered for a descriptor. -/
def FdSelector.lookup (s : FdSelector ε δ) (i : Nat) : Option (Item ε δ) := s.fds[i]?.filter fun item => item.used

/-- The table, the greatest descriptor and the two sets say the same. -/
structure FdSelector.Valid (s : FdSelector ε δ) : Prop where
  filled : ∀ {i item}, s.lookup i = some item → item.fd = i ∧ i < FD_SETSIZE ∧ item.handler.isSome
  greatest : ∀ {i item}, s.lookup i = some item → i ≤ s.maxFd
  attained : s.maxFd = 0 ∨ ∃ item, s.lookup s.maxFd = some item
  masterR : ∀ i, i ∈ s.masterR ↔ ∃ item, s.lookup i = some item ∧ item.interest.includes OP_READ
  masterW : ∀ i, i ∈ s.masterW ↔ ∃ item, s.lookup i = some item ∧ item.interest.includes OP_WRITE
  nonempty : 0 < s.fds.length
  small : s.fds.length ≤ ITEMS_MAX_SIZE + 1

/-- The table has been allocated at its full size at once, so that every unused item is blank. -/
structure FdSelector.Complete (s : FdSelector ε δ) : Prop where
  length : s.fds.length = ITEMS_MAX_SIZE + 1
  idle : ∀ {i : Nat} {item : Item ε δ}, s.fds[i]? = some item → ¬ item.used → item.interest = OP_NOOP

section Lookup

variable {s : FdSelector ε δ} {i j : Nat} {item : Item ε δ}

theorem lookup_eq_some : s.lookup i = some item ↔ s.fds[i]? = some item ∧ item.used := by
  simp [FdSelector.lookup, Option.filter_eq_some_iff]

theorem lookup_eq_none : s.lookup i = none ↔ ∀ item, s.fds[i]? = some item → ¬ item.used := by
  simp [FdSelector.lookup, Option.filter_eq_none_iff]

theorem lookup_lt (h : s.lookup i = some item) : i < s.fds.length :=
  (List.getElem?_eq_some_iff.mp (lookup_eq_some.mp h).1).1

theorem lookup_set (hi : i < s.fds.length) (item : Item ε δ) :
    { s with fds := s.fds.set i item }.lookup =
      Function.update s.lookup i (if item.used then some item else none) := by
  funext j
  by_cases hj : j = i
  · subst hj
    rw [Function.update_self, FdSelector.lookup, List.getElem?_set_self hi, Option.filter_some]
    simp only [decide_eq_true_eq]
  · rw [Function.update_of_ne hj, FdSelector.lookup, List.getElem?_set_ne (Ne.symm hj)]
    rfl

theorem lookup_append_unused {rest : List (Item ε δ)} (h : ∀ item ∈ rest, ¬ item.used) :
    { s with fds := s.fds ++ rest }.lookup = s.lookup := by
  funext j
  by_cases hj : j < s.fds.length
  · rw [FdSelector.lookup, List.getElem?_append_left hj]
    rfl
  · have hnone : s.lookup j = none := lookup_eq_none.mpr fun item hitem => by
      obtain ⟨hlt, -⟩ := List.getElem?_eq_some_iff.mp hitem
      exact absurd hlt hj
    rw [hnone]
    refine lookup_eq_none.mpr fun item hitem => ?_
    rw [List.getElem?_append_right (Nat.le_of_not_lt hj)] at hitem
    exact h item (List.mem_of_getElem? hitem)

theorem item_eq (s : FdSelector ε δ) (i : Nat) : s.item i = demand .outOfTable s.fds[i]? := by
  rw [FdSelector.item, if_pos (Int.natCast_nonneg i), Int.toNat_natCast]

theorem item_of_lookup (h : s.lookup i = some item) : s.item i = .ok item := by
  rw [item_eq, (lookup_eq_some.mp h).1, demand_some]

theorem item_of_lt (h : i < s.fds.length) : ∃ item, s.item i = .ok item ∧ s.fds[i]? = some item := by
  refine ⟨s.fds[i], ?_, List.getElem?_eq_getElem h⟩
  rw [item_eq, List.getElem?_eq_getElem h, demand_some]

end Lookup

section Capacity

theorem lt_countBits (width n : Nat) (h : n < 1 <<< width) : n < 1 <<< countBits width n := by
  induction width generalizing n with
  | zero => exact h
  | succ width ih =>
    rw [countBits]
    split_ifs with hn
    · subst hn
      exact Nat.zero_lt_one
    · have hhalf : n >>> 1 = n / 2 := Nat.shiftRight_eq_div_pow n 1
      have hlt : n / 2 < 1 <<< width := by
        rw [Nat.shiftLeft_succ] at h
        omega
      have hrest := ih (n / 2) hlt
      rw [hhalf, Nat.shiftLeft_succ]
      omega

theorem nextCapacity_bounds {n : Nat} (h : n ≤ ITEMS_MAX_SIZE) :
    n < nextCapacity n ∧ nextCapacity n ≤ ITEMS_MAX_SIZE + 1 := by
  have hmax : ITEMS_MAX_SIZE = 1024 := rfl
  have hwidth : n < 1 <<< 64 := lt_of_le_of_lt h (by decide)
  have hbits : n < 1 <<< countBits 64 n := lt_countBits 64 n hwidth
  rw [nextCapacity]
  split_ifs <;> omega

theorem one_shiftLeft_le {m n : Nat} (h : m ≤ n) : 1 <<< m ≤ 1 <<< n := by
  rw [Nat.one_shiftLeft, Nat.one_shiftLeft]
  exact Nat.pow_le_pow_right (by decide) h

/-- From half of the greatest size on, the next power of two is that size. -/
theorem nextCapacity_max {n : Nat} (h : ITEMS_MAX_SIZE / 2 ≤ n) (hmax : n ≤ ITEMS_MAX_SIZE) :
    nextCapacity n = ITEMS_MAX_SIZE + 1 := by
  have hwidth : n < 1 <<< 64 := lt_of_le_of_lt hmax (by decide)
  have hbits : n < 1 <<< countBits 64 n := lt_countBits 64 n hwidth
  have hten : 10 ≤ countBits 64 n := by
    by_contra hless
    have hle : 1 <<< countBits 64 n ≤ 1 <<< 9 := one_shiftLeft_le (by omega)
    have hhalf : ITEMS_MAX_SIZE / 2 = 1 <<< 9 := rfl
    omega
  have hfull : ITEMS_MAX_SIZE ≤ 1 <<< countBits 64 n := one_shiftLeft_le hten
  rw [nextCapacity]
  split_ifs <;> omega

variable {s t : FdSelector ε δ} {n : Nat} {memory : Option (Nat → Item ε δ)} {status : SelectorStatus}

theorem itemsInit_append (old rest : List (Item ε δ)) :
    itemsInit (old ++ rest) old.length = old ++ rest.map itemInit := by
  simp [itemsInit]

theorem itemInit_unused {rest : List (Item ε δ)} : ∀ item ∈ rest.map itemInit, ¬ item.used := by
  intro item hitem
  obtain ⟨old, -, rfl⟩ := List.mem_map.mp hitem
  simp [itemInit]

/-- Growing registers nothing, and gives the descriptor asked for its place. -/
structure Grown (s t : FdSelector ε δ) (n : Nat) : Prop where
  lookup : t.lookup = s.lookup
  room : n < t.fds.length
  same : t = { s with fds := t.fds }
  small : t.fds.length ≤ max s.fds.length (ITEMS_MAX_SIZE + 1)
  longer : s.fds.length ≤ t.fds.length
  fits : n < s.fds.length → t = s

/-- Making room fails, or there is room, or the table gets new items. -/
theorem ensureCapacity_cases (h : ensureCapacity s n memory = (status, t)) :
    status ≠ .success ∧ t = s ∨
      status = .success ∧ n < s.fds.length ∧ t = s ∨
      status = .success ∧ ¬ n < s.fds.length ∧ n ≤ ITEMS_MAX_SIZE ∧ ∃ rest : List (Item ε δ),
        rest.length = nextCapacity n - s.fds.length ∧ t = { s with fds := s.fds ++ rest.map itemInit } := by
  unfold ensureCapacity at h
  dsimp only at h
  split at h
  next hn =>
    cases h
    exact Or.inr (Or.inl ⟨rfl, hn, rfl⟩)
  next hn =>
    split at h
    · cases h
      exact Or.inl ⟨by decide, rfl⟩
    next hmax =>
      have hle : n ≤ ITEMS_MAX_SIZE := Nat.le_of_not_lt hmax
      split at h
      next hnil =>
        cases memory with
        | none =>
          cases h
          exact Or.inl ⟨by decide, rfl⟩
        | some memory =>
          cases h
          refine Or.inr (Or.inr ⟨rfl, hn, hle, List.replicate (nextCapacity n) blankItem, ?_, ?_⟩)
          · rw [hnil, List.length_replicate]
            rfl
          · have hinit := itemsInit_append ([] : List (Item ε δ)) (List.replicate (nextCapacity n) blankItem)
            rw [hnil, ← hinit]
            rfl
      next hnil =>
        split at h
        · cases h
          exact Or.inl ⟨by decide, rfl⟩
        · cases memory with
          | none =>
            cases h
            exact Or.inl ⟨by decide, rfl⟩
          | some memory =>
            cases h
            refine Or.inr (Or.inr ⟨rfl, hn, hle,
              (List.range' s.fds.length (nextCapacity n - s.fds.length)).map memory, ?_, ?_⟩)
            · rw [List.length_map, List.length_range']
            · rw [itemsInit_append]

theorem ensureCapacity_grown (h : ensureCapacity s n memory = (.success, t)) : Grown s t n := by
  obtain ⟨hfail, -⟩ | ⟨-, hn, rfl⟩ | ⟨-, hn, hmax, rest, hlen, rfl⟩ := ensureCapacity_cases h
  · exact absurd rfl hfail
  · exact ⟨rfl, hn, rfl, Nat.le_max_left _ _, le_rfl, fun _ => rfl⟩
  · obtain ⟨hlt, hle⟩ := nextCapacity_bounds hmax
    have hnew : (s.fds ++ rest.map itemInit).length = s.fds.length + (nextCapacity n - s.fds.length) := by
      rw [List.length_append, List.length_map, hlen]
    refine ⟨lookup_append_unused itemInit_unused, ?_, rfl, ?_, ?_, fun hfit => absurd hfit hn⟩
    · show n < (s.fds ++ rest.map itemInit).length
      omega
    · show (s.fds ++ rest.map itemInit).length ≤ max s.fds.length (ITEMS_MAX_SIZE + 1)
      omega
    · show s.fds.length ≤ (s.fds ++ rest.map itemInit).length
      omega

theorem ensureCapacity_failed (h : ensureCapacity s n memory = (status, t)) (hs : status ≠ .success) : t = s := by
  obtain ⟨-, rfl⟩ | ⟨hok, -⟩ | ⟨hok, -⟩ := ensureCapacity_cases h
  · rfl
  · exact absurd hok hs
  · exact absurd hok hs

end Capacity

section Update

variable {s t : FdSelector ε δ} {i j : Nat} {item : Item ε δ}

/-- A set of descriptors after one of them has been cleared, and set again if it is wanted. -/
def watch (wanted : Bool) (i : Nat) (set : FdSet) : FdSet :=
  if wanted then insert i (set.erase i) else set.erase i

theorem mem_watch {wanted : Bool} {set : FdSet} : j ∈ watch wanted i set ↔ if j = i then wanted = true else j ∈ set := by
  unfold watch
  by_cases hj : j = i <;> cases wanted <;> simp [hj]

theorem itemsUpdate_ok (hfd : item.fd = i) (hi : i < FD_SETSIZE) :
    itemsUpdateFdsetForFd s item = .ok { s with
      masterR := watch (item.interest.includes OP_READ) i s.masterR
      masterW := watch (item.interest.includes OP_WRITE) i s.masterW } := by
  have hused : item.used := by
    show item.fd ≠ -1
    omega
  have hin : 0 ≤ item.fd ∧ item.fd < FD_SETSIZE := by omega
  have hnat : item.fd.toNat = i := by omega
  have hclr : ∀ set : FdSet, fdClr item.fd set = .ok (set.erase i) := fun set => by
    rw [fdClr, if_pos hin, hnat]
  have hset : ∀ set : FdSet, fdSet item.fd set = .ok (insert i set) := fun set => by
    rw [fdSet, if_pos hin, hnat]
  unfold itemsUpdateFdsetForFd watch
  rw [hclr, hclr, ok_bind, ok_bind, if_pos hused]
  simp only [hset]
  split_ifs <;> rfl

theorem itemsUpdate_unused (hfd : ¬ item.used) : itemsUpdateFdsetForFd s item = .error .badFdSet := by
  have hout : ¬ (0 ≤ item.fd ∧ item.fd < FD_SETSIZE) := by
    have hfd : item.fd = -1 := not_not.mp hfd
    omega
  unfold itemsUpdateFdsetForFd
  rw [fdClr, if_neg hout, error_bind]

/-- The scan for the greatest descriptor stays in the table, and finds it. -/
theorem maxFd_scan (hfd : ∀ {i item}, s.lookup i = some item → item.fd = i) {n : Nat} (hn : n ≤ s.fds.length) :
    ∃ m, Runs.run (maxFdStep s) 0 (List.range n) = .ok m ∧ (∀ i item, s.lookup i = some item → i < n → i ≤ m) ∧
      (m = 0 ∨ ∃ item, s.lookup m = some item) := by
  induction n with
  | zero => exact ⟨0, rfl, fun i item _ hi => absurd hi (Nat.not_lt_zero i), Or.inl rfl⟩
  | succ n ih =>
    obtain ⟨m, hrun, hle, hm⟩ := ih (by omega)
    obtain ⟨item, hitem, hget⟩ := item_of_lt (s := s) (i := n) (by omega)
    rw [List.range_succ, Runs.run_append, hrun, ok_bind]
    show ∃ m', (maxFdStep s m n >>= fun m => .ok m) = .ok m' ∧ _
    rw [maxFdStep, hitem, ok_bind]
    by_cases hu : item.used
    · have hlook : s.lookup n = some item := lookup_eq_some.mpr ⟨hget, hu⟩
      have hfdn := hfd hlook
      by_cases hlt : (m : Int) < item.fd
      · rw [if_pos ⟨hu, hlt⟩, hfdn, Int.toNat_natCast]
        refine ⟨n, rfl, fun i item _ hi => by omega, Or.inr ⟨item, hlook⟩⟩
      · rw [if_neg fun h => hlt h.2]
        refine ⟨m, rfl, fun i it hit hi => ?_, hm⟩
        by_cases hin : i = n
        · omega
        · exact hle i it hit (by omega)
    · rw [if_neg fun h => hu h.1]
      refine ⟨m, rfl, fun i it hit hi => ?_, hm⟩
      have hin : i ≠ n := by
        rintro rfl
        obtain ⟨hget', hu'⟩ := lookup_eq_some.mp hit
        rw [hget] at hget'
        cases hget'
        exact hu hu'
      exact hle i it hit (by omega)

theorem FdSelector.Valid.maxFd_lt (hv : s.Valid) : s.maxFd < s.fds.length := by
  rcases hv.attained with h | ⟨item, h⟩
  · rw [h]
    exact hv.nonempty
  · exact lookup_lt h

/-- A table that differs from a valid one in what is registered for one descriptor. -/
theorem FdSelector.Valid.change (hv : s.Valid) {o : Option (Item ε δ)} (hl : t.lookup = Function.update s.lookup i o)
    (ho : ∀ item, o = some item → item.fd = i ∧ i < FD_SETSIZE ∧ item.handler.isSome)
    (hgreatest : ∀ {j item}, t.lookup j = some item → j ≤ t.maxFd)
    (hattained : t.maxFd = 0 ∨ ∃ item, t.lookup t.maxFd = some item)
    (hr : t.masterR = watch (o.any fun item => item.interest.includes OP_READ) i s.masterR)
    (hw : t.masterW = watch (o.any fun item => item.interest.includes OP_WRITE) i s.masterW)
    (hpos : 0 < t.fds.length) (hsmall : t.fds.length ≤ ITEMS_MAX_SIZE + 1) : t.Valid := by
  have hself : t.lookup i = o := by rw [hl, Function.update_self]
  have hother : ∀ j, j ≠ i → t.lookup j = s.lookup j := fun j hj => by rw [hl, Function.update_of_ne hj]
  have hset : ∀ (op : FdInterest) (before after : FdSet),
      after = watch (o.any fun item => item.interest.includes op) i before →
      (∀ j, j ∈ before ↔ ∃ it, s.lookup j = some it ∧ it.interest.includes op) →
      ∀ j, j ∈ after ↔ ∃ it, t.lookup j = some it ∧ it.interest.includes op := by
    intro op before after hafter hbefore j
    rw [hafter, mem_watch]
    by_cases hj : j = i
    · subst hj
      rw [if_pos rfl, hself, Option.any_eq_true]
    · rw [if_neg hj, hother j hj, hbefore]
  refine ⟨?_, hgreatest, hattained, hset OP_READ _ _ hr hv.masterR, hset OP_WRITE _ _ hw hv.masterW, hpos, hsmall⟩
  intro j it hj
  by_cases hji : j = i
  · subst hji
    exact ho it (hself.symm.trans hj)
  · rw [hother j hji] at hj
    exact hv.filled hj

theorem greatest_put (hv : s.Valid) (hl : t.lookup = Function.update s.lookup i (some item))
    (hm : t.maxFd = max s.maxFd i) :
    (∀ {j it}, t.lookup j = some it → j ≤ t.maxFd) ∧ (t.maxFd = 0 ∨ ∃ it, t.lookup t.maxFd = some it) := by
  have hself : t.lookup i = some item := by rw [hl, Function.update_self]
  have hother : ∀ j, j ≠ i → t.lookup j = s.lookup j := fun j hj => by rw [hl, Function.update_of_ne hj]
  constructor
  · intro j it hj
    by_cases hji : j = i
    · omega
    · rw [hother j hji] at hj
      have hle := hv.greatest hj
      omega
  · by_cases hle : s.maxFd ≤ i
    · have hmax : t.maxFd = i := by omega
      rw [hmax]
      exact Or.inr ⟨item, hself⟩
    · have hmax : t.maxFd = s.maxFd := by omega
      rw [hmax, hother _ (by omega)]
      exact hv.attained

end Update

/-- What every call keeps. -/
structure Leads (s t : FdSelector ε δ) : Prop where
  valid : t.Valid
  complete : s.Complete → t.Complete
  longer : s.fds.length ≤ t.fds.length
  locked : t.locked = s.locked

theorem Leads.refl {s : FdSelector ε δ} (hv : s.Valid) : Leads s s := ⟨hv, id, le_rfl, rfl⟩

theorem Leads.trans {s t u : FdSelector ε δ} (h : Leads s t) (h' : Leads t u) : Leads s u :=
  ⟨h'.valid, fun hc => h'.complete (h.complete hc), h.longer.trans h'.longer, h'.locked.trans h.locked⟩

/-- After a call something else is registered for a descriptor, or nothing. -/
structure Changes (s t : FdSelector ε δ) (i : Nat) (o : Option (Item ε δ)) : Prop extends Leads s t where
  lookup : t.lookup = Function.update s.lookup i o

section Calls

variable {s t : FdSelector ε δ} {i : Nat} {item : Item ε δ} {w w' : SelectorWorld ε δ} {arg : SelectorArg} {fd : Int}
  {handler : Option (FdHandler ε)} {interest : FdInterest} {data : Option δ} {memory : Option (Nat → Item ε δ)}
  {status : SelectorStatus}

theorem FdSelector.Complete.set (hc : s.Complete) (hidle : ¬ item.used → item.interest = OP_NOOP)
    (ht : t.fds = s.fds.set i item) : t.Complete := by
  refine ⟨by rw [ht, List.length_set, hc.length], ?_⟩
  intro j it hj hu
  rw [ht] at hj
  by_cases hji : j = i
  · subst hji
    obtain ⟨hlt, hself⟩ := List.getElem?_eq_some_iff.mp hj
    rw [List.getElem_set_self] at hself
    subst hself
    exact hidle hu
  · rw [List.getElem?_set_ne (Ne.symm hji)] at hj
    exact hc.idle hj hu

theorem valid_fd (h : ¬ INVALID_FD fd) : ∃ i : Nat, fd = i ∧ i < FD_SETSIZE := by
  have hmax : ITEMS_MAX_SIZE = FD_SETSIZE := rfl
  unfold INVALID_FD at h
  exact ⟨fd.toNat, by omega, by omega⟩

theorem self_of_ne (h : arg ≠ .null) : arg = .self := by
  cases arg
  · exact absurd rfl h
  · rfl

theorem args_of_not (h : ¬ (arg = .null ∨ INVALID_FD fd)) : arg = .self ∧ ∃ i : Nat, fd = i ∧ i < FD_SETSIZE := by
  obtain ⟨harg, hfd⟩ := not_or.mp h
  exact ⟨self_of_ne harg, valid_fd hfd⟩

theorem not_args (h : ¬ INVALID_FD fd) : ¬ (SelectorArg.self = .null ∨ INVALID_FD fd) := by
  rintro (harg | hfd)
  · cases harg
  · exact h hfd

theorem makeRoom_grown (hne : i ≠ s.fds.length) (h : makeRoom s i memory = (.success, t)) : Grown s t i := by
  unfold makeRoom at h
  split at h
  · exact ensureCapacity_grown h
  · cases h
    exact ⟨rfl, by omega, rfl, Nat.le_max_left _ _, le_rfl, fun _ => rfl⟩

theorem makeRoom_failed (h : makeRoom s i memory = (status, t)) (hs : status ≠ .success) : t = s := by
  unfold makeRoom at h
  split at h
  · exact ensureCapacity_failed h hs
  · cases h
    exact absurd rfl hs

theorem lookup_congr {r : FdSelector ε δ} (h : r.fds = t.fds) : r.lookup = t.lookup := by
  funext j
  rw [FdSelector.lookup, h]
  rfl

theorem used_of_fd (hfd : item.fd = i) : item.used := by
  show item.fd ≠ -1
  omega

/-- An item written into a table that has room for it, with the sets and the greatest descriptor made to agree. -/
theorem put_changes {r : FdSelector ε δ} (hv : s.Valid) (hg : Grown s t i) (hfd : item.fd = i) (hi : i < FD_SETSIZE)
    (hh : item.handler.isSome) (hfds : r.fds = t.fds.set i item) (hmax : r.maxFd = max s.maxFd i)
    (hr : r.masterR = watch (item.interest.includes OP_READ) i s.masterR)
    (hw : r.masterW = watch (item.interest.includes OP_WRITE) i s.masterW) (hlocked : r.locked = s.locked) :
    Changes s r i (some item) := by
  have hlook : r.lookup = Function.update s.lookup i (some item) := by
    have hset := lookup_set hg.room item
    rw [if_pos (used_of_fd hfd), hg.lookup] at hset
    rw [← hset]
    exact lookup_congr hfds
  have hlen : r.fds.length = t.fds.length := by rw [hfds, List.length_set]
  obtain ⟨hgreatest, hattained⟩ := greatest_put hv hlook hmax
  refine ⟨⟨?_, ?_, ?_, hlocked⟩, hlook⟩
  · apply hv.change hlook _ hgreatest hattained hr hw
    · have := hv.nonempty
      have := hg.longer
      omega
    · have := hg.small
      have := hv.small
      omega
    · intro it hit
      cases hit
      exact ⟨hfd, hi, hh⟩
  · intro hc
    have hfull := hc.length
    have hmax : ITEMS_MAX_SIZE = FD_SETSIZE := rfl
    have hsame : t = s := hg.fits (by omega)
    apply hc.set (fun hu => absurd (used_of_fd hfd) hu)
    rw [hfds, hsame]
  · have := hg.longer
    omega

/-- An item is registered where none is. -/
theorem registerItem_ok (hv : s.Valid) (hg : Grown s t i) (hfd : item.fd = i) (hi : i < FD_SETSIZE)
    (hh : item.handler.isSome) :
    registerItem t item = .ok (.fdinuse, s) ∨
      ∃ r, registerItem t item = .ok (.success, r) ∧ s.lookup i = none ∧ Changes s r i (some item) := by
  have hnat : item.fd.toNat = i := by omega
  obtain ⟨old, hold, hget⟩ := item_of_lt hg.room
  unfold registerItem
  rw [hnat, show t.item item.fd = .ok old by rw [hfd, hold], ok_bind]
  by_cases hu : old.used
  · -- the item is in use, so the table has not grown
    have hlook : s.lookup i = some old := hg.lookup ▸ lookup_eq_some.mpr ⟨hget, hu⟩
    rw [if_pos hu, hg.fits (lookup_lt hlook)]
    exact Or.inl rfl
  · have hfree : s.lookup i = none := by
      rw [← hg.lookup]
      apply lookup_eq_none.mpr
      intro it hit
      cases hget.symm.trans hit
      exact hu
    rw [if_neg hu, itemsUpdate_ok hfd hi, ok_bind]
    refine Or.inr ⟨_, rfl, hfree, ?_⟩
    apply put_changes hv hg hfd hi hh rfl
    · show (if (t.maxFd : Int) < item.fd then i else t.maxFd) = max s.maxFd i
      rw [hg.same, hfd]
      show (if (s.maxFd : Int) < i then i else s.maxFd) = max s.maxFd i
      split_ifs <;> omega
    · rw [hg.same]
    · rw [hg.same]
    · rw [hg.same]

/-- A registration fails and leaves everything as it is, or it registers the descriptor. Only a descriptor that is
just the size of the table gets no room. -/
theorem selectorRegister_ok (hv : w.selector.Valid)
    (hroom : ¬ INVALID_FD fd → handler.isSome → arg = .self → fd ≠ w.selector.fds.length) :
    ∃ status w', selectorRegister w arg fd handler interest data memory = .ok (status, w') ∧
      (status ≠ .success ∧ w' = w ∨
        status = .success ∧ ∃ i : Nat, fd = i ∧ w.selector.lookup i = none ∧
          Changes w.selector w'.selector i (some { fd, interest, handler, data }) ∧
          w'.log = w.log ++ [.taken fd data]) := by
  unfold selectorRegister
  by_cases hargs : arg = .null ∨ INVALID_FD fd ∨ handler.isNone
  · rw [if_pos hargs]
    exact ⟨_, _, rfl, Or.inl ⟨by decide, rfl⟩⟩
  · rw [if_neg hargs]
    obtain ⟨harg, hfd, hh⟩ : arg ≠ .null ∧ ¬ INVALID_FD fd ∧ ¬ handler.isNone := by
      simpa only [not_or] using hargs
    have hh : handler.isSome := by
      rw [Option.isSome_iff_ne_none]
      simpa using hh
    obtain rfl := self_of_ne harg
    obtain ⟨i, rfl, hi⟩ := valid_fd hfd
    have hne : i ≠ w.selector.fds.length := fun he => hroom hfd hh rfl (by rw [he])
    rw [Int.toNat_natCast]
    rcases hmake : makeRoom w.selector i memory with ⟨status, t⟩
    by_cases hs : status = .success
    · subst hs
      have hg := makeRoom_grown hne hmake
      obtain hinuse | ⟨r, hr, hfree, hc⟩ :=
        @registerItem_ok _ _ _ _ _ { fd := i, handler, interest, data } hv hg rfl hi hh
      · refine ⟨.fdinuse, w, ?_, Or.inl ⟨by decide, rfl⟩⟩
        dsimp only
        rw [hinuse]
        rfl
      · refine ⟨.success, { selector := r, log := w.log ++ [.taken i data] }, ?_, Or.inr ⟨rfl, i, rfl, hfree, hc, rfl⟩⟩
        dsimp only
        rw [hr]
        rfl
    · have hsame := makeRoom_failed hmake hs
      subst hsame
      refine ⟨status, w, ?_, Or.inl ⟨hs, rfl⟩⟩
      cases status <;> first | rfl | exact absurd rfl hs

theorem noop_includes (op : FdInterest) : FdInterest.includes OP_NOOP op = false := by
  simp [FdInterest.includes]

/-- The item of a registered descriptor is taken out of the table. -/
theorem unregisterItem_ok (hv : s.Valid) (hlook : s.lookup i = some item) :
    ∃ r, unregisterItem s i = .ok r ∧ Changes s r i none := by
  obtain ⟨hfd, hi, -⟩ := hv.filled hlook
  have hlt := lookup_lt hlook
  have hblank : ¬ (itemInit (blankItem : Item ε δ)).used := by simp [itemInit]
  have hupdate : ∀ t : FdSelector ε δ, itemsUpdateFdsetForFd t { item with interest := OP_NOOP } =
      .ok { t with masterR := watch false i t.masterR, masterW := watch false i t.masterW } := by
    intro t
    rw [itemsUpdate_ok (by exact hfd) hi, noop_includes, noop_includes]
  unfold unregisterItem
  rw [item_of_lookup hlook, ok_bind, Int.toNat_natCast]
  dsimp only
  rw [hupdate, ok_bind]
  dsimp only
  rw [List.set_set]
  generalize hr : ({ s with
    fds := s.fds.set i (itemInit blankItem)
    masterR := watch false i s.masterR
    masterW := watch false i s.masterW } : FdSelector ε δ) = r
  have hfds : r.fds = s.fds.set i (itemInit blankItem) := by rw [← hr]
  have hrmax : r.maxFd = s.maxFd := by rw [← hr]
  have hrlook : r.lookup = Function.update s.lookup i none := by
    have hset := lookup_set hlt (itemInit blankItem)
    rw [if_neg hblank] at hset
    rw [← hset]
    exact lookup_congr hfds
  have hkept : ∀ {j it}, r.lookup j = some it → s.lookup j = some it := by
    intro j it hj
    rw [hrlook] at hj
    by_cases hji : j = i
    · subst hji
      rw [Function.update_self] at hj
      cases hj
    · rwa [Function.update_of_ne hji] at hj
  have hroom : r.maxFd + 1 ≤ r.fds.length := by
    rw [hrmax, hfds, List.length_set]
    exact hv.maxFd_lt
  obtain ⟨m, hm, hle, hatt⟩ := maxFd_scan (fun hj => (hv.filled (hkept hj)).1) hroom
  have hscan : itemsMaxFd r = .ok m := hm
  have hmlook : ({ r with maxFd := m } : FdSelector ε δ).lookup = Function.update s.lookup i none := hrlook
  refine ⟨{ r with maxFd := m }, by rw [hscan, ← hr]; rfl, ⟨?_, ?_, ?_, ?_⟩, hmlook⟩
  · apply hv.change hmlook
    · intro it hit
      cases hit
    · intro j it hj
      have hold := hv.greatest (hkept hj)
      exact hle j it hj (by omega)
    · exact hatt
    · rw [← hr]
      rfl
    · rw [← hr]
      rfl
    · show 0 < r.fds.length
      omega
    · show r.fds.length ≤ ITEMS_MAX_SIZE + 1
      rw [hfds, List.length_set]
      exact hv.small
  · intro hc
    exact @FdSelector.Complete.set _ _ s { r with maxFd := m } i _ hc (fun _ => rfl) hfds
  · show s.fds.length ≤ r.fds.length
    rw [hfds, List.length_set]
  · show r.locked = s.locked
    rw [← hr]

/-- A callback that has unregistered the descriptor itself leaves an item behind that no set can forget. -/
theorem unregisterItem_unused (hlook : s.lookup i = none) (hlt : i < s.fds.length) :
    unregisterItem s i = .error .badFdSet := by
  obtain ⟨item, hitem, hget⟩ := item_of_lt hlt
  have hu := lookup_eq_none.mp hlook item hget
  have hupdate : ∀ t : FdSelector ε δ, itemsUpdateFdsetForFd t { item with interest := OP_NOOP } = .error .badFdSet :=
    fun t => itemsUpdate_unused hu
  unfold unregisterItem
  rw [hitem, ok_bind]
  dsimp only
  rw [hupdate, error_bind]

/-- Of an argument that no descriptor is registered for nothing is made. -/
theorem selectorUnregisterFd_refused {close : SelectorWorld ε δ → Except SelectorFault (SelectorWorld ε δ)}
    (h : arg = .null ∨ INVALID_FD fd ∨ ∃ i : Nat, fd = i ∧ i < w.selector.fds.length ∧ w.selector.lookup i = none) :
    selectorUnregisterFd close w arg fd = .ok (.iargs, w) := by
  unfold selectorUnregisterFd
  by_cases hargs : arg = .null ∨ INVALID_FD fd
  · rw [if_pos hargs]
  · obtain ⟨i, rfl, hlt, hnone⟩ := (h.resolve_left (fun ha => hargs (Or.inl ha))).resolve_left
      (fun hf => hargs (Or.inr hf))
    obtain ⟨item, hitem, hget⟩ := item_of_lt hlt
    rw [if_neg hargs, hitem, ok_bind, if_pos (lookup_eq_none.mp hnone item hget)]

/-- The call of `handle_close` that goes with a registered descriptor. -/
def closing (close : SelectorWorld ε δ → Except SelectorFault (SelectorWorld ε δ)) (w : SelectorWorld ε δ) (item : Item ε δ) :
    Except SelectorFault (SelectorWorld ε δ) :=
  if item.handler.any fun handler => handler.handleClose.isSome then
    close { w with log := w.log ++ [.returned item.fd item.data] }
  else .ok w

theorem selectorUnregisterFd_eq {close : SelectorWorld ε δ → Except SelectorFault (SelectorWorld ε δ)}
    (hv : w.selector.Valid) (hlook : w.selector.lookup i = some item) :
    selectorUnregisterFd close w .self i = closing close w item >>= fun w' =>
      if w'.selector.fds.length ≠ w.selector.fds.length then .error .moved
      else unregisterItem w'.selector i >>= fun s => .ok (.success, { w' with selector := s }) := by
  obtain ⟨hfd, hi, hh⟩ := hv.filled hlook
  obtain ⟨handler, hh⟩ := Option.isSome_iff_exists.mp hh
  have hmax : ITEMS_MAX_SIZE = FD_SETSIZE := rfl
  have hvalid : ¬ INVALID_FD (i : Int) := by
    unfold INVALID_FD
    omega
  have hu : ¬ ¬ item.used := not_not.mpr (used_of_fd hfd)
  unfold selectorUnregisterFd closing
  rw [if_neg (not_args hvalid), item_of_lookup hlook, ok_bind, if_neg hu, hh, demand_some, ok_bind]
  simp only [Option.any_some]
  split_ifs <;> rfl

theorem item_out (h : s.fds.length ≤ i) : s.item i = .error .outOfTable := by
  rw [item_eq, List.getElem?_eq_none h]
  rfl

/-- Interest is changed where a descriptor is registered. -/
theorem selectorSetInterest_ok (hv : w.selector.Valid)
    (hroom : ¬ INVALID_FD fd → arg = .self → fd < w.selector.fds.length) :
    ∃ status w', selectorSetInterest w arg fd interest = .ok (status, w') ∧
      (status ≠ .success ∧ w' = w ∨
        status = .success ∧ ∃ (i : Nat) (item : Item ε δ), fd = i ∧ w.selector.lookup i = some item ∧
          Changes w.selector w'.selector i (some { item with interest }) ∧ w'.log = w.log) := by
  unfold selectorSetInterest
  by_cases hargs : arg = .null ∨ INVALID_FD fd
  · rw [if_pos hargs]
    exact ⟨_, _, rfl, Or.inl ⟨by decide, rfl⟩⟩
  · obtain ⟨rfl, i, rfl, hi⟩ := args_of_not hargs
    have hlt : i < w.selector.fds.length := by
      have := hroom (not_or.mp hargs).2 rfl
      omega
    obtain ⟨item, hitem, hget⟩ := item_of_lt hlt
    rw [if_neg hargs, hitem, ok_bind]
    by_cases hu : item.used
    · have hlook := lookup_eq_some.mpr ⟨hget, hu⟩
      obtain ⟨hfdi, -, hh⟩ := hv.filled hlook
      have hfdi : ({ item with interest } : Item ε δ).fd = i := hfdi
      have hh : ({ item with interest } : Item ε δ).handler.isSome := hh
      have hupdate := fun t => @itemsUpdate_ok _ _ t i _ hfdi hi
      rw [if_neg (not_not.mpr hu), Int.toNat_natCast]
      dsimp only
      rw [hupdate, ok_bind]
      refine ⟨_, _, rfl, Or.inr ⟨rfl, i, item, rfl, hlook, ?_, rfl⟩⟩
      have hg : Grown w.selector w.selector i := ⟨rfl, hlt, rfl, Nat.le_max_left _ _, le_rfl, fun _ => rfl⟩
      have hle := hv.greatest hlook
      have hmax : w.selector.maxFd = max w.selector.maxFd i := by omega
      apply put_changes hv hg hfdi hi hh
      · rfl
      · exact hmax
      all_goals rfl
    · rw [if_pos hu]
      exact ⟨_, _, rfl, Or.inl ⟨by decide, rfl⟩⟩

theorem selectorSetInterestKey_eq (w : SelectorWorld ε δ) (key : Option (SelectorKey δ)) (interest : FdInterest) :
    selectorSetInterestKey w key interest = .ok (.iargs, w) ∨
      ∃ fd, selectorSetInterestKey w key interest = selectorSetInterest w .self fd interest ∧ ¬ INVALID_FD fd := by
  unfold selectorSetInterestKey
  cases key with
  | none => exact Or.inl rfl
  | some key =>
    dsimp only
    by_cases hargs : key.s = .null ∨ INVALID_FD key.fd
    · rw [if_pos hargs]
      exact Or.inl rfl
    · obtain ⟨harg, hfd⟩ := not_or.mp hargs
      rw [if_neg hargs, self_of_ne harg]
      exact Or.inr ⟨_, rfl, hfd⟩

theorem Leads.notify (hv : w.selector.Valid) (jobs : List Int) :
    Leads w.selector { w.selector with resolutionJobs := jobs } :=
  ⟨⟨hv.filled, hv.greatest, hv.attained, hv.masterR, hv.masterW, hv.nonempty, hv.small⟩,
    fun hc => ⟨hc.length, hc.idle⟩, le_rfl, rfl⟩

/-- A call of `selector_register` for the descriptor just behind the table reads past its end. -/
theorem selectorRegister_out (hfd : ¬ INVALID_FD fd) (hh : handler.isSome) (he : fd = w.selector.fds.length) :
    selectorRegister w .self fd handler interest data memory = .error .outOfTable := by
  have hargs : ¬ (SelectorArg.self = .null ∨ INVALID_FD fd ∨ handler.isNone) := by
    rintro (h | h | h)
    · cases h
    · exact hfd h
    · rw [Option.isNone_iff_eq_none.mp h] at hh
      cases hh
  have hmake : makeRoom w.selector w.selector.fds.length memory = (.success, w.selector) := if_neg (Nat.lt_irrefl _)
  unfold selectorRegister
  rw [if_neg hargs, he, Int.toNat_natCast, hmake]
  dsimp only
  rw [registerItem, item_out le_rfl]
  rfl

theorem selectorUnregisterFd_out {close : SelectorWorld ε δ → Except SelectorFault (SelectorWorld ε δ)}
    (hfd : ¬ INVALID_FD i) (he : w.selector.fds.length ≤ i) :
    selectorUnregisterFd close w .self i = .error .outOfTable := by
  rw [selectorUnregisterFd, if_neg (not_args hfd), item_out he]
  rfl

theorem selectorSetInterest_out (hfd : ¬ INVALID_FD i) (he : w.selector.fds.length ≤ i) :
    selectorSetInterest w .self i interest = .error .outOfTable := by
  rw [selectorSetInterest, if_neg (not_args hfd), item_out he]
  rfl

end Calls

section Outcomes

variable {w w' : SelectorWorld ε δ} {arg : SelectorArg} {fd : Int} {interest : FdInterest} {status : SelectorStatus}
  {close : SelectorWorld ε δ → Except SelectorFault (SelectorWorld ε δ)}

theorem selectorRegister_cases {handler : Option (FdHandler ε)} {data : Option δ} {memory : Option (Nat → Item ε δ)}
    (hv : w.selector.Valid) (h : selectorRegister w arg fd handler interest data memory = .ok (status, w')) :
    status ≠ .success ∧ w' = w ∨
      status = .success ∧ ∃ i : Nat, fd = i ∧ w.selector.lookup i = none ∧
        Changes w.selector w'.selector i (some { fd, interest, handler, data }) ∧ w'.log = w.log ++ [.taken fd data] := by
  obtain ⟨status', w'', hok, hcases⟩ := @selectorRegister_ok _ _ w arg fd handler interest data memory hv (by
    rintro hfd hh rfl he
    rw [selectorRegister_out hfd hh he] at h
    cases h)
  cases hok.symm.trans h
  exact hcases

theorem selectorSetInterest_cases (hv : w.selector.Valid) (h : selectorSetInterest w arg fd interest = .ok (status, w')) :
    status ≠ .success ∧ w' = w ∨
      status = .success ∧ ∃ (i : Nat) (item : Item ε δ), fd = i ∧ w.selector.lookup i = some item ∧
        Changes w.selector w'.selector i (some { item with interest }) ∧ w'.log = w.log := by
  obtain ⟨status', w'', hok, hcases⟩ := @selectorSetInterest_ok _ _ w arg fd interest hv (by
    rintro hfd rfl
    obtain ⟨i, rfl, -⟩ := valid_fd hfd
    by_contra hge
    rw [selectorSetInterest_out hfd (by omega)] at h
    cases h)
  cases hok.symm.trans h
  exact hcases

/-- A descriptor is unregistered when its `handle_close` has returned, and was still registered then. -/
theorem selectorUnregisterFd_cases (hv : w.selector.Valid)
    (hclose : ∀ w w', w.selector.Valid → close w = .ok w' → Leads w.selector w'.selector)
    (h : selectorUnregisterFd close w arg fd = .ok (status, w')) :
    status ≠ .success ∧ w' = w ∨
      status = .success ∧ ∃ (i : Nat) (item : Item ε δ) (w₁ : SelectorWorld ε δ), fd = i ∧
        w.selector.lookup i = some item ∧ closing close w item = .ok w₁ ∧ Leads w.selector w₁.selector ∧
        Changes w₁.selector w'.selector i none ∧ w'.log = w₁.log := by
  by_cases hargs : arg = .null ∨ INVALID_FD fd
  · rw [selectorUnregisterFd_refused (hargs.imp_right Or.inl)] at h
    cases h
    exact Or.inl ⟨by decide, rfl⟩
  · obtain ⟨rfl, i, rfl, hi⟩ := args_of_not hargs
    have hlt : i < w.selector.fds.length := by
      by_contra hge
      rw [selectorUnregisterFd_out (not_or.mp hargs).2 (by omega)] at h
      cases h
    cases hlook : w.selector.lookup i with
    | none =>
      rw [selectorUnregisterFd_refused (Or.inr (Or.inr ⟨i, rfl, hlt, hlook⟩))] at h
      cases h
      exact Or.inl ⟨by decide, rfl⟩
    | some item =>
      rw [selectorUnregisterFd_eq hv hlook] at h
      obtain ⟨w₁, hw₁, h⟩ := bind_ok h
      have hleads : Leads w.selector w₁.selector := by
        unfold closing at hw₁
        split at hw₁
        · exact hclose { w with log := w.log ++ [.returned item.fd item.data] } _ hv hw₁
        · cases hw₁
          exact Leads.refl hv
      split at h
      · cases h
      · obtain ⟨s, hs, h⟩ := bind_ok h
        cases h
        have hlonger := hleads.longer
        cases hlook₁ : w₁.selector.lookup i with
        | none =>
          rw [unregisterItem_unused hlook₁ (by omega)] at hs
          cases hs
        | some item₁ =>
          obtain ⟨r, hr, hc⟩ := unregisterItem_ok hleads.valid hlook₁
          cases hr.symm.trans hs
          exact Or.inr ⟨rfl, i, item, w₁, rfl, hlook, hw₁, hleads, hc, rfl⟩

/-- A call keeps the table in order if the callback it may call does, and one that fails changes nothing. -/
theorem SelectorCall.apply_leads (hv : w.selector.Valid)
    (hclose : ∀ w w', w.selector.Valid → close w = .ok w' → Leads w.selector w'.selector) {call : SelectorCall ε δ}
    (h : call.apply close w = .ok (status, w')) :
    Leads w.selector w'.selector ∧ (status ≠ .success → w' = w) := by
  have hset : ∀ {arg fd interest}, selectorSetInterest w arg fd interest = .ok (status, w') →
      Leads w.selector w'.selector ∧ (status ≠ .success → w' = w) := by
    intro arg fd interest h
    obtain ⟨-, rfl⟩ | ⟨hs, i, item, -, -, hc, -⟩ := selectorSetInterest_cases hv h
    · exact ⟨Leads.refl hv, fun _ => rfl⟩
    · exact ⟨hc.toLeads, fun hne => absurd hs hne⟩
  cases call with
  | register s fd handler interest data memory =>
    obtain ⟨-, rfl⟩ | ⟨hs, i, -, -, hc, -⟩ := selectorRegister_cases hv h
    · exact ⟨Leads.refl hv, fun _ => rfl⟩
    · exact ⟨hc.toLeads, fun hne => absurd hs hne⟩
  | unregister s fd =>
    obtain ⟨-, rfl⟩ | ⟨hs, i, item, w₁, -, -, -, hl, hc, -⟩ := selectorUnregisterFd_cases hv hclose h
    · exact ⟨Leads.refl hv, fun _ => rfl⟩
    · exact ⟨hl.trans hc.toLeads, fun hne => absurd hs hne⟩
  | setInterest s fd interest => exact hset h
  | setInterestKey key interest =>
    obtain hiargs | ⟨fd, hfd, -⟩ := selectorSetInterestKey_eq w key interest
    · cases hiargs.symm.trans h
      exact ⟨Leads.refl hv, fun _ => rfl⟩
    · exact hset (hfd.symm.trans h)
  | notifyBlock fd memory =>
    simp only [SelectorCall.apply, selectorNotifyBlock] at h
    split at h
    · cases h
      exact ⟨Leads.refl hv, fun _ => rfl⟩
    · split at h
      · cases h
      · cases h
        exact ⟨Leads.notify hv _, fun hne => absurd rfl hne⟩

end Outcomes

section Logs

variable {w w' : SelectorWorld ε δ} {arg : SelectorArg} {fd : Int} {interest : FdInterest} {status : SelectorStatus}

/-- A registration that succeeds is added to the log. What is in the log has no part in what a call does. -/
theorem selectorRegister_adds {handler : Option (FdHandler ε)} {data : Option δ} {memory : Option (Nat → Item ε δ)}
    (h : selectorRegister w arg fd handler interest data memory = .ok (status, w')) :
    ∃ new, w'.log = w.log ++ new ∧ new = (if status = .success then [.taken fd data] else []) ∧
      selectorRegister ⟨w.selector, []⟩ arg fd handler interest data memory = .ok (status, ⟨w'.selector, new⟩) := by
  unfold selectorRegister at h ⊢
  split at h
  next hargs =>
    rw [if_pos hargs]
    cases h
    exact ⟨[], (List.append_nil _).symm, rfl, rfl⟩
  next hargs =>
    rw [if_neg hargs]
    dsimp only at h ⊢
    split at h
    next t hroom =>
      obtain ⟨⟨status', u⟩, hitem, h⟩ := bind_ok h
      obtain ⟨hstatus, hw⟩ := Prod.mk.inj (Except.ok.inj h)
      subst hstatus
      subst hw
      refine ⟨_, ?_, rfl, ?_⟩
      · dsimp only
        split_ifs
        · rfl
        · exact (List.append_nil _).symm
      · rw [hitem, ok_bind]
        rfl
    next status₁ t hfailed hroom =>
      obtain ⟨hstatus, hw⟩ := Prod.mk.inj (Except.ok.inj h)
      subst hstatus
      subst hw
      exact ⟨[], (List.append_nil _).symm, (if_neg hfailed).symm, rfl⟩

theorem selectorSetInterest_adds (h : selectorSetInterest w arg fd interest = .ok (status, w')) :
    w'.log = w.log ∧ selectorSetInterest ⟨w.selector, []⟩ arg fd interest = .ok (status, ⟨w'.selector, []⟩) := by
  unfold selectorSetInterest at h ⊢
  split at h
  next hargs =>
    rw [if_pos hargs]
    cases h
    exact ⟨rfl, rfl⟩
  next hargs =>
    obtain ⟨item, hitem, h⟩ := bind_ok h
    rw [if_neg hargs, hitem, ok_bind]
    split at h
    next hu =>
      rw [if_pos hu]
      cases h
      exact ⟨rfl, rfl⟩
    next hu =>
      obtain ⟨t, hupdate, h⟩ := bind_ok h
      cases h
      rw [if_neg hu]
      dsimp only
      rw [hupdate]
      exact ⟨rfl, rfl⟩

theorem selectorSetInterestKey_adds {key : Option (SelectorKey δ)}
    (h : selectorSetInterestKey w key interest = .ok (status, w')) :
    w'.log = w.log ∧ selectorSetInterestKey ⟨w.selector, []⟩ key interest = .ok (status, ⟨w'.selector, []⟩) := by
  unfold selectorSetInterestKey at h ⊢
  cases key with
  | none =>
    cases h
    exact ⟨rfl, rfl⟩
  | some key =>
    dsimp only at h ⊢
    split at h
    next hargs =>
      rw [if_pos hargs]
      cases h
      exact ⟨rfl, rfl⟩
    next hargs =>
      rw [if_neg hargs]
      exact selectorSetInterest_adds h

theorem selectorNotifyBlock_adds {memory : Bool} (h : selectorNotifyBlock w fd memory = .ok (status, w')) :
    w'.log = w.log ∧ selectorNotifyBlock ⟨w.selector, []⟩ fd memory = .ok (status, ⟨w'.selector, []⟩) := by
  unfold selectorNotifyBlock at h ⊢
  split at h
  next hmemory =>
    rw [if_pos hmemory]
    cases h
    exact ⟨rfl, rfl⟩
  next hmemory =>
    rw [if_neg hmemory]
    split at h
    · cases h
    next hlocked =>
      rw [if_neg hlocked]
      cases h
      exact ⟨rfl, rfl⟩

/-- A descriptor is given to `handle_close` at most, and nothing is taken. -/
theorem selectorUnregisterFd_adds (h : selectorUnregisterFd .ok w arg fd = .ok (status, w')) :
    ∃ new, w'.log = w.log ++ new ∧ (∀ e ∈ new, ∃ fd data, e = .returned fd data) ∧
      selectorUnregisterFd .ok ⟨w.selector, []⟩ arg fd = .ok (status, ⟨w'.selector, new⟩) := by
  have hnone : ∀ e ∈ ([] : List (Event Int (Option δ))), ∃ fd data, e = .returned fd data :=
    fun e he => absurd he List.not_mem_nil
  unfold selectorUnregisterFd at h ⊢
  split at h
  next hargs =>
    rw [if_pos hargs]
    cases h
    exact ⟨[], (List.append_nil _).symm, hnone, rfl⟩
  next hargs =>
    obtain ⟨item, hitem, h⟩ := bind_ok h
    rw [if_neg hargs, hitem, ok_bind]
    split at h
    next hu =>
      rw [if_pos hu]
      cases h
      exact ⟨[], (List.append_nil _).symm, hnone, rfl⟩
    next hu =>
      obtain ⟨handler, hhandler, h⟩ := bind_ok h
      rw [if_neg hu, hhandler, ok_bind]
      split at h
      next hclose =>
        obtain ⟨w₁, hw₁, h⟩ := bind_ok h
        cases hw₁
        dsimp only at h
        rw [if_neg (not_not.mpr rfl)] at h
        obtain ⟨t, hitem', h⟩ := bind_ok h
        cases h
        rw [if_pos hclose, ok_bind]
        dsimp only
        rw [if_neg (not_not.mpr rfl), hitem']
        exact ⟨[.returned item.fd item.data], rfl, fun e he => ⟨_, _, List.mem_singleton.mp he⟩, rfl⟩
      next hclose =>
        obtain ⟨w₁, hw₁, h⟩ := bind_ok h
        cases hw₁
        dsimp only at h
        rw [if_neg (not_not.mpr rfl)] at h
        obtain ⟨t, hitem', h⟩ := bind_ok h
        cases h
        rw [if_neg hclose, ok_bind]
        dsimp only
        rw [if_neg (not_not.mpr rfl), hitem']
        exact ⟨[], (List.append_nil _).symm, hnone, rfl⟩

end Logs

section New

variable {s : FdSelector ε δ} {n : Nat} {struct : Bool} {memory : Option (Nat → Item ε δ)}

theorem selectorNew_eq (h : selectorNew n struct memory = some s) :
    n ≤ ITEMS_MAX_SIZE ∧ s = {
      fds := List.replicate (nextCapacity n) (itemInit blankItem)
      maxFd := 0, masterR := ∅, masterW := ∅, slaveR := ∅, slaveW := ∅, resolutionJobs := [], locked := false } := by
  unfold selectorNew ensureCapacity at h
  cases struct with
  | false => cases h
  | true =>
    have hlt : ¬ n < ([] : List (Item ε δ)).length := Nat.not_lt_zero n
    simp only [if_true, if_neg hlt] at h
    split at h
    next t heq =>
      cases h
      split at heq
      · cases heq
      next hmax =>
        cases memory with
        | none => cases heq
        | some rest =>
          cases heq
          exact ⟨Nat.le_of_not_lt hmax, by simp [itemsInit]⟩
    · cases h

/-- A new selector has nothing registered. -/
theorem selectorNew_valid (h : selectorNew n struct memory = some s) :
    s.Valid ∧ s.locked = false ∧ s.lookup = fun _ => none := by
  obtain ⟨hn, rfl⟩ := selectorNew_eq h
  obtain ⟨hlt, hle⟩ := nextCapacity_bounds hn
  have hnone : ∀ i, FdSelector.lookup ({
      fds := List.replicate (nextCapacity n) (itemInit blankItem)
      maxFd := 0, masterR := ∅, masterW := ∅, slaveR := ∅, slaveW := ∅, resolutionJobs := [], locked := false } :
        FdSelector ε δ) i = none := by
    intro i
    apply lookup_eq_none.mpr
    intro item hitem
    obtain ⟨-, rfl⟩ := List.mem_replicate.mp (List.mem_of_getElem? hitem)
    simp [itemInit]
  have hempty : ∀ (op : FdInterest) (i : Nat), i ∈ (∅ : FdSet) ↔ ∃ item, (none : Option (Item ε δ)) = some item ∧
      item.interest.includes op := by simp
  refine ⟨⟨?_, ?_, Or.inl rfl, ?_, ?_, ?_, ?_⟩, rfl, funext hnone⟩
  · intro i item hi
    rw [hnone] at hi
    cases hi
  · intro i item hi
    rw [hnone] at hi
    cases hi
  · intro i
    rw [hnone]
    exact hempty OP_READ i
  · intro i
    rw [hnone]
    exact hempty OP_WRITE i
  · rw [List.length_replicate]
    omega
  · rw [List.length_replicate]
    exact hle

/-- Room for all descriptors is made at once, already if half of them are asked for. -/
theorem selectorNew_complete (hn : ITEMS_MAX_SIZE / 2 ≤ n) (h : selectorNew n struct memory = some s) :
    s.Complete := by
  obtain ⟨hle, rfl⟩ := selectorNew_eq h
  refine ⟨by rw [List.length_replicate, nextCapacity_max hn hle], ?_⟩
  intro i item hitem _
  obtain ⟨-, rfl⟩ := List.mem_replicate.mp (List.mem_of_getElem? hitem)
  rfl

end New

section Calling

variable {w : SelectorWorld ε δ}

/-- The callbacks behind a call leave the selector alone. -/
def SelectorCall.quietly (w : SelectorWorld ε δ) (call : SelectorCall ε δ) : Except SelectorFault (SelectorWorld ε δ) := do
  let (_, w) ← call.apply .ok w
  .ok w

theorem quiet_leads (w w' : SelectorWorld ε δ) (hv : w.selector.Valid) (h : Except.ok (ε := SelectorFault) w = .ok w') :
    Leads w.selector w'.selector := by
  cases h
  exact Leads.refl hv

/-- What is registered can be unregistered. -/
theorem unregister_quiet {i : Nat} {item : Item ε δ} (hv : w.selector.Valid) (hlook : w.selector.lookup i = some item) :
    ∃ w', selectorUnregisterFd .ok w .self i = .ok (.success, w') ∧ Changes w.selector w'.selector i none := by
  obtain ⟨r, hr, hc⟩ := unregisterItem_ok hv hlook
  rw [selectorUnregisterFd_eq hv hlook, closing]
  split_ifs
  all_goals
    rw [ok_bind, if_neg (not_not.mpr rfl), hr]
    exact ⟨_, rfl, hc⟩

/-- In a complete table every call returns. -/
theorem SelectorCall.apply_ok (hv : w.selector.Valid) (hc : w.selector.Complete) (hl : w.selector.locked = false)
    (call : SelectorCall ε δ) : ∃ status w', call.apply .ok w = .ok (status, w') := by
  have hmax : ITEMS_MAX_SIZE = FD_SETSIZE := rfl
  have hlen := hc.length
  have hset : ∀ arg fd interest, ∃ status w', selectorSetInterest w arg fd interest = .ok (status, w') := by
    intro arg fd interest
    obtain ⟨status, w', h, -⟩ := @selectorSetInterest_ok _ _ w arg fd interest hv fun hfd _ => by
      obtain ⟨i, rfl, hi⟩ := valid_fd hfd
      omega
    exact ⟨status, w', h⟩
  cases call with
  | register arg fd handler interest data memory =>
    obtain ⟨status, w', h, -⟩ := @selectorRegister_ok _ _ w arg fd handler interest data memory hv fun hfd _ _ => by
      obtain ⟨i, rfl, hi⟩ := valid_fd hfd
      omega
    exact ⟨status, w', h⟩
  | unregister arg fd =>
    show ∃ status w', selectorUnregisterFd .ok w arg fd = .ok (status, w')
    by_cases hargs : arg = .null ∨ INVALID_FD fd
    · exact ⟨_, _, selectorUnregisterFd_refused (hargs.imp_right Or.inl)⟩
    · obtain ⟨rfl, i, rfl, hi⟩ := args_of_not hargs
      cases hlook : w.selector.lookup i with
      | none => exact ⟨_, _, selectorUnregisterFd_refused (Or.inr (Or.inr ⟨i, rfl, by omega, hlook⟩))⟩
      | some item =>
        obtain ⟨w', h, -⟩ := unregister_quiet hv hlook
        exact ⟨_, w', h⟩
  | setInterest arg fd interest => exact hset arg fd interest
  | setInterestKey key interest =>
    obtain h | ⟨fd, h, -⟩ := selectorSetInterestKey_eq w key interest
    · exact ⟨_, _, h⟩
    · obtain ⟨status, w', h'⟩ := hset .self fd interest
      exact ⟨status, w', h.trans h'⟩
  | notifyBlock fd memory =>
    show ∃ status w', selectorNotifyBlock w fd memory = .ok (status, w')
    unfold selectorNotifyBlock
    rw [hl]
    cases memory <;> exact ⟨_, _, rfl⟩

/-- The four parts of a selector as one. -/
structure FdSelector.Consistent (s : FdSelector ε δ) : Prop where
  slots : ∀ {i : Nat} {item : Item ε δ}, s.fds[i]? = some item → item.fd = i ∨ item.fd = FD_UNUSED
  greatest : ∀ {i : Nat} {item : Item ε δ}, s.fds[i]? = some item → item.used → i ≤ s.maxFd
  attained : (∃ item, s.fds[s.maxFd]? = some item ∧ item.used) ∨ s.maxFd = 0 ∧ ∀ item ∈ s.fds, ¬ item.used
  readers : ∀ i, i ∈ s.masterR ↔ ∃ item, s.fds[i]? = some item ∧ item.used ∧ item.interest.includes OP_READ
  writers : ∀ i, i ∈ s.masterW ↔ ∃ item, s.fds[i]? = some item ∧ item.used ∧ item.interest.includes OP_WRITE

theorem FdSelector.Valid.consistent {s : FdSelector ε δ} (hv : s.Valid) : s.Consistent := by
  refine ⟨?_, ?_, ?_, ?_, ?_⟩
  · intro i item hitem
    by_cases hu : item.used
    · exact Or.inl (hv.filled (lookup_eq_some.mpr ⟨hitem, hu⟩)).1
    · exact Or.inr (not_not.mp hu)
  · intro i item hitem hu
    exact hv.greatest (lookup_eq_some.mpr ⟨hitem, hu⟩)
  · by_cases h : ∃ item, s.lookup s.maxFd = some item
    · obtain ⟨item, hitem⟩ := h
      exact Or.inl ⟨item, lookup_eq_some.mp hitem⟩
    · have hzero : s.maxFd = 0 := hv.attained.resolve_right h
      refine Or.inr ⟨hzero, fun item hitem hu => h ?_⟩
      obtain ⟨i, hi⟩ := List.mem_iff_getElem?.mp hitem
      have hle := hv.greatest (lookup_eq_some.mpr ⟨hi, hu⟩)
      have hi0 : s.maxFd = i := by omega
      exact ⟨item, hi0 ▸ lookup_eq_some.mpr ⟨hi, hu⟩⟩
  · intro i
    rw [hv.masterR]
    simp only [lookup_eq_some, and_assoc]
  · intro i
    rw [hv.masterW]
    simp only [lookup_eq_some, and_assoc]

/-- Whatever calls are made of the selector that the program creates, each returns, its parts say the same after
each, and a call that does not succeed leaves it as it was. -/
theorem selector_consistent {s : FdSelector ε δ} {struct : Bool} {memory : Option (Nat → Item ε δ)}
    (hnew : selectorNew 1024 struct memory = some s) (calls : List (SelectorCall ε δ)) :
    ∃ w, Runs.run SelectorCall.quietly ⟨s, []⟩ calls = .ok w ∧ w.selector.Consistent ∧
      ∀ call : SelectorCall ε δ, ∃ status w', call.apply .ok w = .ok (status, w') ∧ (status ≠ .success → w' = w) := by
  obtain ⟨hv, hl, -⟩ := selectorNew_valid hnew
  have hc := selectorNew_complete (by decide) hnew
  have hrun := @Runs.run_total _ _ _ SelectorCall.quietly ⟨s, []⟩ calls
    (fun w => w.selector.Valid ∧ w.selector.Complete ∧ w.selector.locked = false) (fun _ => True) (by
      rintro w call ⟨hv, hc, hl⟩ -
      obtain ⟨status, w', h⟩ := call.apply_ok hv hc hl
      obtain ⟨hleads, -⟩ := SelectorCall.apply_leads hv quiet_leads h
      rw [SelectorCall.quietly, h]
      exact ⟨hleads.valid, hleads.complete hc, hleads.locked.trans hl⟩) ⟨hv, hc, hl⟩ (fun _ _ => trivial)
  obtain ⟨w, hw, hv, hc, hl⟩ := hrun.exists_ok
  refine ⟨w, hw, hv.consistent, fun call => ?_⟩
  obtain ⟨status, w', h⟩ := call.apply_ok hv hc hl
  exact ⟨status, w', h, (SelectorCall.apply_leads hv quiet_leads h).2⟩

theorem selector_consistent_reused :
    ∃ s w, selectorNew 1024 true (some fun _ => (blankItem : Item Nat Nat)) = some s ∧
      Runs.run SelectorCall.quietly ⟨s, []⟩
        [.register .self 1023 (some ⟨none, none, none, some 7⟩) OP_READ (some 3) none, .unregister .self 1023] = .ok w ∧
      w.selector.Consistent ∧ ∀ call : SelectorCall Nat Nat, ∃ status w', call.apply .ok w = .ok (status, w') ∧
        (status ≠ .success → w' = w) := by
  obtain ⟨s, hnew⟩ : ∃ s, selectorNew 1024 true (some fun _ => (blankItem : Item Nat Nat)) = some s := ⟨_, rfl⟩
  obtain ⟨w, hw, hc, hcalls⟩ := selector_consistent hnew
    [.register .self 1023 (some ⟨none, none, none, some 7⟩) OP_READ (some 3) none, .unregister .self 1023]
  exact ⟨s, w, hnew, hw, hc, hcalls⟩

end Calling

end Smtpd.Selector
