import Smtpd.SelectorClose
import Smtpd.ServingRounds

namespace Smtpd.Serving

open Checked Runs Selector Leases

/-- Every connection that is not over is registered for one descriptor, whose handler can close it. The others have
been freed. -/
structure Owns (connections : List Key) (w : SelectorWorld Callback Attachment) : Prop where
  valid : w.selector.Valid
  owned : ∀ i, (∃ fd item, w.selector.lookup fd = some item ∧ item.data = some (.connection i)) ↔
    ∃ key, connections[i]? = some key ∧ key.registered = true
  closable : ∀ {fd i item}, w.selector.lookup fd = some item → item.data = some (.connection i) →
    item.handler.any fun handler => handler.handleClose.isSome
  single : ∀ {fd fd' i item item'}, w.selector.lookup fd = some item → w.selector.lookup fd' = some item' →
    item.data = some (.connection i) → item'.data = some (.connection i) → fd = fd'
  allocated : taken w.log = List.range connections.length
  once : (returned w.log).Nodup
  freed : ∀ i, i ∈ returned w.log ↔ ∃ key, connections[i]? = some key ∧ key.registered = false

section Owning

variable {reserved : List Nat} {passive manage : Nat} {s : Server} {w : SelectorWorld Callback Attachment} {fd i : Nat}
  {item : Item Callback Attachment} {connections : List Key}

theorem Coherent.owner (hc : Coherent reserved passive manage s w) (hlook : w.selector.lookup fd = some item)
    (hdata : item.data = some (.connection i)) :
    ∃ key, s.connections[i]? = some key ∧ key.registered = true ∧ key.fd = fd ∧ item = connectionItem i key := by
  cases hc.registered_item hlook with
  | listening hfd =>
    cases hp : s.program with
    | none =>
      rw [listenItem, hp] at hdata
      cases hdata
    | some text =>
      rw [listenItem, hp] at hdata
      cases hdata
  | managing hfd => cases hdata
  | @connected j key hj hreg hfd _ =>
    cases hdata
    exact ⟨key, hj, hreg, hfd, rfl⟩

theorem Coherent.owns (hc : Coherent reserved passive manage s w) : Owns s.connections w where
  valid := hc.valid
  owned i := by
    constructor
    · rintro ⟨fd, item, hlook, hdata⟩
      obtain ⟨key, hi, hreg, -, -⟩ := hc.owner hlook hdata
      exact ⟨key, hi, hreg⟩
    · rintro ⟨key, hi, hreg⟩
      exact ⟨key.fd, connectionItem i key, hc.connected hi hreg, rfl⟩
  closable := by
    intro fd i item hlook hdata
    obtain ⟨key, -, -, -, rfl⟩ := hc.owner hlook hdata
    rfl
  single := by
    intro fd fd' i item item' hlook hlook' hdata hdata'
    obtain ⟨key, hi, -, rfl, -⟩ := hc.owner hlook hdata
    obtain ⟨key', hi', -, rfl, -⟩ := hc.owner hlook' hdata'
    cases hi.symm.trans hi'
    rfl
  allocated := hc.allocated
  once := hc.once
  freed := hc.freed

/-- The connection that is freed when a descriptor is destroyed. -/
def freedAt (o : Option (Item Callback Attachment)) : Option Nat :=
  match o.bind fun item => item.data with
  | some (.connection i) => some i
  | _ => none

theorem freedAt_eq_some {o : Option (Item Callback Attachment)} :
    freedAt o = some i ↔ ∃ item, o = some item ∧ item.data = some (.connection i) := by
  unfold freedAt
  constructor
  · intro h
    split at h
    next j hdata =>
      cases h
      obtain ⟨item, rfl, hitem⟩ := Option.bind_eq_some_iff.mp hdata
      exact ⟨item, rfl, hitem⟩
    · cases h
  · rintro ⟨item, rfl, hdata⟩
    rw [Option.bind_some, hdata]

theorem returned_append (xs ys : List (Leases.Event Int (Option Attachment))) :
    returned (xs ++ ys) = returned xs ++ returned ys := List.filterMap_append

theorem taken_append (xs ys : List (Leases.Event Int (Option Attachment))) : taken (xs ++ ys) = taken xs ++ taken ys :=
  List.filterMap_append

theorem taken_closes (o : Option (Item Callback Attachment)) : taken (closes fd o) = [] := by
  cases o with
  | none => rfl
  | some item =>
    rw [closes]
    split <;> rfl

theorem Owns.returned_closes (h : Owns connections w) (fd : Nat) :
    returned (closes fd (w.selector.lookup fd)) = (freedAt (w.selector.lookup fd)).toList := by
  cases hlook : w.selector.lookup fd with
  | none => rfl
  | some item =>
    cases hdata : item.data with
    | none =>
      have hnone : freedAt (some item) = none := by rw [freedAt, Option.bind_some, hdata]
      rw [hnone, closes, hdata]
      split <;> rfl
    | some a =>
      cases a with
      | program text =>
        have hnone : freedAt (some item) = none := by rw [freedAt, Option.bind_some, hdata]
        rw [hnone, closes, hdata]
        split <;> rfl
      | connection i =>
        have hsome : freedAt (some item) = some i := freedAt_eq_some.mpr ⟨item, rfl, hdata⟩
        rw [hsome, closes, if_pos (h.closable hlook hdata), hdata]
        rfl

theorem Owns.returned_destroyed (h : Owns connections w) (n : Nat) :
    returned ((List.range n).flatMap fun j => closes j (w.selector.lookup j)) =
      (List.range n).filterMap fun j => freedAt (w.selector.lookup j) := by
  induction n with
  | zero => rfl
  | succ n ih =>
    rw [List.range_succ, List.flatMap_append, List.flatMap_singleton, returned_append, ih, h.returned_closes,
      List.filterMap_append]
    rfl

theorem taken_destroyed (n : Nat) : taken ((List.range n).flatMap fun j => closes j (w.selector.lookup j)) = [] := by
  induction n with
  | zero => rfl
  | succ n ih => rw [List.range_succ, List.flatMap_append, List.flatMap_singleton, taken_append, ih, taken_closes]; rfl

/-- When the selector has been destroyed, the `struct smtp` of every connection that there has ever been has been freed,
each once. -/
theorem Owns.destroy (h : Owns connections w) :
    ∃ w', selectorDestroy .ok w = .ok w' ∧ (∀ j, w'.selector.lookup j = none) ∧
      taken w'.log = List.range connections.length ∧ (returned w'.log).Perm (List.range connections.length) := by
  obtain ⟨w', hw', hnone, hlog⟩ := selectorDestroy_closes h.valid
  refine ⟨w', hw', hnone, ?_, ?_⟩
  · rw [hlog, taken_append, taken_destroyed, List.append_nil, h.allocated]
  · have hmem : ∀ i, i ∈ ((List.range (ITEMS_MAX_SIZE + 1)).filterMap fun j => freedAt (w.selector.lookup j)) ↔
        ∃ key, connections[i]? = some key ∧ key.registered = true := by
      intro i
      rw [← h.owned i, List.mem_filterMap]
      constructor
      · rintro ⟨fd, -, hfreed⟩
        obtain ⟨item, hlook, hdata⟩ := freedAt_eq_some.mp hfreed
        exact ⟨fd, item, hlook, hdata⟩
      · rintro ⟨fd, item, hlook, hdata⟩
        have hlt := lookup_lt hlook
        have hsmall := h.valid.small
        exact ⟨fd, List.mem_range.mpr (by omega), freedAt_eq_some.mpr ⟨item, hlook, hdata⟩⟩
    have hnodup : ((List.range (ITEMS_MAX_SIZE + 1)).filterMap fun j => freedAt (w.selector.lookup j)).Nodup := by
      refine List.Nodup.filterMap ?_ List.nodup_range
      intro fd fd' i hfd hfd'
      obtain ⟨item, hlook, hdata⟩ := freedAt_eq_some.mp hfd
      obtain ⟨item', hlook', hdata'⟩ := freedAt_eq_some.mp hfd'
      exact h.single hlook hlook' hdata hdata'
    rw [hlog, returned_append, h.returned_destroyed]
    refine (List.perm_ext_iff_of_nodup (List.nodup_append.mpr ⟨h.once, hnodup, ?_⟩) List.nodup_range).mpr fun i => ?_
    · rintro i hi j hj rfl
      obtain ⟨key, hkey, hover⟩ := (h.freed i).mp hi
      obtain ⟨key', hkey', hlive⟩ := (hmem i).mp hj
      cases hkey.symm.trans hkey'
      rw [hover] at hlive
      cases hlive
    · rw [List.mem_append, h.freed, hmem, List.mem_range]
      constructor
      · rintro (⟨key, hkey, -⟩ | ⟨key, hkey, -⟩)
        · exact (List.getElem?_eq_some_iff.mp hkey).1
        · exact (List.getElem?_eq_some_iff.mp hkey).1
      · intro hlt
        have hget := List.getElem?_eq_getElem hlt
        cases hreg : connections[i].registered with
        | false => exact Or.inl ⟨_, hget, hreg⟩
        | true => exact Or.inr ⟨_, hget, hreg⟩

/-- Before there are connections nothing is owned. -/
theorem Owns.start (hv : w.selector.Valid)
    (hdata : ∀ fd item i, w.selector.lookup fd = some item → item.data ≠ some (.connection i)) (htaken : taken w.log = [])
    (hreturned : returned w.log = []) : Owns [] w := by
  refine ⟨hv, fun i => ?_, fun hlook hi => absurd hi (hdata _ _ _ hlook), fun hlook _ hi => absurd hi (hdata _ _ _ hlook),
    htaken, by rw [hreturned]; exact List.nodup_nil, fun i => ?_⟩
  · refine iff_of_false ?_ fun ⟨_, h, _⟩ => by cases h
    rintro ⟨fd, item, hlook, hi⟩
    exact hdata _ _ _ hlook hi
  · rw [hreturned]
    exact iff_of_false List.not_mem_nil fun ⟨_, h, _⟩ => by cases h

end Owning

/-- What `main` has said and what it owns when it goes to one of its labels. -/
structure Main.Due (m : Main) : Prop where
  told : m.errMsg.isSome = true
  owns : ∀ w, m.selector = some w → Owns m.process.connections w

/-- When `main` returns nothing is registered, and the `struct smtp` of every connection that there has been has been
freed, once. -/
def Exit.Freed (exit : Exit) : Prop :=
  ∀ w, exit.selector = some w → (∀ j, w.selector.lookup j = none) ∧
    taken w.log = List.range exit.process.connections.length ∧
    (returned w.log).Perm (List.range exit.process.connections.length)

section Leaving

variable {m : Main}

theorem Main.Due.close (h : m.Due) (fd : Option Nat) : (m.close fd).Due := by
  cases fd with
  | none => exact h
  | some fd => exact ⟨h.told, h.owns⟩

theorem Main.close_same (m : Main) (fd : Option Nat) : (m.close fd).ss = m.ss ∧
    (m.close fd).process.connections = m.process.connections ∧ (m.close fd).process.tree = m.process.tree := by
  cases fd <;> exact ⟨rfl, rfl, rfl⟩

/-- How `main` returns with what it has. -/
structure Main.Leaves (m : Main) (exit : Exit) : Prop where
  ret : exit.ret = some (if m.ss = .success then 1 else 2)
  freed : exit.Freed
  connections : exit.process.connections = m.process.connections
  tree : exit.process.tree = m.process.tree

theorem Main.Leaves.closed {exit : Exit} {fd : Option Nat} (h : (m.close fd).Leaves exit) : m.Leaves exit := by
  obtain ⟨hss, hconnections, htree⟩ := m.close_same fd
  exact ⟨hss ▸ h.ret, h.freed, h.connections.trans hconnections, h.tree.trans htree⟩

theorem Main.Due.finallyPart (h : m.Due) : ∃ exit, Serving.finallyPart m = .ok exit ∧ m.Leaves exit := by
  have hret : (if m.ss ≠ .success then some 2 else if m.errMsg.isSome then some 1 else m.ret) =
      some (if m.ss = .success then 1 else 2) := by
    by_cases hss : m.ss = .success
    · rw [if_neg (not_not.mpr hss), if_pos h.told, if_pos hss]
    · rw [if_pos hss, if_neg hss]
  unfold Serving.finallyPart
  cases hw : m.selector with
  | none =>
    refine ⟨_, rfl, hret, fun w hw => ?_, rfl, rfl⟩
    cases hw
  | some w =>
    obtain ⟨w', hdestroy, hfreed⟩ := (h.owns w hw).destroy
    dsimp only
    rw [hdestroy]
    refine ⟨_, rfl, hret, fun w hw => ?_, rfl, rfl⟩
    cases hw
    exact hfreed

/-- From every label `main` returns. -/
theorem Main.Due.leave (h : m.Due) (label : Label) : ∃ exit, m.leave label = .ok exit ∧ m.Leaves exit := by
  cases label with
  | «finally» => exact h.finallyPart
  | finallyTcp =>
    obtain ⟨exit, hexit, hleaves⟩ := (h.close m.server).finallyPart
    exact ⟨exit, hexit, hleaves.closed⟩
  | finallyUdp =>
    obtain ⟨exit, hexit, hleaves⟩ := ((h.close m.server6969).close m.server).finallyPart
    exact ⟨exit, hexit, hleaves.closed.closed⟩

end Leaving

end Smtpd.Serving
