import Smtpd.Program

namespace Smtpd.Serving

open Checked Runs Selector Shares Leases

/-- What is registered for the passive socket, for the management socket, and for a connection. -/
def listenItem (fd : Nat) (program : Option (List UInt8)) : Item Callback Attachment :=
  { fd, interest := OP_READ, handler := some smtp, data := program.map .program }

def manageItem (fd : Nat) : Item Callback Attachment := { fd, interest := OP_READ, handler := some udp, data := none }

def connectionItem (i : Nat) (key : Key) : Item Callback Attachment :=
  { fd := key.fd, interest := op key.interest, handler := some smtpHandler, data := some (.connection i) }

/-- The connections whose `struct smtp` is registered, and those whose `struct smtp` is freed, one after another. -/
def taken (log : List (Leases.Event Int (Option Attachment))) : List Nat :=
  log.filterMap fun
    | .taken _ (some (.connection i)) => some i
    | _ => none

def returned (log : List (Leases.Event Int (Option Attachment))) : List Nat :=
  log.filterMap fun
    | .returned _ (some (.connection i)) => some i
    | _ => none

/-- The selector knows the two sockets and the connections of the server, each for what it waits for, and nothing
else. It has freed the `struct smtp` of every connection that is over, once, and of no other. -/
structure Coherent (reserved : List Nat) (passive manage : Nat) (s : Server) (w : SelectorWorld Callback Attachment) :
    Prop where
  valid : w.selector.Valid
  complete : w.selector.Complete
  jobs : w.selector.resolutionJobs = []
  unlocked : w.selector.locked = false
  holds : s.Holds reserved
  grown : s.Grown
  passive_reserved : passive ∈ reserved
  manage_reserved : manage ∈ reserved
  listening : w.selector.lookup passive = some (listenItem passive s.program)
  managing : w.selector.lookup manage = some (manageItem manage)
  connected : ∀ {i : Nat} {key : Key}, s.connections[i]? = some key → key.registered = true →
    w.selector.lookup key.fd = some (connectionItem i key)
  only : ∀ {fd item}, w.selector.lookup fd = some item → fd = passive ∨ fd = manage ∨
    ∃ (i : Nat) (key : Key), s.connections[i]? = some key ∧ key.registered = true ∧ key.fd = fd
  allocated : taken w.log = List.range s.connections.length
  once : (returned w.log).Nodup
  freed : ∀ i, i ∈ returned w.log ↔ ∃ key, s.connections[i]? = some key ∧ key.registered = false

section Facts

variable {reserved : List Nat} {passive manage : Nat} {s : Server} {w : SelectorWorld Callback Attachment} {fd i : Nat}
  {item : Item Callback Attachment} {key : Key}

theorem mem_descriptors (hreg : key.registered = true) : key.fd ∈ key.descriptors := by
  rw [Key.descriptors, if_pos hreg]
  exact List.mem_cons_self

theorem descriptor_held (reserved : List Nat) (hi : s.connections[i]? = some key) :
    key.descriptors ∈ reserved :: s.connections.map Key.descriptors :=
  List.mem_of_getElem? (held_get reserved hi)

/-- Whatever is registered is open. -/
theorem Coherent.is_open (hc : Coherent reserved passive manage s w) (h : w.selector.lookup fd = some item) : fd ∈ s.fds := by
  rcases hc.only h with rfl | rfl | ⟨i, key, hi, hreg, rfl⟩
  · exact hc.holds.mem List.mem_cons_self hc.passive_reserved
  · exact hc.holds.mem List.mem_cons_self hc.manage_reserved
  · exact hc.holds.mem (descriptor_held reserved hi) (mem_descriptors hreg)

/-- The sockets of the server are not those of a connection. -/
theorem Coherent.not_reserved (hc : Coherent reserved passive manage s w) (hi : s.connections[i]? = some key)
    (hreg : key.registered = true) (hfd : fd ∈ reserved) : fd ≠ key.fd := by
  rintro rfl
  have hfirst : (reserved :: s.connections.map Key.descriptors)[0]? = some reserved := rfl
  exact hc.holds.get_disjoint hfirst (held_get reserved hi) (Nat.succ_ne_zero i).symm hfd (mem_descriptors hreg)

theorem Coherent.fd_ne (hc : Coherent reserved passive manage s w) {j : Nat} {other : Key}
    (hi : s.connections[i]? = some key) (hreg : key.registered = true) (hj : s.connections[j]? = some other)
    (hreg' : other.registered = true) (hne : i ≠ j) : key.fd ≠ other.fd := by
  intro he
  have hdisjoint := hc.holds.get_disjoint (held_get reserved hi) (held_get reserved hj) (Nat.succ_ne_succ_iff.mpr hne)
  exact hdisjoint (mem_descriptors hreg) (he ▸ mem_descriptors hreg')

/-- A registered connection waits for one operation. -/
theorem Coherent.waits (hc : Coherent reserved passive manage s w) (hi : s.connections[i]? = some key)
    (hreg : key.registered = true) : key.interest = .read ∨ key.interest = .write := by
  obtain ⟨key₀, es, ha, hrun⟩ := hc.grown key (List.mem_of_getElem? hi)
  have hagrees := accepted_agrees ha hrun
  have hne : key.interest ≠ .noop := hagrees.interest ▸ hagrees.registered.mp hreg
  cases hinterest : key.interest with
  | noop => exact absurd hinterest hne
  | read => exact Or.inl rfl
  | write => exact Or.inr rfl

theorem op_includes_read {i : Interest} : (op i).includes OP_READ = true ↔ i = .read := by
  cases i <;> decide

theorem op_includes_write {i : Interest} : (op i).includes OP_WRITE = true ↔ i = .write := by
  cases i <;> decide

theorem programOf_map (program : Option (List UInt8)) : programOf (program.map .program) = program := by
  cases program <;> rfl

theorem interestOf_op (i : Interest) : interestOf (op i) = i := by
  cases i <;> decide

end Facts

/-- An event that comes about by a callback: the system gives a new client the lowest descriptor that is free, and a
connection is called back for what it waits for. The files may change in between. -/
def Called (s : Server) : ServerEvent → Prop
  | .accept _ outcome => ∀ client ∈ outcome.client, client = lowestFree s.fds
  | .ready i op _ => ∃ key, s.connections[i]? = some key ∧ key.Heeds op
  | .datagram _ => True
  | .elsewhere _ fds => fds = s.fds
  | .setMaxUsers _ | .setNewStatus _ => False

theorem Called.undisturbed {s : Server} {e : ServerEvent} (h : Called s e) : e.Undisturbed s := by
  cases e with
  | accept env outcome =>
    intro client hclient
    rw [h client hclient]
    exact lowestFree_not_mem s.fds
  | elsewhere tree fds => exact h
  | ready | datagram => exact trivial
  | setMaxUsers | setNewStatus => cases h

/-- What a callback for a descriptor does: one step of the server, and as much as that takes of the selector. -/
structure Advances (reserved : List Nat) (passive manage : Nat) (s s' : Server) (w w' : SelectorWorld Callback Attachment)
    (fd : Nat) (e : ServerEvent) : Prop where
  coherent : Coherent reserved passive manage s' w'
  beside : Beside w.selector w'.selector
  others : ∀ j it, j ≠ fd → w.selector.lookup j = some it → w'.selector.lookup j = some it
  called : Called s e
  step : serverStep s e = .ok s'

section Turns

variable {reserved : List Nat} {passive manage : Nat} {s s' : Server} {w w' : SelectorWorld Callback Attachment} {i : Nat}
  {key key' key₁ key₂ : Key} {env : Env} {r : Ready} {st next : SmtpState}

theorem Key.Passes.fd (h : key.Passes env st next key₁ key₂ key') (hk : key.Agrees st) : key'.fd = key.fd := by
  have hreg₂ := (changeState_turned (h.turn.turned hk h.registered) h.hooks).registered
  have hfd₂ := (changeState_same_files h.hooks).1.trans h.turn.fd
  rcases settle_eq hreg₂ h.settled with ⟨-, rfl⟩ | ⟨-, rfl⟩
  · exact hfd₂
  · exact hfd₂

theorem sessionStep_fd (hk : key.Agrees key.state) (h : sessionStep key (.ready r env) = .ok key') : key'.fd = key.fd := by
  rcases sessionStep_turn hk.sound hk.output h with
    ⟨op, env, -, -, rfl⟩ | ⟨globals, tree, fds, he, -⟩ | ⟨op, env, next, key₁, key₂, -, -, hp⟩
  · rfl
  · cases he
  · exact Key.Passes.fd hp hk

theorem get_set {α : Type} {l : List α} {c j : Nat} {a b : α} (h : (l.set c a)[j]? = some b) :
    j = c ∧ b = a ∨ j ≠ c ∧ l[j]? = some b := by
  by_cases hj : j = c
  · subst hj
    obtain ⟨hlt, hb⟩ := List.getElem?_eq_some_iff.mp h
    rw [List.getElem_set_self] at hb
    exact Or.inl ⟨rfl, hb.symm⟩
  · rw [List.getElem?_set_ne (Ne.symm hj)] at h
    exact Or.inr ⟨hj, h⟩

/-- The item of a connection follows the connection. -/
def itemOf (i : Nat) (key : Key) : Option (Item Callback Attachment) :=
  if key.registered then some (connectionItem i key) else none

theorem taken_closing {log : List (Leases.Event Int (Option Attachment))} {fd : Int} {i : Nat} {b : Bool} :
    taken (log ++ if b then [] else [.returned fd (some (.connection i))]) = taken log := by
  rw [taken, List.filterMap_append]
  cases b <;> exact List.append_nil _

theorem returned_closing {log : List (Leases.Event Int (Option Attachment))} {fd : Int} {i : Nat} {b : Bool} :
    returned (log ++ if b then [] else [.returned fd (some (.connection i))]) =
      returned log ++ if b then [] else [i] := by
  rw [returned, List.filterMap_append]
  cases b <;> rfl

/-- What the server and the selector have to agree on after an event of a connection. -/
theorem Coherent.connection (hc : Coherent reserved passive manage s w) (hi : s.connections[i]? = some key)
    (hheeds : key.Heeds r) (hsession : sessionStep (s.sync key) (.ready r env) = .ok key')
    (hchanges : Changes w.selector w'.selector key.fd (itemOf i key')) (hbeside : Beside w.selector w'.selector)
    (hlog : w'.log = w.log ++ if key'.registered then [] else [.returned key.fd (some (.connection i))]) :
    Advances reserved passive manage s { s with
        globals := key'.globals
        tree := key'.os.tree
        fds := key'.os.fds
        connections := s.connections.set i key' } w w' key.fd (.ready i r env) := by
  obtain ⟨key₀, es, ha, hrun⟩ := hc.grown.sync hi
  have hsame : key'.fd = (s.sync key).fd := sessionStep_fd (accepted_agrees ha hrun) hsession
  have hfd : key'.fd = key.fd := hsame
  have hstep : serverStep s (.ready i r env) = .ok { s with
      globals := key'.globals
      tree := key'.os.tree
      fds := key'.os.fds
      connections := s.connections.set i key' } := by
    simp only [serverStep, hi, hsession, ok_bind]
  have hlook := hchanges.lookup
  have hothers : ∀ j it, j ≠ key.fd → w.selector.lookup j = some it → w'.selector.lookup j = some it := by
    intro j it hj hit
    rw [hlook, Function.update_of_ne hj]
    exact hit
  have hcalled : Called s (.ready i r env) := ⟨key, hi, hheeds⟩
  have hreg := hheeds.1
  have hlive : i ∉ returned w.log := by
    rw [hc.freed]
    rintro ⟨other, hother, hover⟩
    cases hi.symm.trans hother
    rw [hreg] at hover
    cases hover
  refine ⟨⟨hchanges.valid, hchanges.complete hc.complete, hbeside.jobs.trans hc.jobs,
    hchanges.locked.trans hc.unlocked, serverStep_holds hc.grown hc.holds hcalled.undisturbed hstep,
    serverStep_grown hc.grown hstep, hc.passive_reserved, hc.manage_reserved, ?_, ?_, ?_, ?_, ?_, ?_, ?_⟩, hbeside,
    hothers, hcalled, hstep⟩
  · exact hothers _ _ (hc.not_reserved hi hreg hc.passive_reserved) hc.listening
  · exact hothers _ _ (hc.not_reserved hi hreg hc.manage_reserved) hc.managing
  · intro j other hj hother
    rcases get_set hj with ⟨rfl, rfl⟩ | ⟨hne, hj⟩
    · rw [hfd, hlook, Function.update_self, itemOf, if_pos hother]
    · exact hothers _ _ (hc.fd_ne hj hother hi hreg hne) (hc.connected hj hother)
  · intro fd item hitem
    rw [hlook] at hitem
    by_cases hsame : fd = key.fd
    · subst hsame
      rw [Function.update_self, itemOf] at hitem
      split at hitem
      next hreg' =>
        have hlt := (List.getElem?_eq_some_iff.mp hi).1
        exact Or.inr (Or.inr ⟨i, key', List.getElem?_set_self hlt, hreg', hfd⟩)
      · cases hitem
    · rw [Function.update_of_ne hsame] at hitem
      rcases hc.only hitem with hp | hm | ⟨j, other, hj, hother, hfdj⟩
      · exact Or.inl hp
      · exact Or.inr (Or.inl hm)
      · have hne : i ≠ j := by
          rintro rfl
          cases hi.symm.trans hj
          exact hsame hfdj.symm
        refine Or.inr (Or.inr ⟨j, other, ?_, hother, hfdj⟩)
        rw [List.getElem?_set_ne hne]
        exact hj
  · rw [hlog, taken_closing, hc.allocated, List.length_set]
  · rw [hlog, returned_closing]
    split
    · rw [List.append_nil]
      exact hc.once
    · exact List.nodup_append.mpr ⟨hc.once, List.nodup_singleton i, fun a ha b hb he => by
        rw [List.mem_singleton.mp hb] at he
        exact hlive (he ▸ ha)⟩
  · intro j
    rw [hlog, returned_closing, List.mem_append, hc.freed]
    have hlt := (List.getElem?_eq_some_iff.mp hi).1
    by_cases hj : j = i
    · subst hj
      rw [List.getElem?_set_self hlt, hi]
      by_cases hreg' : key'.registered = true
      · simp [hreg, hreg']
      · simp [hreg, hreg']
    · rw [List.getElem?_set_ne (Ne.symm hj)]
      split
      · simp
      · simp [hj]

/-- The `struct smtp` that the selector passes on is that of a connection that is not over. -/
theorem Coherent.smtpCallback_eq {d : Dispatch Callback Attachment} {handle : Env → Key → Result Key}
    (hc : Coherent reserved passive manage s w) (hi : s.connections[i]? = some key) (hheeds : key.Heeds r)
    (hd : d.key = { s := .self, fd := key.fd, data := some (.connection i) }) (hselector : d.selector = w.selector)
    (hhandle : handle env (s.sync key) = sessionStep (s.sync key) (.ready r env)) :
    Serving.smtpCallback handle env s d = sessionStep (s.sync key) (.ready r env) >>= fun key' =>
      .ok ({ s with
        globals := key'.globals
        tree := key'.os.tree
        fds := key'.os.fds
        connections := s.connections.set i key' }, callsOf d.key key') := by
  have hreg := hheeds.1
  have hattach : attach s d key = s.sync key := by
    unfold attach
    rw [hselector, hd]
    dsimp only
    rw [Int.toNat_natCast, hc.connected hi hreg]
    show ({ s.sync key with fd := key.fd, registered := true, interest := interestOf (op key.interest) } : Key) = s.sync key
    rw [interestOf_op, ← hreg]
    rfl
  have hfound : s.connections[i]?.filter (fun key => key.registered) = some key := by
    rw [hi, Option.filter_some, if_pos hreg]
  unfold Serving.smtpCallback
  rw [hd]
  dsimp only
  rw [hfound, demand_some, ok_bind, hattach, hhandle]

theorem Coherent.smtpCallback_fault {d : Dispatch Callback Attachment} {handle : Env → Key → Result Key} {fault : Fault}
    (hc : Coherent reserved passive manage s w) (hi : s.connections[i]? = some key) (hheeds : key.Heeds r)
    (hd : d.key = { s := .self, fd := key.fd, data := some (.connection i) }) (hselector : d.selector = w.selector)
    (hhandle : handle env (s.sync key) = sessionStep (s.sync key) (.ready r env))
    (h : Serving.smtpCallback handle env s d = .error fault) : serverStep s (.ready i r env) = .error fault := by
  rw [hc.smtpCallback_eq hi hheeds hd hselector hhandle] at h
  simp only [serverStep, hi]
  rw [error_of_shaped h]
  rfl

/-- The callback of a connection, and the calls it makes of the selector. -/
theorem Coherent.smtpCallback {d : Dispatch Callback Attachment} {acts : List (SelectorAct Callback Attachment)}
    {handle : Env → Key → Result Key} (hc : Coherent reserved passive manage s w) (hi : s.connections[i]? = some key)
    (hheeds : key.Heeds r) (hd : d.key = { s := .self, fd := key.fd, data := some (.connection i) })
    (hselector : d.selector = w.selector)
    (hhandle : handle env (s.sync key) = sessionStep (s.sync key) (.ready r env))
    (h : Serving.smtpCallback handle env s d = .ok (s', acts)) :
    ∃ w', performAll w acts = .ok w' ∧ Advances reserved passive manage s s' w w' key.fd (.ready i r env) := by
  have hlook := hc.connected hi hheeds.1
  rw [hc.smtpCallback_eq hi hheeds hd hselector hhandle, hd] at h
  obtain ⟨key', hsession, h⟩ := bind_ok h
  cases h
  have hcall : ∀ act : SelectorAct Callback Attachment, ∀ w', act.perform w = .ok w' → performAll w [act] = .ok w' := by
    intro act w' hact
    rw [performAll_cons, hact, ok_bind, performAll]
  unfold callsOf
  by_cases hreg' : key'.registered
  · obtain ⟨w', hset, hchanges, hlog, hbeside⟩ := setInterest_found hc.valid hlook (op key'.interest)
    have hitem : itemOf i key' = some { connectionItem i key with interest := op key'.interest } := by
      obtain ⟨key₀, es, ha, hrun⟩ := hc.grown.sync hi
      have hfd : key'.fd = (s.sync key).fd := sessionStep_fd (accepted_agrees ha hrun) hsession
      have hfd : key'.fd = key.fd := hfd
      rw [itemOf, if_pos hreg', connectionItem, connectionItem, hfd]
    have hadvances := hc.connection hi hheeds hsession (hitem ▸ hchanges) hbeside
      (by rw [if_pos hreg', List.append_nil, hlog])
    refine ⟨w', ?_, hadvances⟩
    rw [if_pos hreg']
    apply hcall
    have hfdset : Selector.selectorSetInterestKey w (some { s := .self, fd := key.fd, data := some (.connection i) })
        (op key'.interest) = Selector.selectorSetInterest w .self key.fd (op key'.interest) := by
      have hmax : ITEMS_MAX_SIZE = FD_SETSIZE := rfl
      have hlt := (hc.valid.filled hlook).2.1
      have hvalid : ¬ INVALID_FD (key.fd : Int) := by
        unfold INVALID_FD
        omega
      exact if_neg (not_args hvalid)
    rw [perform_make, SelectorCall.apply, hfdset, hset]
    rfl
  · obtain ⟨w', hunregister, hchanges, hlog, hbeside⟩ := unregister_found hc.valid hlook rfl
    have hitem : itemOf i key' = none := if_neg hreg'
    have hadvances := hc.connection hi hheeds hsession (hitem ▸ hchanges) hbeside (by rw [if_neg hreg', hlog]; rfl)
    refine ⟨w', ?_, hadvances⟩
    rw [if_neg hreg']
    apply hcall
    rw [perform_make, SelectorCall.apply, performAll_nil, hunregister]
    rfl

theorem serverStep_program {e : ServerEvent} (h : serverStep s e = .ok s') : s'.program = s.program := by
  cases e with
  | accept env outcome =>
    obtain ⟨⟨globals, os, r⟩, -, h⟩ := bind_ok h
    cases h
    rfl
  | ready i op env =>
    rcases serverStep_ready h with ⟨-, rfl⟩ | ⟨key, key', -, -, rfl⟩
    · rfl
    · rfl
  | datagram e =>
    obtain ⟨management, -, h⟩ := bind_ok h
    cases h
    rfl
  | setMaxUsers | setNewStatus | elsewhere =>
    cases h
    rfl

/-- What does not touch the connections leaves the agreement as it is. -/
theorem Coherent.keep {fd : Nat} {e : ServerEvent} (hc : Coherent reserved passive manage s w)
    (hcalled : Called s e)
    (hstep : serverStep s e = .ok s') (hconnections : s'.connections = s.connections) :
    Advances reserved passive manage s s' w w fd e := by
  refine ⟨⟨hc.valid, hc.complete, hc.jobs, hc.unlocked, serverStep_holds hc.grown hc.holds hcalled.undisturbed hstep,
    serverStep_grown hc.grown hstep, hc.passive_reserved, hc.manage_reserved, ?_, hc.managing, ?_, ?_, ?_, hc.once, ?_⟩,
    Beside.refl _, fun _ _ _ h => h, hcalled, hstep⟩
  · rw [serverStep_program hstep]
    exact hc.listening
  · intro i key hi
    exact hc.connected (hconnections ▸ hi)
  · intro fd item hitem
    rw [hconnections]
    exact hc.only hitem
  · rw [hconnections]
    exact hc.allocated
  · intro i
    rw [hconnections]
    exact hc.freed i

/-- A new connection is known to the selector from the start. -/
theorem Coherent.joined {fd : Nat} {e : ServerEvent} (hc : Coherent reserved passive manage s w)
    (hcalled : Called s e)
    (hstep : serverStep s e = .ok s') (hconnections : s'.connections = s.connections ++ [key])
    (hlook : w.selector.lookup key.fd = none)
    (hchanges : Changes w.selector w'.selector key.fd (some (connectionItem s.connections.length key)))
    (hreg : key.registered = true) (hbeside : Beside w.selector w'.selector)
    (hlog : w'.log = w.log ++ [.taken key.fd (some (.connection s.connections.length))]) :
    Advances reserved passive manage s s' w w' fd e := by
  have hothers : ∀ j it, w.selector.lookup j = some it → w'.selector.lookup j = some it := by
    intro j it hit
    have hne : j ≠ key.fd := by
      rintro rfl
      cases hlook.symm.trans hit
    rw [hchanges.lookup, Function.update_of_ne hne]
    exact hit
  have hsame : returned w'.log = returned w.log := by
    rw [hlog, returned, List.filterMap_append]
    exact List.append_nil _
  have hlast : s'.connections[s.connections.length]? = some key := by
    rw [hconnections, List.getElem?_append_right le_rfl, Nat.sub_self]
    rfl
  refine ⟨⟨hchanges.valid, hchanges.complete hc.complete, hbeside.jobs.trans hc.jobs, hchanges.locked.trans hc.unlocked,
    serverStep_holds hc.grown hc.holds hcalled.undisturbed hstep, serverStep_grown hc.grown hstep, hc.passive_reserved,
    hc.manage_reserved, ?_, hothers _ _ hc.managing, ?_, ?_, ?_, ?_, ?_⟩, hbeside, fun j it _ => hothers j it, hcalled,
    hstep⟩
  · rw [serverStep_program hstep]
    exact hothers _ _ hc.listening
  · intro i other hi hother
    rw [hconnections] at hi
    rcases Nat.lt_or_ge i s.connections.length with hlt | hge
    · rw [List.getElem?_append_left hlt] at hi
      exact hothers _ _ (hc.connected hi hother)
    · rw [List.getElem?_append_right hge, List.getElem?_singleton] at hi
      split at hi
      next hzero =>
        cases hi
        obtain rfl : i = s.connections.length := by omega
        rw [hchanges.lookup, Function.update_self]
      · cases hi
  · intro fd item hitem
    rw [hchanges.lookup] at hitem
    by_cases hsame : fd = key.fd
    · exact Or.inr (Or.inr ⟨_, key, hlast, hreg, hsame.symm⟩)
    · rw [Function.update_of_ne hsame] at hitem
      rcases hc.only hitem with hp | hm | ⟨j, other, hj, hother, hfdj⟩
      · exact Or.inl hp
      · exact Or.inr (Or.inl hm)
      · refine Or.inr (Or.inr ⟨j, other, ?_, hother, hfdj⟩)
        rw [hconnections, List.getElem?_append_left (List.getElem?_eq_some_iff.mp hj).1]
        exact hj
  · have hsplit : taken w'.log = taken w.log ++ [s.connections.length] := by
      rw [hlog, taken, List.filterMap_append]
      rfl
    rw [hsplit, hc.allocated, hconnections, List.length_append, List.length_singleton, List.range_succ]
  · rw [hsame]
    exact hc.once
  · intro j
    rw [hsame, hc.freed, hconnections]
    rcases Nat.lt_or_ge j s.connections.length with hlt | hge
    · rw [List.getElem?_append_left hlt]
    · rw [List.getElem?_append_right hge, List.getElem?_singleton, List.getElem?_eq_none hge]
      refine iff_of_false (fun ⟨_, h, _⟩ => by cases h) ?_
      rintro ⟨other, hother, hover⟩
      split at hother
      · cases hother
        rw [hreg] at hover
        cases hover
      · cases hother

theorem acceptCallback_eq {d : Dispatch Callback Attachment} {turn : Turn}
    (hd : d.key = { s := .self, fd := passive, data := s.program.map .program }) :
    Serving.acceptCallback turn s d = serverStep s (.accept turn.env (acceptOutcome turn s d.selector)) >>= fun s' =>
      .ok (s', [.make (registration s turn) []]) := by
  unfold Serving.acceptCallback
  rw [hd, programOf_map, serverStep]
  cases smtpPassiveAccept turn.env (acceptOutcome turn s d.selector) s.program s.globals
    { tree := s.tree, fds := s.fds, trace := [] } <;> rfl

theorem acceptCallback_called (turn : Turn) (s : Server) (selector : FdSelector Callback Attachment) :
    Called s (.accept turn.env (acceptOutcome turn s selector)) := by
  intro client hclient
  rw [acceptOutcome] at hclient
  split at hclient
  · cases hclient
    rfl
  · cases hclient

/-- The callback of the passive socket registers the client that it accepts, or else closes it. -/
theorem Coherent.acceptCallback {d : Dispatch Callback Attachment} {acts : List (SelectorAct Callback Attachment)}
    {turn : Turn} (hc : Coherent reserved passive manage s w)
    (hd : d.key = { s := .self, fd := passive, data := s.program.map .program }) (hselector : d.selector = w.selector)
    (h : Serving.acceptCallback turn s d = .ok (s', acts)) :
    ∃ w', performAll w acts = .ok w' ∧
      Advances reserved passive manage s s' w w' passive (.accept turn.env (acceptOutcome turn s d.selector)) := by
  have hfree : lowestFree s.fds ∉ s.fds := lowestFree_not_mem s.fds
  have hlook : w.selector.lookup (lowestFree s.fds) = none := by
    by_contra hne
    obtain ⟨item, hitem⟩ := Option.ne_none_iff_exists'.mp hne
    exact hfree (hc.is_open hitem)
  have hcalled := acceptCallback_called turn s d.selector
  rw [acceptCallback_eq hd] at h
  obtain ⟨outcome, houtcome⟩ : ∃ outcome, outcome = acceptOutcome turn s d.selector := ⟨_, rfl⟩
  rw [← houtcome] at h hcalled ⊢
  obtain ⟨s₁, hstep, h⟩ := bind_ok h
  cases h
  have hroom : ¬ INVALID_FD (lowestFree s.fds : Int) → (some smtpHandler).isSome → SelectorArg.self = .self →
      ((lowestFree s.fds : Nat) : Int) ≠ w.selector.fds.length := by
    intro hfd _ _
    have hmax : ITEMS_MAX_SIZE = FD_SETSIZE := rfl
    unfold INVALID_FD at hfd
    rw [hc.complete.length]
    omega
  obtain ⟨status, w', hregister, hcases⟩ := @selectorRegister_ok _ _ w .self (lowestFree s.fds) (some smtpHandler)
    OP_WRITE (some (.connection s.connections.length)) turn.table hc.valid hroom
  have hbeside := selectorRegister_beside hc.complete hregister
  obtain ⟨new, -, -, hanswer⟩ := selectorRegister_adds hregister
  have hregisters : outcome.registers = (status = .success) := by
    rw [houtcome, acceptOutcome, registration, SelectorCall.apply, hselector, hanswer]
    exact decide_eq_true_eq
  have hperform : performAll w [.make (registration s turn) []] = .ok w' := by
    rw [performAll_cons, perform_make, registration, SelectorCall.apply, hregister]
    rfl
  refine ⟨w', hperform, ?_⟩
  obtain ⟨client, hclient, -, hconnections⟩ := serverStep_accept hstep
  obtain rfl : client = lowestFree s.fds := hcalled client hclient
  obtain ⟨hr, hsame⟩ | ⟨hr, key, os, hmore, -, hw⟩ := hconnections
  · have hstatus : status ≠ .success := by
      rw [ne_eq, ← hregisters, hr]
      exact Bool.false_ne_true
    obtain ⟨-, rfl⟩ | ⟨hsuccess, -⟩ := hcases
    · exact hc.keep hcalled hstep hsame
    · exact absurd hsuccess hstatus
  · obtain ⟨hne, -⟩ | ⟨-, i, hi, -, hchanges, hlog⟩ := hcases
    · exact absurd (hregisters ▸ hr) hne
    · have hfd : key.fd = lowestFree s.fds := hw.fd
      obtain rfl : lowestFree s.fds = i := Int.natCast_inj.mp hi
      have hitem : connectionItem s.connections.length key =
          { fd := lowestFree s.fds
            interest := OP_WRITE
            handler := some smtpHandler
            data := some (.connection s.connections.length) } := by
        rw [connectionItem, hw.interest, hfd]
        rfl
      refine hc.joined hcalled hstep hmore (hfd ▸ hlook) ?_ hw.registered hbeside (by rw [hfd]; exact hlog)
      rw [hitem, hfd]
      exact hchanges

/-- A datagram is none of the selector's business. -/
theorem Coherent.udpCallback {e : UdpEvent} (hc : Coherent reserved passive manage s w)
    (h : serverStep s (.datagram e) = .ok s') : Advances reserved passive manage s s' w w manage (.datagram e) := by
  have hcalled : Called s (.datagram e) := trivial
  have hconnections : s'.connections = s.connections := by
    obtain ⟨management, -, h⟩ := bind_ok h
    cases h
    rfl
  exact hc.keep hcalled h hconnections

/-- Other programs change the files. -/
theorem Coherent.files (hc : Coherent reserved passive manage s w) (fd : Nat) (tree : FileSystem.Tree) :
    Advances reserved passive manage s { s with tree } w w fd (.elsewhere tree s.fds) :=
  hc.keep (e := .elsewhere tree s.fds) rfl rfl rfl

end Turns

end Smtpd.Serving
