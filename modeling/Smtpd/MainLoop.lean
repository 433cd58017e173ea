import Smtpd.Lifetime

namespace Smtpd.Serving

open Checked Runs Selector Leases Shares

section SettingUp

variable {a : Setup} {transformations : Option (List UInt8)} {process : Server} {m : Main} {passive manage : Nat}

/-- The sockets that `main` opens. -/
structure Opened (process : Server) (m : Main) : Prop where
  selector : m.selector = none
  ss : m.ss = .success
  connections : m.process.connections = process.connections
  nodup : m.process.fds.Nodup
  sockets : ∀ {passive manage}, m.server = some passive → m.server6969 = some manage →
    passive ∈ m.process.fds ∧ manage ∈ m.process.fds

theorem socket_fds (m : Main) (succeeds : Bool) (h : m.process.fds.Nodup) :
    (m.socket succeeds).2.process.fds.Nodup ∧ (∀ fd ∈ m.process.fds, fd ∈ (m.socket succeeds).2.process.fds) ∧
      ∀ fd, (m.socket succeeds).1 = some fd → fd ∈ (m.socket succeeds).2.process.fds := by
  cases succeeds with
  | false =>
    refine ⟨h, fun _ hfd => hfd, fun fd hfd => ?_⟩
    cases hfd
  | true =>
    refine ⟨List.nodup_cons.mpr ⟨lowestFree_not_mem _, h⟩, fun _ hfd => List.mem_cons_of_mem _ hfd, fun fd hfd => ?_⟩
    cases hfd
    exact List.mem_cons_self

theorem socket_same (m : Main) (succeeds : Bool) :
    (m.socket succeeds).2.selector = m.selector ∧ (m.socket succeeds).2.ss = m.ss ∧
      (m.socket succeeds).2.process.connections = m.process.connections := by
  cases succeeds <;> exact ⟨rfl, rfl, rfl⟩

theorem openSockets_opened (a : Setup) (hnodup : process.fds.Nodup) : Opened process (openSockets a process) := by
  obtain ⟨m₀, hm₀⟩ : ∃ m₀ : Main, m₀ =
      ({ errMsg := none, ss := .success, server := none, server6969 := none, selector := none, ret := none, process } :
        Main).close (some 0) := ⟨_, rfl⟩
  have hopen : openSockets a process = { (((m₀.socket a.socket).2).socket a.socket6969).2 with
      server := (m₀.socket a.socket).1
      server6969 := (((m₀.socket a.socket).2).socket a.socket6969).1 } := by
    rw [hm₀]
    rfl
  have h₀ : m₀.process.fds.Nodup := by
    rw [hm₀]
    exact hnodup.erase 0
  obtain ⟨h₁, -, hmem₁⟩ := socket_fds m₀ a.socket h₀
  obtain ⟨h₂, hkept, hmem₂⟩ := socket_fds _ a.socket6969 h₁
  obtain ⟨hsel₁, hss₁, hconn₁⟩ := socket_same m₀ a.socket
  obtain ⟨hsel₂, hss₂, hconn₂⟩ := socket_same (m₀.socket a.socket).2 a.socket6969
  rw [hopen]
  refine ⟨hsel₂.trans (hsel₁.trans ?_), hss₂.trans (hss₁.trans ?_), hconn₂.trans (hconn₁.trans ?_), h₂, fun hp hm => ?_⟩
  · rw [hm₀]
    rfl
  · rw [hm₀]
    rfl
  · rw [hm₀]
    rfl
  · exact ⟨hkept _ (hmem₁ _ hp), hmem₂ _ hm⟩

/-- What is registered for the sockets is not a connection. -/
theorem taken_program (fd : Int) (program : Option (List UInt8)) : taken [.taken fd (program.map .program)] = [] := by
  cases program <;> rfl

/-- A server that has been set up agrees with its selector. -/
theorem coherent_start {s : Server} {w : SelectorWorld Callback Attachment} (hv : w.selector.Valid)
    (hc : w.selector.Complete) (hjobs : w.selector.resolutionJobs = []) (hlocked : w.selector.locked = false)
    (h₀ : s.connections = []) (hnodup : s.fds.Nodup) (hp : passive ∈ s.fds) (hm : manage ∈ s.fds) (hne : passive ≠ manage)
    (hlook : w.selector.lookup = Function.update (Function.update (fun _ => none) passive
      (some (listenItem passive s.program))) manage (some (manageItem manage)))
    (htaken : taken w.log = []) (hreturned : returned w.log = []) : Coherent s.fds passive manage s w := by
  refine ⟨hv, hc, hjobs, hlocked, ⟨hnodup, ?_⟩, ?_, hp, hm, ?_, ?_, ?_, ?_, ?_, ?_, ?_⟩
  · rw [h₀, List.map_nil, List.flatten_cons, List.flatten_nil, List.append_nil]
  · intro key hkey
    rw [h₀] at hkey
    cases hkey
  · rw [hlook, Function.update_of_ne hne, Function.update_self]
  · rw [hlook, Function.update_self]
  · intro i key hi
    rw [h₀] at hi
    cases hi
  · intro fd item hitem
    rw [hlook] at hitem
    by_cases hfd : fd = manage
    · exact Or.inr (Or.inl hfd)
    · rw [Function.update_of_ne hfd] at hitem
      by_cases hfd' : fd = passive
      · exact Or.inl hfd'
      · rw [Function.update_of_ne hfd'] at hitem
        cases hitem
  · rw [htaken, h₀]
    rfl
  · rw [hreturned]
    exact List.nodup_nil
  · intro i
    rw [hreturned, h₀]
    exact iff_of_false List.not_mem_nil fun ⟨_, h, _⟩ => by cases h

/-- The selector of a server that has been set up, or what `main` goes with to its end. -/
theorem registerSockets_ok (hopened : Opened process m) (h₀ : process.connections = []) (hp : m.server = some passive)
    (hm : m.server6969 = some manage) :
    (∃ label m', registerSockets a transformations m passive manage = .ok (.inl (label, m')) ∧ m'.Due) ∨
    ∃ m' p, registerSockets a transformations m passive manage = .ok (.inr (m', p)) ∧ m'.server = some passive ∧
      m'.server6969 = some manage ∧ Coherent p.server.fds passive manage p.server p.selector := by
  have hconnections : m.process.connections = [] := hopened.connections.trans h₀
  obtain ⟨hpassive, hmanage⟩ := hopened.sockets hp hm
  unfold registerSockets
  cases hnew : selectorNew 1024 a.struct a.table with
  | none =>
    refine Or.inl ⟨.finally, _, rfl, rfl, fun w hw => ?_⟩
    cases hopened.selector.symm.trans hw
  | some selector =>
    obtain ⟨hv, hlocked, hempty⟩ := selectorNew_valid hnew
    have hc : selector.Complete := selectorNew_complete (by decide) hnew
    have hjobs : selector.resolutionJobs = [] := by
      obtain ⟨-, rfl⟩ := selectorNew_eq hnew
      rfl
    have hroom : ∀ {s : FdSelector Callback Attachment} {fd : Nat}, s.Complete → ¬ INVALID_FD (fd : Int) →
        (fd : Int) ≠ s.fds.length := by
      intro s fd hcomplete hfd
      have hmax : ITEMS_MAX_SIZE = FD_SETSIZE := rfl
      unfold INVALID_FD at hfd
      rw [hcomplete.length]
      omega
    obtain ⟨ss₁, w₁, hfirst, hcases₁⟩ := @selectorRegister_ok _ _ ⟨selector, []⟩ .self passive (some smtp) OP_READ
      (transformations.map .program) none hv fun hfd _ _ => hroom hc hfd
    have hbeside₁ := selectorRegister_beside hc hfirst
    dsimp only
    rw [hfirst, ok_bind]
    dsimp only
    obtain ⟨hne, rfl⟩ | ⟨rfl, i, hi, -, hchanges₁, hlog₁⟩ := hcases₁
    · rw [if_pos hne]
      refine Or.inl ⟨.finally, _, rfl, rfl, fun w hw => ?_⟩
      cases hw
      show Owns m.process.connections _
      rw [hconnections]
      refine Owns.start hv (fun fd item i hlook => ?_) rfl rfl
      rw [hempty] at hlook
      cases hlook
    · obtain rfl : passive = i := Int.natCast_inj.mp hi
      have hc₁ := hchanges₁.complete hc
      have hlook₁ : w₁.selector.lookup = Function.update (fun _ => none) passive
          (some (listenItem passive transformations)) := by
        rw [hchanges₁.lookup]
        show Function.update selector.lookup passive _ = _
        rw [hempty]
        rfl
      have htaken₁ : taken w₁.log = [] := by
        rw [hlog₁]
        exact taken_program passive transformations
      have hreturned₁ : returned w₁.log = [] := by
        rw [hlog₁]
        rfl
      obtain ⟨ss₂, w₂, hsecond, hcases₂⟩ := @selectorRegister_ok _ _ w₁ .self manage (some udp) OP_READ none none
        hchanges₁.valid fun hfd _ _ => hroom hc₁ hfd
      have hbeside₂ := selectorRegister_beside hc₁ hsecond
      rw [if_neg (not_not.mpr rfl), hsecond, ok_bind]
      dsimp only
      obtain ⟨hne, rfl⟩ | ⟨rfl, j, hj, hfree, hchanges₂, hlog₂⟩ := hcases₂
      · rw [if_pos hne]
        refine Or.inl ⟨.finally, _, rfl, rfl, fun w hw => ?_⟩
        cases hw
        show Owns m.process.connections _
        rw [hconnections]
        refine Owns.start hchanges₁.valid (fun fd item i hlook => ?_) htaken₁ hreturned₁
        rw [hlook₁] at hlook
        by_cases hfd : fd = passive
        · rw [hfd, Function.update_self] at hlook
          cases hlook
          cases transformations with
          | none => exact fun h => by cases h
          | some text => exact fun h => by cases h
        · rw [Function.update_of_ne hfd] at hlook
          cases hlook
      · obtain rfl : manage = j := Int.natCast_inj.mp hj
        rw [if_neg (not_not.mpr rfl)]
        have hne : passive ≠ manage := by
          rintro rfl
          rw [hlook₁, Function.update_self] at hfree
          cases hfree
        refine Or.inr ⟨_, _, rfl, hp, hm, coherent_start hchanges₂.valid (hchanges₂.complete hc₁)
          (hbeside₂.jobs.trans (hbeside₁.jobs.trans hjobs)) (hchanges₂.locked.trans (hchanges₁.locked.trans hlocked))
          hconnections hopened.nodup hpassive hmanage hne ?_ ?_ ?_⟩
        · rw [hchanges₂.lookup, hlook₁]
          rfl
        · rw [hlog₂, taken_append, htaken₁]
          rfl
        · rw [hlog₂, returned_append, hreturned₁]
          rfl

theorem Main.Due.goto (h : Opened process m) (label : Label) (errMsg : String) : (m.goto label errMsg).2.Due := by
  refine ⟨rfl, fun w hw => ?_⟩
  cases h.selector.symm.trans hw

/-- `main` comes to its loop with a server that agrees with its selector, or goes to its end. -/
theorem setUp_ok (a : Setup) (transformations : Option (List UInt8)) (h₀ : process.connections = [])
    (hnodup : process.fds.Nodup) :
    (∃ label m, setUp a transformations process = .ok (.inl (label, m)) ∧ m.Due) ∨
    ∃ m p passive manage, setUp a transformations process = .ok (.inr (m, p)) ∧ m.server = some passive ∧
      m.server6969 = some manage ∧ Coherent p.server.fds passive manage p.server p.selector := by
  have hopened := openSockets_opened a hnodup
  have hgoto : ∀ label errMsg, ∃ label' m, (Except.ok (.inl ((openSockets a process).goto label errMsg)) :
      Except SelectorFault (Label × Main ⊕ Main × Program)) = .ok (.inl (label', m)) ∧ m.Due :=
    fun label errMsg => ⟨_, _, rfl, Main.Due.goto hopened label errMsg⟩
  unfold setUp
  dsimp only
  cases hp : (openSockets a process).server with
  | none => exact Or.inl (hgoto _ _)
  | some passive =>
    cases hm : (openSockets a process).server6969 with
    | none => exact Or.inl (hgoto _ _)
    | some manage =>
      dsimp only
      have hregister := @registerSockets_ok a transformations process _ passive manage hopened h₀ hp hm
      split_ifs
      case pos =>
        obtain hleft | ⟨m, p, h, hserver, hserver6969, hc⟩ := hregister
        · exact Or.inl hleft
        · exact Or.inr ⟨m, p, passive, manage, h, hserver, hserver6969, hc⟩
      all_goals exact Or.inl (hgoto _ _)

end SettingUp

section Serving

variable {a : Setup} {transformations : Option (List UInt8)} {process : Server} {m : Main} {p₀ p : Program}
  {rounds : List Round} {ss : SelectorStatus}

theorem Coherent.hosted {reserved : List Nat} {passive manage : Nat}
    (hc : Coherent reserved passive manage p₀.server p₀.selector) :
    Hosted reserved passive manage p₀.server [] p₀.server p₀.selector :=
  ⟨hc, meets_nil _ _, rfl⟩

theorem setUp_hosted (h₀ : process.connections = []) (hnodup : process.fds.Nodup)
    (hset : setUp a transformations process = .ok (.inr (m, p₀))) :
    ∃ passive manage, m.server = some passive ∧ m.server6969 = some manage ∧
      Hosted p₀.server.fds passive manage p₀.server [] p₀.server p₀.selector := by
  obtain ⟨label, m', hleft, -⟩ | ⟨m', p, passive, manage, hright, hp, hm, hc⟩ := setUp_ok a transformations h₀ hnodup
  · cases hset.symm.trans hleft
  · cases hset.symm.trans hright
    exact ⟨passive, manage, hp, hm, hc.hosted⟩

/-- A server that gets all it asks for. -/
def goodSetup : Setup :=
  { socket := true, socket6969 := true, bind := true, listen := true, bind6969 := true, nio := true, nio6969 := true,
    init := true, struct := true, table := some fun _ => blankItem }

def goodTurn (_ : Nat) : Turn :=
  { tree := firstOs.tree, env := readyEnv [], accepts := true, nio := true, memory := true, table := none,
    datagram := .failure }

/-- A client comes, and is greeted. -/
def firstRounds : List Round :=
  [{ outcome := .ready {0} ∅, turns := goodTurn }, { outcome := .ready ∅ {6}, turns := goodTurn }]

theorem firstRounds_run :
    ∃ m p₀ ss p, setUp goodSetup none startedServer = .ok (.inr (m, p₀)) ∧ mainLoop p₀ firstRounds = .ok (ss, p) := by
  obtain ⟨r, hset, hserves⟩ : ∃ r, setUp goodSetup none startedServer = .ok r ∧
      (r.elim (fun _ => false) fun r => (mainLoop r.2 firstRounds).toOption.isSome) = true := by
    apply ok_of_any
    decide +kernel
  cases r with
  | inl r => cases hserves
  | inr r =>
    obtain ⟨⟨ss, p⟩, hloop⟩ := ok_of_toOption hserves
    exact ⟨r.1, r.2, ss, p, hset, hloop⟩

/-- For as many rounds as there are, and whatever the clients and the system do, the loop of `main` does what the server
does by itself at the events that its callbacks are: it leaves the server where they lead, and fails where one of them
fails, and with the same fault. The selector never fails, and reports no error but one of `pselect` that is not the
server's. -/
theorem serving_refines (h₀ : process.connections = []) (hnodup : process.fds.Nodup)
    (hset : setUp a transformations process = .ok (.inr (m, p₀))) :
    Meets serverStep Called p₀.server (events p₀ rounds) ∧
    (mainLoop p₀ rounds).map (fun r => r.2.server) =
      (run serverStep p₀.server (events p₀ rounds)).mapError .server ∧
    ∀ ss p, mainLoop p₀ rounds = .ok (ss, p) → ss = .success ∨ ss = .io ∧ ∃ r ∈ rounds, r.outcome = .failed := by
  obtain ⟨passive, manage, -, -, hosted⟩ := setUp_hosted h₀ hnodup hset
  obtain ⟨ss, p, hloop, hp, hstatus⟩ | ⟨fault, w, hloop, hosts⟩ := mainLoop_hosted hosted rounds
  · rw [List.nil_append] at hp
    refine ⟨hp.called, ?_, fun ss' p' h => ?_⟩
    · rw [hloop, hp.history]
      rfl
    · cases hloop.symm.trans h
      exact hstatus
  · rw [List.nil_append] at hosts
    obtain ⟨hcalled, hrun⟩ := hosts.refines
    refine ⟨hcalled, ?_, fun ss' p' h => ?_⟩
    · rw [hloop, hrun]
      rfl
    · cases hloop.symm.trans h

theorem serving_refines_first_client :
    ∃ p₀ ss p, mainLoop p₀ firstRounds = .ok (ss, p) ∧ run serverStep p₀.server (events p₀ firstRounds) = .ok p.server := by
  obtain ⟨m, p₀, ss, p, hset, hloop⟩ := firstRounds_run
  have hrefines := (@serving_refines goodSetup none startedServer m p₀ firstRounds rfl (by decide) hset).2.1
  rw [hloop] at hrefines
  refine ⟨p₀, ss, p, hloop, ?_⟩
  cases hrun : run serverStep p₀.server (events p₀ firstRounds) with
  | ok s =>
    rw [hrun] at hrefines
    exact congrArg Except.ok (Except.ok.inj hrefines).symm
  | error fault =>
    rw [hrun] at hrefines
    cases hrefines

/-- A connection that is registered waits to read or to write, and is watched for just that. -/
theorem Coherent.watched {reserved : List Nat} {passive manage : Nat} {s : Server}
    {w : SelectorWorld Callback Attachment} (hc : Coherent reserved passive manage s w) (fd : Nat) :
    (fd ∈ w.selector.masterR ↔ fd = passive ∨ fd = manage ∨
      ∃ key ∈ s.connections, key.registered = true ∧ key.interest = .read ∧ key.fd = fd) ∧
    (fd ∈ w.selector.masterW ↔ ∃ key ∈ s.connections, key.registered = true ∧ key.interest = .write ∧ key.fd = fd) := by
  rw [hc.valid.masterR, hc.valid.masterW]
  constructor
  · constructor
    · rintro ⟨item, hlook, hint⟩
      cases hc.registered_item hlook with
      | listening hfd => exact Or.inl hfd
      | managing hfd => exact Or.inr (Or.inl hfd)
      | @connected i key hi hreg hfd _ =>
        exact Or.inr (Or.inr ⟨key, List.mem_of_getElem? hi, hreg, op_includes_read.mp hint, hfd⟩)
    · rintro (rfl | rfl | ⟨key, hkey, hreg, hint, rfl⟩)
      · exact ⟨_, hc.listening, (op_includes_read (i := .read)).mpr rfl⟩
      · exact ⟨_, hc.managing, (op_includes_read (i := .read)).mpr rfl⟩
      · obtain ⟨i, hi⟩ := List.mem_iff_getElem?.mp hkey
        exact ⟨_, hc.connected hi hreg, op_includes_read.mpr hint⟩
  · constructor
    · rintro ⟨item, hlook, hint⟩
      cases hc.registered_item hlook with
      | listening | managing => exact absurd ⟨by decide, hint⟩ listens_single
      | @connected i key hi hreg hfd _ => exact ⟨key, List.mem_of_getElem? hi, hreg, op_includes_write.mp hint, hfd⟩
    · rintro ⟨key, hkey, hreg, hint, rfl⟩
      obtain ⟨i, hi⟩ := List.mem_iff_getElem?.mp hkey
      exact ⟨_, hc.connected hi hreg, op_includes_write.mpr hint⟩

/-- As long as it serves, the server watches its two sockets and the sockets of the connections that are not over, each
for what it waits for, and all of them are open. In the round that follows, if none of its callbacks fails, every
descriptor of these that gets ready is called back once, in the order of the descriptors, for what is registered when
its turn comes. -/
theorem serving_watches (h₀ : process.connections = []) (hnodup : process.fds.Nodup)
    (hset : setUp a transformations process = .ok (.inr (m, p₀))) (hloop : mainLoop p₀ rounds = .ok (ss, p)) :
    (∀ fd, fd ∈ p.selector.selector.masterR ↔ m.server = some fd ∨ m.server6969 = some fd ∨
      ∃ key ∈ p.server.connections, key.registered = true ∧ key.interest = .read ∧ key.fd = fd) ∧
    (∀ fd, fd ∈ p.selector.selector.masterW ↔
      ∃ key ∈ p.server.connections, key.registered = true ∧ key.interest = .write ∧ key.fd = fd) ∧
    (∀ fd ∈ p.selector.selector.masterR ∪ p.selector.selector.masterW, fd ∈ p.server.fds) ∧
    ∀ turns r w ss' p', selectRound p { outcome := .ready r w, turns } = .ok (ss', p') → ss' = .success ∧
      ∃ called, selectorSelect (callbacks turns p.server) p.selector (p.pselect (.ready r w)) =
          .ok (.success, called, p'.selector) ∧
        (called.map fun d => (d.key.fd, d.op)) = (List.range (p.selector.selector.maxFd + 1)).filterMap
          (due (r ∩ p.selector.selector.masterR) (w ∩ p.selector.selector.masterW)) ∧
        ∀ d ∈ called, d.Current := by
  obtain ⟨passive, manage, hserver, hserver6969, hosted⟩ := setUp_hosted h₀ hnodup hset
  obtain ⟨ss', p', hloop', hp, -⟩ | ⟨fault, w, hfailed, -⟩ := mainLoop_hosted hosted rounds
  · cases hloop.symm.trans hloop'
    have hc := hp.coherent
    refine ⟨fun fd => ?_, fun fd => (hc.watched fd).2, fun fd hfd => hc.watched_open hfd,
      fun turns r w ss' p' hround => ?_⟩
    · rw [(hc.watched fd).1, hserver, hserver6969, Option.some_inj, Option.some_inj, eq_comm, @eq_comm _ fd manage]
    · obtain ⟨st, hselect, -, hcalls, hcurrent⟩ := hp.select turns r w
      unfold selectRound at hround
      rw [hselect] at hround
      obtain ⟨server, -, hround⟩ := bind_ok hround
      cases hround
      exact ⟨rfl, st.1, hselect, hcalls, hcurrent⟩
  · cases hloop.symm.trans hfailed

theorem serving_watches_first_client :
    ∃ m p₀ ss p, setUp goodSetup none startedServer = .ok (.inr (m, p₀)) ∧ mainLoop p₀ firstRounds = .ok (ss, p) ∧
      (∀ fd, fd ∈ p.selector.selector.masterR ↔ m.server = some fd ∨ m.server6969 = some fd ∨
        ∃ key ∈ p.server.connections, key.registered = true ∧ key.interest = .read ∧ key.fd = fd) ∧
      (∀ fd, fd ∈ p.selector.selector.masterW ↔
        ∃ key ∈ p.server.connections, key.registered = true ∧ key.interest = .write ∧ key.fd = fd) ∧
      (∀ fd ∈ p.selector.selector.masterR ∪ p.selector.selector.masterW, fd ∈ p.server.fds) ∧
      ∀ turns r w ss' p', selectRound p { outcome := .ready r w, turns } = .ok (ss', p') → ss' = .success ∧
        ∃ called, selectorSelect (callbacks turns p.server) p.selector (p.pselect (.ready r w)) =
            .ok (.success, called, p'.selector) ∧
          (called.map fun d => (d.key.fd, d.op)) = (List.range (p.selector.selector.maxFd + 1)).filterMap
            (due (r ∩ p.selector.selector.masterR) (w ∩ p.selector.selector.masterW)) ∧
          ∀ d ∈ called, d.Current := by
  obtain ⟨m, p₀, ss, p, hset, hloop⟩ := firstRounds_run
  exact ⟨m, p₀, ss, p, hset, hloop, serving_watches rfl (by decide) hset hloop⟩

theorem Main.Leaves.one_or_two {exit : Exit} (h : m.Leaves exit) : exit.ret = some 1 ∨ exit.ret = some 2 := by
  rw [h.ret]
  split
  · exact Or.inl rfl
  · exact Or.inr rfl

/-- Where `main` cannot serve it returns. -/
theorem main_of_label {label : Label} (hset : setUp a transformations process = .ok (.inl (label, m))) (hm : m.Due) :
    ∃ exit, main a transformations process rounds = .ok exit ∧ m.Leaves exit := by
  obtain ⟨exit, hexit, hleaves⟩ := hm.leave label
  refine ⟨exit, ?_, hleaves⟩
  unfold main
  rw [hset]
  show (m.leave label).mapError ProgramFault.selector = _
  rw [hexit]
  rfl

/-- When its loop ends `main` returns. -/
theorem main_of_loop (hset : setUp a transformations process = .ok (.inr (m, p₀)))
    (hloop : mainLoop p₀ rounds = .ok (ss, p)) (howns : Owns p.server.connections p.selector) :
    ∃ exit, main a transformations process rounds = .ok exit ∧ (exit.ret = some 1 ∨ exit.ret = some 2) ∧ exit.Freed ∧
      exit.process.connections = p.server.connections ∧ exit.process.tree = p.server.tree := by
  have hdue : ∀ errMsg ret, ({ m with
      errMsg := some errMsg, ss, selector := some p.selector, process := p.server, ret } : Main).Due := by
    intro errMsg ret
    refine ⟨rfl, fun w hw => ?_⟩
    cases hw
    exact howns
  have hmain : ∀ {label : Label} {m' : Main}, m'.Due → m'.process = p.server →
      main a transformations process rounds = (m'.leave label).mapError .selector →
      ∃ exit, main a transformations process rounds = .ok exit ∧ (exit.ret = some 1 ∨ exit.ret = some 2) ∧
        exit.Freed ∧ exit.process.connections = p.server.connections ∧ exit.process.tree = p.server.tree := by
    intro label m' hm' hprocess hleave
    obtain ⟨exit, hexit, hleaves⟩ := hm'.leave label
    refine ⟨exit, ?_, hleaves.one_or_two, hleaves.freed, hprocess ▸ hleaves.connections, hprocess ▸ hleaves.tree⟩
    rw [hleave, hexit]
    rfl
  by_cases hss : ss = .success
  · refine @hmain .finallyUdp _ (hdue "closing" (some 0)) rfl ?_
    unfold main
    rw [hset]
    show mainLoop p₀ rounds >>= _ = _
    rw [hloop, ok_bind]
    exact if_neg (not_not.mpr hss)
  · refine @hmain .finally _ (hdue "serving" m.ret) rfl ?_
    unfold main
    rw [hset]
    show mainLoop p₀ rounds >>= _ = _
    rw [hloop, ok_bind]
    exact if_pos hss

theorem main_of_fault {fault : ProgramFault} (hset : setUp a transformations process = .ok (.inr (m, p₀)))
    (hloop : mainLoop p₀ rounds = .error fault) : main a transformations process rounds = .error fault := by
  unfold main
  rw [hset]
  show mainLoop p₀ rounds >>= _ = _
  rw [hloop]
  rfl

/-- Unless a function of the server fails, `main` returns 1 or 2, never 0 and never what it has not set: 2 if the
selector has reported an error. Every connection that there has been has then been freed once, those that were still
open by `selector_destroy`. -/
theorem main_returns (a : Setup) (transformations : Option (List UInt8)) (rounds : List Round)
    (h₀ : process.connections = []) (hnodup : process.fds.Nodup) :
    (∃ fault, main a transformations process rounds = .error (.server fault)) ∨
    ∃ exit, main a transformations process rounds = .ok exit ∧ (exit.ret = some 1 ∨ exit.ret = some 2) ∧ exit.Freed := by
  obtain ⟨label, m, hset, hm⟩ | ⟨m, p₀, passive, manage, hset, -, -, hc⟩ := setUp_ok a transformations h₀ hnodup
  · obtain ⟨exit, hexit, hleaves⟩ := @main_of_label a transformations process m rounds label hset hm
    exact Or.inr ⟨exit, hexit, hleaves.one_or_two, hleaves.freed⟩
  · obtain ⟨ss, p, hloop, hp, -⟩ | ⟨fault, w, hloop, -⟩ := mainLoop_hosted hc.hosted rounds
    · obtain ⟨exit, hexit, hret, hfreed, -⟩ := main_of_loop hset hloop hp.coherent.owns
      exact Or.inr ⟨exit, hexit, hret, hfreed⟩
    · exact Or.inl ⟨fault, main_of_fault hset hloop⟩

theorem main_returns_first_client :
    ∃ exit, main goodSetup none startedServer firstRounds = .ok exit ∧ (exit.ret = some 1 ∨ exit.ret = some 2) ∧
      exit.Freed := by
  obtain ⟨m, p₀, ss, p, hset, hloop⟩ := firstRounds_run
  obtain ⟨fault, hfault⟩ | hexit := @main_returns startedServer goodSetup none firstRounds rfl (by decide)
  · -- the loop has come to its end, and so has `main`
    obtain ⟨passive, manage, -, -, hosted⟩ := setUp_hosted rfl (by decide) hset
    obtain ⟨ss', p', hloop', hp, -⟩ | ⟨fault', w, hfailed, -⟩ := mainLoop_hosted hosted firstRounds
    · obtain ⟨exit, hexit, -⟩ := main_of_loop hset hloop' hp.coherent.owns
      cases hfault.symm.trans hexit
    · cases hloop.symm.trans hfailed
  · exact hexit

end Serving

end Smtpd.Serving
