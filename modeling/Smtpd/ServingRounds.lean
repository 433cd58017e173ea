import Smtpd.Coherence

namespace Smtpd.Serving

open Checked Runs Selector Leases

section Items

variable {reserved : List Nat} {passive manage : Nat} {s : Server} {w : SelectorWorld Callback Attachment} {fd : Nat}
  {item : Item Callback Attachment}

/-- What can be registered for a descriptor, and to whom it belongs. -/
inductive Registered (reserved : List Nat) (passive manage : Nat) (s : Server) (fd : Nat) : Item Callback Attachment → Prop
  | listening : fd = passive → Registered reserved passive manage s fd (listenItem passive s.program)
  | managing : fd = manage → Registered reserved passive manage s fd (manageItem manage)
  | connected {i : Nat} {key : Key} : s.connections[i]? = some key → key.registered = true → key.fd = fd →
      key.interest = .read ∨ key.interest = .write → Registered reserved passive manage s fd (connectionItem i key)

theorem Coherent.registered_item (hc : Coherent reserved passive manage s w) (h : w.selector.lookup fd = some item) :
    Registered reserved passive manage s fd item := by
  rcases hc.only h with rfl | rfl | ⟨i, key, hi, hreg, rfl⟩
  · cases hc.listening.symm.trans h
    exact .listening rfl
  · cases hc.managing.symm.trans h
    exact .managing rfl
  · cases (hc.connected hi hreg).symm.trans h
    exact .connected hi hreg rfl (hc.waits hi hreg)

theorem op_single {i : Interest} : ¬ ((op i).includes OP_READ ∧ (op i).includes OP_WRITE) := by
  rw [op_includes_read, op_includes_write]
  rintro ⟨rfl, h⟩
  cases h

theorem listens_single : ¬ (OP_READ.includes OP_READ ∧ OP_READ.includes OP_WRITE) := by decide

/-- Every descriptor is registered for one operation, for which its handler has a callback. -/
theorem Registered.single (h : Registered reserved passive manage s fd item) :
    ¬ (item.interest.includes OP_READ ∧ item.interest.includes OP_WRITE) := by
  cases h with
  | listening | managing => exact listens_single
  | connected => exact op_single

theorem listens_read {op : DispatchOp} (hop : op ≠ .block) (hint : OP_READ.includes op.interest) : op = .read := by
  cases op with
  | read => rfl
  | write => exact absurd ⟨by decide, hint⟩ listens_single
  | block => exact absurd rfl hop

theorem Registered.handled {op : DispatchOp} (h : Registered reserved passive manage s fd item) (hop : op ≠ .block)
    (hint : item.interest.includes op.interest) :
    ∃ handler, item.handler = some handler ∧ (handler.callback op).isSome := by
  cases h with
  | listening =>
    obtain rfl := listens_read hop hint
    exact ⟨smtp, rfl, rfl⟩
  | managing =>
    obtain rfl := listens_read hop hint
    exact ⟨udp, rfl, rfl⟩
  | connected =>
    refine ⟨smtpHandler, rfl, ?_⟩
    cases op with
    | read | write => rfl
    | block => exact absurd rfl hop

end Items

/-- The event of the server that a callback is. -/
def eventOf (turn : Turn) (s : Server) (d : Dispatch Callback Attachment) : Option ServerEvent :=
  match d.handler.callback d.op, d.key.data with
  | some .smtpPassiveAccept, _ => some (.accept turn.env (acceptOutcome turn s d.selector))
  | some .udpReadHandler, _ => some (.datagram turn.datagram)
  | some .smtpRead, some (.connection i) => some (.ready i .read turn.env)
  | some .smtpWrite, some (.connection i) => some (.ready i .write turn.env)
  | _, _ => none

/-- What happens to the server when one of its callbacks is called. The files may have changed before. -/
def eventsOf (turns : Nat → Turn) (k : Nat) (s : Server) (d : Dispatch Callback Attachment) : List ServerEvent :=
  .elsewhere (turns k).tree s.fds :: (eventOf (turns k) { s with tree := (turns k).tree } d).toList

section Callbacks

variable {reserved : List Nat} {passive manage : Nat} {s s' : Server} {w : SelectorWorld Callback Attachment} {fd k : Nat}
  {item : Item Callback Attachment} {op : DispatchOp} {handler : FdHandler Callback} {turns : Nat → Turn}
  {acts : List (SelectorAct Callback Attachment)}

theorem smtpRead_eq {env : Env} {key : Key} (hheeds : key.Heeds .read) :
    smtpRead env (s.sync key) = sessionStep (s.sync key) (.ready .read env) := by
  have hsync : (s.sync key).registered = true ∧ (s.sync key).interest = .read := hheeds
  rw [sessionStep, if_pos hsync]

theorem smtpWrite_eq {env : Env} {key : Key} (hheeds : key.Heeds .write) :
    smtpWrite env (s.sync key) = sessionStep (s.sync key) (.ready .write env) := by
  have hsync : (s.sync key).registered = true ∧ (s.sync key).interest = .write := hheeds
  rw [sessionStep, if_pos hsync]

/-- The callback for a descriptor is an event of the server. -/
theorem Coherent.callback (hc : Coherent reserved passive manage s w) (hlook : w.selector.lookup fd = some item)
    (hop : op ≠ .block) (hint : item.interest.includes op.interest) (hh : item.handler = some handler)
    (h : Serving.callback turns k s
      { op, handler, key := { s := .self, fd := item.fd, data := item.data }, selector := w.selector } = .ok (s', acts)) :
    ∃ w' e, performAll w acts = .ok w' ∧ eventOf (turns k) { s with tree := (turns k).tree }
        { op, handler, key := { s := .self, fd := item.fd, data := item.data }, selector := w.selector } = some e ∧
      Advances reserved passive manage { s with tree := (turns k).tree } s' w w' fd e := by
  have hfiles := (hc.files fd (turns k).tree).coherent
  unfold Serving.callback at h
  cases hc.registered_item hlook with
  | listening hfd =>
    obtain rfl := listens_read hop hint
    cases hh
    subst hfd
    obtain ⟨w', hperform, hadvances⟩ := hfiles.acceptCallback rfl rfl h
    exact ⟨w', _, hperform, rfl, hadvances⟩
  | managing hfd =>
    obtain rfl := listens_read hop hint
    cases hh
    subst hfd
    obtain ⟨s₁, hstep, h⟩ := bind_ok h
    cases h
    have hnil : performAll w [] = .ok w := by rw [performAll]
    exact ⟨w, _, hnil, rfl, hfiles.udpCallback hstep⟩
  | @connected i key hi hreg hfd hwaits =>
    cases hh
    subst hfd
    cases op with
    | read =>
      have hheeds : key.Heeds .read := ⟨hreg, op_includes_read.mp hint⟩
      obtain ⟨w', hperform, hadvances⟩ := hfiles.smtpCallback hi hheeds rfl rfl (smtpRead_eq hheeds) h
      exact ⟨w', _, hperform, rfl, hadvances⟩
    | write =>
      have hheeds : key.Heeds .write := ⟨hreg, op_includes_write.mp hint⟩
      obtain ⟨w', hperform, hadvances⟩ := hfiles.smtpCallback hi hheeds rfl rfl (smtpWrite_eq hheeds) h
      exact ⟨w', _, hperform, rfl, hadvances⟩
    | block => exact absurd rfl hop

/-- The callback for a descriptor fails only where the server does. -/
theorem Coherent.callback_fault {fault : Fault} (hc : Coherent reserved passive manage s w)
    (hlook : w.selector.lookup fd = some item) (hop : op ≠ .block) (hint : item.interest.includes op.interest)
    (hh : item.handler = some handler)
    (h : Serving.callback turns k s
      { op, handler, key := { s := .self, fd := item.fd, data := item.data }, selector := w.selector } = .error fault) :
    ∃ e, eventOf (turns k) { s with tree := (turns k).tree }
        { op, handler, key := { s := .self, fd := item.fd, data := item.data }, selector := w.selector } = some e ∧
      Called { s with tree := (turns k).tree } e ∧ serverStep { s with tree := (turns k).tree } e = .error fault := by
  have hfiles := (hc.files fd (turns k).tree).coherent
  unfold Serving.callback at h
  cases hc.registered_item hlook with
  | listening hfd =>
    obtain rfl := listens_read hop hint
    cases hh
    have h := (acceptCallback_eq rfl).symm.trans h
    exact ⟨_, rfl, acceptCallback_called (turns k) _ w.selector, error_of_shaped h⟩
  | managing hfd =>
    obtain rfl := listens_read hop hint
    cases hh
    exact ⟨_, rfl, trivial, error_of_shaped h⟩
  | @connected i key hi hreg hfd hwaits =>
    cases hh
    subst hfd
    cases op with
    | read =>
      have hheeds : key.Heeds .read := ⟨hreg, op_includes_read.mp hint⟩
      exact ⟨_, rfl, ⟨key, hi, hheeds⟩, hfiles.smtpCallback_fault hi hheeds rfl rfl (smtpRead_eq hheeds) h⟩
    | write =>
      have hheeds : key.Heeds .write := ⟨hreg, op_includes_write.mp hint⟩
      exact ⟨_, rfl, ⟨key, hi, hheeds⟩, hfiles.smtpCallback_fault hi hheeds rfl rfl (smtpWrite_eq hheeds) h⟩
    | block => exact absurd rfl hop

end Callbacks

/-- What is known of the server after some events: it has come through all of them, each of them was a callback, and it
agrees with its selector. -/
structure Hosted (reserved : List Nat) (passive manage : Nat) (s₀ : Server) (es : List ServerEvent) (s : Server)
    (w : SelectorWorld Callback Attachment) : Prop where
  coherent : Coherent reserved passive manage s w
  called : Meets serverStep Called s₀ es
  history : run serverStep s₀ es = .ok s

/-- The server is hosted, or has failed at the last event that it has seen. -/
def Hosts (reserved : List Nat) (passive manage : Nat) (s₀ : Server) (r : Except Fault Server × List ServerEvent)
    (w : SelectorWorld Callback Attachment) : Prop :=
  ∃ s es, Hosted reserved passive manage s₀ es s w ∧
    (r = (.ok s, es) ∨ ∃ e fault, r = (.error fault, es ++ [e]) ∧ Called s e ∧ serverStep s e = .error fault)

section Hosting

variable {reserved : List Nat} {passive manage : Nat} {s₀ s s' : Server} {w w' : SelectorWorld Callback Attachment}
  {turns : Nat → Turn} {r : Except Fault Server} {es : List ServerEvent}

theorem Hosted.extend {e : ServerEvent} {fd : Nat} (h : Hosted reserved passive manage s₀ es s w)
    (ha : Advances reserved passive manage s s' w w' fd e) : Hosted reserved passive manage s₀ (es ++ [e]) s' w' :=
  ⟨ha.coherent, (meets_concat h.history).mpr ⟨h.called, ha.called⟩, run_concat_ok.mpr ⟨s, h.history, ha.step⟩⟩

theorem Hosted.side (h : Hosted reserved passive manage s₀ es s w) (slaveR slaveW : FdSet) :
    Hosted reserved passive manage s₀ es s { w with selector := { w.selector with slaveR, slaveW } } := by
  obtain ⟨hc, hcalled, history⟩ := h
  have hlook : FdSelector.lookup { w.selector with slaveR, slaveW } = w.selector.lookup := lookup_congr rfl
  refine ⟨⟨hc.valid.side rfl rfl rfl rfl, hc.complete.side rfl, hc.jobs, hc.unlocked, hc.holds, hc.grown,
    hc.passive_reserved, hc.manage_reserved, ?_, ?_, ?_, ?_, hc.allocated, hc.once, hc.freed⟩, hcalled, history⟩
  · rw [hlook]
    exact hc.listening
  · rw [hlook]
    exact hc.managing
  · intro i key hi hreg
    rw [hlook]
    exact hc.connected hi hreg
  · intro fd item hitem
    rw [hlook] at hitem
    exact hc.only hitem

/-- The events that the server has seen are callbacks, and have brought it to where it is. -/
theorem Hosts.refines (h : Hosts reserved passive manage s₀ (r, es) w) :
    Meets serverStep Called s₀ es ∧ run serverStep s₀ es = r := by
  obtain ⟨s, es', hs, he | ⟨e, fault, he, hcalled, hfault⟩⟩ := h
  · cases he
    exact ⟨hs.called, hs.history⟩
  · cases he
    refine ⟨(meets_concat hs.history).mpr ⟨hs.called, hcalled⟩, ?_⟩
    rw [run_append, hs.history, ok_bind, run_cons, hfault]
    rfl

theorem Hosts.hosted (h : Hosts reserved passive manage s₀ (.ok s, es) w) : Hosted reserved passive manage s₀ es s w := by
  obtain ⟨s', es', hs, he | ⟨e, fault, he, -, -⟩⟩ := h
  · cases he
    exact hs
  · cases he

/-- The callbacks of the server, with the events that it sees by them. -/
def watching (turns : Nat → Turn) : Nat → Except Fault Server × List ServerEvent → Dispatch Callback Attachment →
    Except Fault ((Except Fault Server × List ServerEvent) × List (SelectorAct Callback Attachment)) :=
  Reactive.observing (callback turns) (eventsOf turns) []

/-- The callbacks of the server keep to their own descriptors. -/
theorem disciplined (turns : Nat → Turn) : Disciplined (watching turns) (Hosts reserved passive manage s₀) where
  valid := fun ⟨_, _, h, _⟩ => ⟨h.coherent.valid, h.coherent.complete⟩
  idle := fun ⟨_, _, h, _⟩ => ⟨h.coherent.jobs, h.coherent.unlocked⟩
  single := fun ⟨_, _, h, _⟩ hlook => (h.coherent.registered_item hlook).single
  handled := fun ⟨_, _, h, _⟩ hlook hop hint => (h.coherent.registered_item hlook).handled hop hint
  reacts := by
    rintro r r' w i item op handler k acts ⟨s, es, h, hr⟩ hlook hop hint hh hreact
    have hnil : performAll w [] = .ok w := by rw [performAll]
    obtain rfl | ⟨e, fault, rfl, hcalled, hfault⟩ := hr
    · unfold watching Reactive.observing at hreact
      dsimp only at hreact
      have hfiles := h.extend (h.coherent.files i (turns k).tree)
      split at hreact
      next s' acts' hreacts =>
        cases hreact
        obtain ⟨w', e, hperform, he, hadvances⟩ := h.coherent.callback hlook hop hint hh hreacts
        refine ⟨w', hperform, ⟨s', _, hfiles.extend hadvances, Or.inl ?_⟩, hadvances.beside, hadvances.others⟩
        rw [eventsOf, he, List.append_assoc]
        rfl
      next fault hreacts =>
        cases hreact
        obtain ⟨e, he, hcalled, hfault⟩ := h.coherent.callback_fault hlook hop hint hh hreacts
        refine ⟨w, hnil, ⟨_, _, hfiles, Or.inr ⟨e, fault, ?_, hcalled, hfault⟩⟩, Beside.refl _, fun _ _ _ hit => hit⟩
        rw [eventsOf, he, List.append_assoc]
        rfl
    · cases hreact
      exact ⟨w, hnil, ⟨s, es, h, Or.inr ⟨e, fault, rfl, hcalled, hfault⟩⟩, Beside.refl _, fun _ _ _ hit => hit⟩
  side := fun ⟨s, es, h, hr⟩ => ⟨s, es, h.side _ _, hr⟩

end Hosting

/-- The events that the server sees in a round of the loop. -/
def Program.events (p : Program) (r : Round) : List ServerEvent :=
  Reactive.observed (callback r.turns) (eventsOf r.turns) p.server
    (selected (selectorSelect (callbacks r.turns p.server) p.selector (p.pselect r.outcome)))

/-- The events that the server sees while the loop of `main` runs. -/
def events (p : Program) : List Round → List ServerEvent
  | [] => []
  | r :: rounds => p.events r ++ match selectRound p r with
    | .ok (.success, p) => events p rounds
    | _ => []

section Rounds

variable {reserved : List Nat} {passive manage : Nat} {s₀ : Server} {p : Program} {turns : Nat → Turn}
  {es : List ServerEvent}

/-- Whatever is watched is open. -/
theorem Coherent.watched_open {s : Server} {w : SelectorWorld Callback Attachment} {fd : Nat}
    (hc : Coherent reserved passive manage s w) (h : fd ∈ w.selector.masterR ∪ w.selector.masterW) : fd ∈ s.fds := by
  rcases Finset.mem_union.mp h with hr | hw
  · obtain ⟨item, hlook, -⟩ := (hc.valid.masterR fd).mp hr
    exact hc.is_open hlook
  · obtain ⟨item, hlook, -⟩ := (hc.valid.masterW fd).mp hw
    exact hc.is_open hlook

theorem Coherent.pselect (hc : Coherent reserved passive manage p.server p.selector) (outcome : SelectOutcome) :
    p.pselect outcome = match outcome with
      | .ready r w => .ready (r ∩ p.selector.selector.masterR) (w ∩ p.selector.selector.masterW)
      | .interrupted => .interrupted
      | .failed => .failed := by
  have hopen : ¬ ∃ fd ∈ p.selector.selector.masterR ∪ p.selector.selector.masterW, fd ∉ p.server.fds := by
    rintro ⟨fd, hmem, hclosed⟩
    exact hclosed (hc.watched_open hmem)
  exact if_neg hopen

/-- A round of the selector in the server. -/
theorem Hosted.select (h : Hosted reserved passive manage s₀ es p.server p.selector) (turns : Nat → Turn) (r w : FdSet) :
    ∃ st, selectorSelect (callbacks turns p.server) p.selector (p.pselect (.ready r w)) = .ok (.success, st) ∧
      Hosts reserved passive manage s₀ (Reactive.after (callback turns) p.server st.1,
        es ++ Reactive.observed (callback turns) (eventsOf turns) p.server st.1) st.2 ∧
      (st.1.map fun d => (d.key.fd, d.op)) = (List.range (p.selector.selector.maxFd + 1)).filterMap
        (due (r ∩ p.selector.selector.masterR) (w ∩ p.selector.selector.masterW)) ∧
      ∀ d ∈ st.1, d.Current := by
  have hcallbacks : callbacks turns p.server = reacting (watching turns) (.ok p.server, es) := by
    funext log
    exact (Reactive.last_observing [] es).symm
  have hosts : Hosts reserved passive manage s₀ (.ok p.server, es) p.selector := ⟨p.server, es, h, Or.inl rfl⟩
  rw [h.coherent.pselect, hcallbacks]
  obtain ⟨st, hselect, hi, hcalls, hcurrent⟩ := (disciplined turns).select hosts Finset.inter_subset_right
    Finset.inter_subset_right _ (Reactive.after_observing [] es)
  refine ⟨st, hselect, ?_, hcalls, hcurrent⟩
  rw [hselect] at hi
  exact hi

/-- A round of the loop leaves the server hosted, or it fails in a callback of the server. -/
theorem selectRound_hosted (h : Hosted reserved passive manage s₀ es p.server p.selector) (r : Round) :
    (∃ ss p', selectRound p r = .ok (ss, p') ∧ Hosted reserved passive manage s₀ (es ++ p.events r) p'.server p'.selector ∧
      (ss = .success ∨ ss = .io ∧ r.outcome = .failed)) ∨
    ∃ fault w, selectRound p r = .error (.server fault) ∧
      Hosts reserved passive manage s₀ (.error fault, es ++ p.events r) w := by
  cases ho : r.outcome with
  | ready readable writable =>
    obtain ⟨st, hselect, hosts, -, -⟩ := h.select r.turns readable writable
    have hevents : p.events r = Reactive.observed (callback r.turns) (eventsOf r.turns) p.server st.1 := by
      rw [Program.events, ho, hselect]
      rfl
    unfold selectRound
    rw [ho, hselect, hevents]
    dsimp only
    unfold served
    cases hr : Reactive.after (callback r.turns) p.server st.1 with
    | ok s =>
      rw [hr] at hosts
      exact Or.inl ⟨.success, _, rfl, hosts.hosted, Or.inl rfl⟩
    | error fault =>
      rw [hr] at hosts
      exact Or.inr ⟨fault, st.2, rfl, hosts⟩
  | interrupted =>
    have hside := h.side p.selector.selector.masterR p.selector.selector.masterW
    have hnotify := @handleBlockNotifications_idle _ _ ([], { p.selector with selector :=
      { p.selector.selector with slaveR := p.selector.selector.masterR, slaveW := p.selector.selector.masterW } })
      (callbacks r.turns p.server) hside.coherent.jobs hside.coherent.unlocked
    have hevents : p.events r = [] := by
      rw [Program.events, ho, h.coherent.pselect, selectorSelect]
      dsimp only
      rw [hnotify]
      rfl
    unfold selectRound
    rw [ho, h.coherent.pselect, selectorSelect, hevents, List.append_nil]
    dsimp only
    rw [hnotify]
    exact Or.inl ⟨.success, _, rfl, hside, Or.inl rfl⟩
  | failed =>
    have hside := h.side p.selector.selector.masterR p.selector.selector.masterW
    have hevents : p.events r = [] := by
      rw [Program.events, ho, h.coherent.pselect, selectorSelect]
      rfl
    unfold selectRound
    rw [ho, h.coherent.pselect, selectorSelect, hevents, List.append_nil]
    exact Or.inl ⟨.io, _, rfl, hside, Or.inr ⟨rfl, rfl⟩⟩

/-- The loop of `main`, from a server that is hosted on. -/
theorem mainLoop_hosted (h : Hosted reserved passive manage s₀ es p.server p.selector) (rounds : List Round) :
    (∃ ss p', mainLoop p rounds = .ok (ss, p') ∧
      Hosted reserved passive manage s₀ (es ++ events p rounds) p'.server p'.selector ∧
      (ss = .success ∨ ss = .io ∧ ∃ r ∈ rounds, r.outcome = .failed)) ∨
    ∃ fault w, mainLoop p rounds = .error (.server fault) ∧
      Hosts reserved passive manage s₀ (.error fault, es ++ events p rounds) w := by
  induction rounds generalizing p es with
  | nil =>
    rw [events, List.append_nil]
    exact Or.inl ⟨.success, p, rfl, h, Or.inl rfl⟩
  | cons r rounds ih =>
    rw [mainLoop, events]
    obtain ⟨ss, p₁, hround, h₁, hstatus⟩ | ⟨fault, w, hround, hosts⟩ := selectRound_hosted h r
    · rw [hround, ok_bind]
      dsimp only
      by_cases hss : ss = .success
      · subst hss
        rw [if_neg (not_not.mpr rfl), ← List.append_assoc]
        obtain ⟨ss', p', hloop, h', hstatus'⟩ | hfailed := ih h₁
        · refine Or.inl ⟨ss', p', hloop, h', hstatus'.imp_right ?_⟩
          rintro ⟨hio, r', hr', hf⟩
          exact ⟨hio, r', List.mem_cons_of_mem r hr', hf⟩
        · exact Or.inr hfailed
      · obtain ⟨rfl, hf⟩ := hstatus.resolve_left hss
        rw [if_pos hss, List.append_nil]
        exact Or.inl ⟨.io, p₁, rfl, h₁, Or.inr ⟨rfl, r, List.mem_cons_self, hf⟩⟩
    · rw [hround, List.append_nil]
      exact Or.inr ⟨fault, w, rfl, hosts⟩

end Rounds

end Smtpd.Serving
