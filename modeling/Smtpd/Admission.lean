import Smtpd.Server
import Smtpd.CommandSession

namespace Smtpd

open Checked Runs

/-- The client connections that are registered in the selector. -/
def Server.live (s : Server) : Nat := s.connections.countP (·.registered)

/-- A client is accepted, but `selector_register` does not take it. -/
def ServerEvent.failsToRegister : ServerEvent → Bool
  | .accept _ outcome => !outcome.registers
  | _ => false

section Users

variable {s₀ s s' : Server} {es : List ServerEvent} {e : ServerEvent}

/-- The counter follows the registrations, but for those that fail. -/
theorem serverStep_users (hs : s.Grown) (h : serverStep s e = .ok s') :
    s'.globals.currentUsers - s'.live =
      s.globals.currentUsers - s.live + if e.failsToRegister = true then 1 else 0 := by
  cases e with
  | accept env outcome =>
    obtain ⟨client, -, hglobals, ⟨hr, hsame⟩ | ⟨hr, key, os, hmore, -, hw⟩⟩ := serverStep_accept h
    · have hfails : (ServerEvent.accept env outcome).failsToRegister = true := by
        rw [ServerEvent.failsToRegister, hr]
        rfl
      rw [if_pos hfails, Server.live, hsame, hglobals]
      show s.globals.currentUsers + 1 - (s.live : Int) = s.globals.currentUsers - s.live + 1
      omega
    · have hlive : s'.live = s.live + 1 := by
        rw [Server.live, hmore, List.countP_append, List.countP_singleton, hw.registered]
        rfl
      have hfails : ¬ (ServerEvent.accept env outcome).failsToRegister = true := by
        rw [ServerEvent.failsToRegister, hr]
        decide
      rw [if_neg hfails, hlive, hglobals]
      show s.globals.currentUsers + 1 - ((s.live + 1 : Nat) : Int) = s.globals.currentUsers - s.live + 0
      omega
  | ready i op env =>
    rcases serverStep_ready h with ⟨-, rfl⟩ | ⟨key, key', hi, hstep, rfl⟩
    · simp [ServerEvent.failsToRegister]
    · obtain ⟨key₀, es, ha, hrun⟩ := hs.sync hi
      have htallies := sessionStep_tallies (accepted_agrees ha hrun) hstep
      have husers : key'.globals.currentUsers =
          s.globals.currentUsers - if key.registered = true ∧ key'.registered = false then 1 else 0 := htallies.users
      have hreg : key'.registered = true → key.registered = true := htallies.registered
      obtain ⟨hlt, hget⟩ := List.getElem?_eq_some_iff.mp hi
      have hset := @List.countP_set Key (·.registered) s.connections i key' hlt
      have hpos : key.registered = true → 0 < s.connections.countP (·.registered) := by
        intro hk
        exact List.countP_pos_iff.mpr ⟨key, List.mem_of_getElem? hi, hk⟩
      rw [hget] at hset
      show key'.globals.currentUsers - ((s.connections.set i key').countP (·.registered) : Nat) = _
      rw [hset, husers]
      simp only [ServerEvent.failsToRegister, Server.live]
      cases hk : key.registered with
      | true =>
        have hp := hpos hk
        cases hk' : key'.registered <;> simp <;> omega
      | false =>
        cases hk' : key'.registered with
        | true =>
          rw [hreg hk'] at hk
          cases hk
        | false => simp
  | datagram e =>
    obtain ⟨management, hstep, h⟩ := bind_ok h
    cases h
    have hmanaged : management.globals.currentUsers = s.globals.currentUsers := by
      have hsame := udpStep_managed (udpServe_step hstep)
      unfold Globals.Managed at hsame
      rw [hsame]
    simp only [ServerEvent.failsToRegister, Server.live, hmanaged]
    simp
  | setMaxUsers | setNewStatus | elsewhere =>
    cases h
    simp [ServerEvent.failsToRegister, Server.live, setMaxUsers, setNewStatus]

theorem users_counted (h₀ : s₀.Started) (h : run serverStep s₀ es = .ok s) :
    s.globals.currentUsers = s.live + es.countP (·.failsToRegister) := by
  have hrun : s.Grown ∧ s.globals.currentUsers - s.live = es.countP (·.failsToRegister) := by
    refine run_always (I := fun (es : List ServerEvent) (s : Server) => s.Grown ∧
      s.globals.currentUsers - s.live = es.countP (·.failsToRegister)) ?_ ?_ h
    · refine ⟨server_grown h₀.1 (run_nil s₀), ?_⟩
      simp [Server.live, h₀.1, h₀.2]
    · rintro xs e t u - ⟨hs, hcount⟩ hstep
      refine ⟨serverStep_grown hs hstep, ?_⟩
      have hsum := serverStep_users hs hstep
      rw [List.countP_append, List.countP_singleton]
      split_ifs at hsum ⊢ <;> push_cast <;> omega
  have hcount := hrun.2
  omega

theorem serverStep_users_le (hs : s.Grown) (hle : s.globals.currentUsers ≤ INT_MAX) (h : serverStep s e = .ok s') :
    s'.globals.currentUsers ≤ INT_MAX := by
  cases e with
  | accept env outcome =>
    obtain ⟨-, -, hglobals, -⟩ := serverStep_accept h
    obtain ⟨r, haccept, -⟩ := bind_ok h
    have hroom := (smtpPassiveAccept_counts haccept).1
    rw [hglobals]
    show s.globals.currentUsers + 1 ≤ INT_MAX
    omega
  | ready i op env =>
    rcases serverStep_ready h with ⟨-, rfl⟩ | ⟨key, key', hi, hstep, rfl⟩
    · exact hle
    · obtain ⟨key₀, es, ha, hrun⟩ := hs.sync hi
      have husers := (sessionStep_tallies (accepted_agrees ha hrun) hstep).users
      have hsame : (s.sync key).globals.currentUsers = s.globals.currentUsers := rfl
      show key'.globals.currentUsers ≤ INT_MAX
      rw [husers, hsame]
      split_ifs <;> omega
  | datagram e =>
    obtain ⟨management, hstep, h⟩ := bind_ok h
    cases h
    have hsame := udpStep_managed (udpServe_step hstep)
    unfold Globals.Managed at hsame
    show management.globals.currentUsers ≤ INT_MAX
    rw [hsame]
    exact hle
  | setMaxUsers | setNewStatus | elsewhere =>
    cases h
    exact hle

/-- Neither `++` nor `--` leaves the counter of users outside of the numbers of an `int`. -/
theorem users_in_range (h₀ : s₀.Started) (h : run serverStep s₀ es = .ok s) :
    0 ≤ s.globals.currentUsers ∧ s.globals.currentUsers ≤ INT_MAX := by
  constructor
  · rw [users_counted h₀ h]
    omega
  · have hrun : s.Grown ∧ s.globals.currentUsers ≤ INT_MAX := by
      refine run_always (I := fun _ (s : Server) => s.Grown ∧ s.globals.currentUsers ≤ (INT_MAX : Int)) ?_ ?_ h
      · refine ⟨server_grown h₀.1 (run_nil s₀), ?_⟩
        rw [h₀.2]
        decide
      · rintro xs e t u - ⟨hs, hle⟩ hstep
        exact ⟨serverStep_grown hs hstep, serverStep_users_le hs hle hstep⟩
    exact hrun.2

/-- The counter is the number of registered connections exactly as long as no client that was accepted
could not be registered. -/
theorem current_users_iff (h₀ : s₀.Started) (h : run serverStep s₀ es = .ok s) :
    s.globals.currentUsers = s.live ↔
      ∀ env outcome, ServerEvent.accept env outcome ∈ es → outcome.registers = true := by
  have hcount := users_counted h₀ h
  have hzero : s.globals.currentUsers = s.live ↔ es.countP (·.failsToRegister) = 0 := by
    constructor <;> intro he <;> omega
  rw [hzero, List.countP_eq_zero]
  constructor
  · intro hnone env outcome hmem
    have hno := hnone _ hmem
    simpa [ServerEvent.failsToRegister] using hno
  · intro hall e hmem
    cases e with
    | accept env outcome => simp [ServerEvent.failsToRegister, hall env outcome hmem]
    | _ => simp [ServerEvent.failsToRegister]

/-- The server when it has been started. -/
def startedServer : Server :=
  { globals := initialGlobals, tree := firstOs.tree, fds := firstOs.fds, clients := [], program := none, connections := [] }

theorem started_startedServer : startedServer.Started := ⟨rfl, rfl⟩

/-- One client is greeted; the next finds the server full, and goes on nevertheless. -/
def twoUsers : List ServerEvent :=
  [.accept (readyEnv []) firstOutcome, .setMaxUsers 1, .accept (readyEnv []) { firstOutcome with client := some 6 },
    .ready 1 .write (readyEnv []), .ready 1 .read (readyEnv (ascii "EHLO there\r\n"))]

theorem current_users_iff_two_users :
    ∃ s, run serverStep startedServer twoUsers = .ok s ∧ (s.globals.currentUsers = s.live ↔
      ∀ env outcome, ServerEvent.accept env outcome ∈ twoUsers → outcome.registers = true) := by
  obtain ⟨s, h⟩ : ∃ s, run serverStep startedServer twoUsers = .ok s := by
    apply ok_of_toOption
    decide +kernel
  exact ⟨s, h, current_users_iff started_startedServer h⟩

/-- A client that could not be registered is counted for good. -/
theorem current_users_unregistered :
    ∃ s₀ es s, Server.Started s₀ ∧ run serverStep s₀ es = .ok s ∧ s.globals.currentUsers ≠ s.live := by
  have hany : ((run serverStep startedServer [.accept (readyEnv []) { firstOutcome with registers := false }]).toOption.any
      fun s => decide (s.globals.currentUsers ≠ s.live)) = true := by
    decide +kernel
  obtain ⟨s, h, hne⟩ := ok_of_any hany
  exact ⟨startedServer, _, s, started_startedServer, h, hne⟩

end Users

/-- The state in which a connection was registered. -/
def Key.StartedIn (key : Key) (st : SmtpState) : Prop := key.data.stm.initial = st.index

instance (key : Key) (st : SmtpState) : Decidable (key.StartedIn st) := inferInstanceAs (Decidable (_ = _))

/-- The live connections that were greeted. -/
def Server.greeted (s : Server) : Nat := s.connections.countP fun key => key.registered && key.StartedIn .greetingWrite

/-- The states of a connection that is turned away. -/
def SmtpState.TurnsAway (st : SmtpState) : Prop :=
  st = .failedConnectionWrite ∨ st = .failedConnectionRead ∨ st = .done ∨ st = .error

/-- An act on the socket of the client. -/
def Act.OnSocket : Act → Prop
  | .received _ | .sent _ | .closed _ => True
  | _ => False

/-- A connection that is turned away has no recipients, and touches nothing but its socket. -/
structure Key.TurnedAway (key : Key) : Prop where
  agrees : key.Agrees key.state
  state : key.state.TurnsAway
  rcptList : key.data.rcptList = []
  acts : ∀ a ∈ key.os.trace, a.OnSocket

section Refused

variable {env : Env} {key key₁ key₂ key' : Key} {st next : SmtpState} {ev : Event} {es : List Event}

theorem onSocket_append {acts acts' : List Act} (h : ∀ a ∈ acts, a.OnSocket) (h' : ∀ a ∈ acts', a.OnSocket) :
    ∀ a ∈ acts ++ acts', a.OnSocket := by
  intro a ha
  exact (List.mem_append.mp ha).elim (h a) (h' a)

theorem onSocket_received (received : List (List UInt8)) : ∀ a ∈ received.map Act.received, a.OnSocket := by
  intro a ha
  obtain ⟨bytes, -, rfl⟩ := List.mem_map.mp ha
  trivial

theorem onSocket_sent (sent : List (List UInt8)) : ∀ a ∈ sent.map Act.sent, a.OnSocket := by
  intro a ha
  obtain ⟨bytes, -, rfl⟩ := List.mem_map.mp ha
  trivial

/-- A turn of a connection that is turned away: the refusal is sent again, whatever is read. -/
theorem Key.Turn.turnsAway (h : key.Turn env st next key₁) (hst : st.TurnsAway) (hlist : key.data.rcptList = [])
    (hacts : ∀ a ∈ key.os.trace, a.OnSocket) :
    next.TurnsAway ∧ key₁.data.rcptList = [] ∧ ∀ a ∈ key₁.os.trace, a.OnSocket := by
  have hreads : st.readsRequest = true → st = .failedConnectionRead := by
    intro hr
    rcases hst with rfl | rfl | rfl | rfl
    · cases hr
    · rfl
    · cases hr
    · cases hr
  have hwrites : st.interest = .write → st = .failedConnectionWrite := by
    intro hw
    rcases hst with rfl | rfl | rfl | rfl
    · rfl
    · cases hw
    · cases hw
    · cases hw
  have hbody : st ≠ .mailInfoRead := by
    rintro rfl
    rcases hst with he | he | he | he <;> cases he
  cases h with
  | lost => exact ⟨Or.inr (Or.inr (Or.inr rfl)), hlist, onSocket_append hacts (onSocket_received [])⟩
  | listened => exact ⟨hst, hlist, onSocket_append hacts (onSocket_received _)⟩
  | @answered rb g received p errored _ _ reads takes fed done answer =>
    have hasking : ∀ a ∈ (key.asking rb g received p).os.trace, a.OnSocket :=
      onSocket_append hacts (onSocket_received received)
    cases answer with
    | quit => exact ⟨Or.inr (Or.inr (Or.inl rfl)), hlist, onSocket_append hasking (onSocket_sent _)⟩
    | turnedAway => exact ⟨Or.inl rfl, hlist, hasking⟩
    | served serves => exact absurd (hreads reads) serves.states.1
  | received state | stored state => exact absurd state hbody
  | unsent => exact ⟨Or.inr (Or.inr (Or.inr rfl)), hlist, onSocket_append hacts (onSocket_sent [])⟩
  | sending => exact ⟨hst, hlist, onSocket_append hacts (onSocket_sent _)⟩
  | sent writes prepares taken any sized split rest after =>
    have hst' := hwrites writes
    subst hst'
    cases after
    exact ⟨Or.inr (Or.inl rfl), hlist, onSocket_append hacts (onSocket_sent _)⟩

theorem sessionStep_turnedAway (ha : key.TurnedAway) (h : sessionStep key ev = .ok key') : key'.TurnedAway := by
  have hk' := sessionStep_agrees ha.agrees h
  rcases sessionStep_turn ha.agrees.sound ha.agrees.output h with
    ⟨op, env, -, -, rfl⟩ | ⟨globals, tree, fds, -, rfl⟩ | ⟨op, env, next, key₁, key₂, -, -, hp⟩
  · exact ha
  · exact ⟨hk', ha.state, ha.rcptList, ha.acts⟩
  · obtain ⟨hnext, hlist, hacts⟩ := hp.turn.turnsAway ha.state ha.rcptList ha.acts
    have hreg := (changeState_turned (hp.turn.turned ha.agrees hp.registered) hp.hooks).registered
    have hplain : key.state ≠ .mailInfoWrite := by
      intro he
      rcases ha.state with hs | hs | hs | hs <;> cases he.symm.trans hs
    obtain ⟨hos, hlist₂⟩ := changeState_keeps_files (fun he => absurd he hplain) hp.hooks
    have hacts₂ : ∀ a ∈ key₂.os.trace, a.OnSocket := by
      rw [hos]
      exact hacts
    refine ⟨hk', (settle_state hp.settled).symm ▸ hnext, ?_, ?_⟩
    · rw [(settle_ok hp.settled).1]
      exact hlist₂.trans hlist
    · rcases settle_eq hreg hp.settled with ⟨-, rfl⟩ | ⟨-, rfl⟩
      · exact onSocket_append hacts₂ fun a ha => List.mem_singleton.mp ha ▸ trivial
      · exact hacts₂

theorem sessionStep_startedIn (hk : key.Agrees key.state) (h : sessionStep key ev = .ok key') :
    key'.data.stm.initial = key.data.stm.initial := by
  rcases sessionStep_turn hk.sound hk.output h with
    ⟨op, env, -, -, rfl⟩ | ⟨globals, tree, fds, -, rfl⟩ | ⟨op, env, next, key₁, key₂, -, -, hp⟩
  · rfl
  · rfl
  · rw [(settle_ok hp.settled).1]

/-- A connection that was registered to be turned away is turned away. -/
theorem turnedAway_run (ha : Accepted key) (h : run sessionStep key es = .ok key')
    (hst : key'.StartedIn .failedConnectionWrite) : key'.TurnedAway := by
  refine accepted_invariant (I := fun _ key' => key'.StartedIn .failedConnectionWrite → key'.TurnedAway) ha ?_ ?_ h hst
  · intro client st g os hw hstart
    have hstate : key.state = .failedConnectionWrite :=
      hw.fresh.sound.machine.state_eq.trans (SmtpState.index_injective (hw.initial.symm.trans hstart))
    refine ⟨accepted_agrees ha (run_nil key), Or.inl hstate, hw.fresh.rcptList, fun a ha => ?_⟩
    rw [hw.fresh.trace] at ha
    cases ha
  · intro xs ev key₁ key₂ _ hk hi hstep hstart
    exact sessionStep_turnedAway (hi ((sessionStep_startedIn hk hstep).symm.trans hstart)) hstep

end Refused

section Limit

variable {s₀ s s' : Server} {es : List ServerEvent}

theorem greeted_le_users (h₀ : s₀.Started) (h : run serverStep s₀ es = .ok s) :
    (s.greeted : Int) ≤ s.globals.currentUsers := by
  have hcount := users_counted h₀ h
  have hle : s.greeted ≤ s.live := by
    refine List.countP_mono_left fun key _ hkey => ?_
    exact (Bool.and_eq_true_iff.mp hkey).1
  omega

/-- A connection is greeted only while fewer than the limit are, and one that is not is turned away in
every state that it comes to: it gets no recipient and opens no file, and no message is counted for it. -/
theorem admission_limit (h₀ : s₀.Started) (h : run serverStep s₀ es = .ok s) :
    (∀ env outcome s' key, serverStep s (.accept env outcome) = .ok s' → s'.connections = s.connections ++ [key] →
      key.state = .greetingWrite → (s.greeted : Int) < s.globals.maxUser) ∧
    (∀ key ∈ s.connections, key.StartedIn .failedConnectionWrite →
      (key.state = .failedConnectionWrite ∨ key.state = .failedConnectionRead ∨ key.state = .done ∨ key.state = .error) ∧
        key.data.rcptList = [] ∧ (∀ path, .call (.openFile path) ∉ key.os.trace) ∧ ∀ fd, .opened fd ∉ key.os.trace) ∧
    ∀ i op env s' key, s.connections[i]? = some key → key.StartedIn .failedConnectionWrite →
      serverStep s (.ready i op env) = .ok s' → s'.globals.mailsSent = s.globals.mailsSent := by
  have hgrown := server_grown h₀.1 h
  refine ⟨?_, ?_, ?_⟩
  · intro env outcome s' key hstep hnew hstate
    obtain ⟨client, -, -, ⟨-, hsame⟩ | ⟨-, key', os, hmore, -, hw⟩⟩ := serverStep_accept hstep
    · have hlen := congrArg List.length (hsame.symm.trans hnew)
      rw [List.length_append, List.length_singleton] at hlen
      omega
    · obtain rfl : key' = key := by
        have hkeys := List.append_cancel_left (hmore.symm.trans hnew)
        exact (List.cons.inj hkeys).1
      have hadmitted : s.globals.admission = .greetingWrite := hw.fresh.sound.machine.state_eq.symm.trans hstate
      have hroom : s.globals.currentUsers < s.globals.maxUser := by
        by_contra hfull
        rw [Globals.admission, if_neg hfull] at hadmitted
        cases hadmitted
      have hle := greeted_le_users h₀ h
      omega
  · intro key hkey hstart
    obtain ⟨key₀, es, ha, hrun⟩ := hgrown key hkey
    obtain ⟨-, hstate, hlist, hacts⟩ := turnedAway_run ha hrun hstart
    exact ⟨hstate, hlist, fun path hm => hacts _ hm, fun fd hm => hacts _ hm⟩
  · intro i op env s' key hi hstart hstep
    rcases serverStep_ready hstep with ⟨hnone, -⟩ | ⟨key', key'', hi', hready, rfl⟩
    · rw [hi] at hnone
      cases hnone
    · obtain rfl : key = key' := Option.some.inj (hi.symm.trans hi')
      obtain ⟨key₀, es, ha, hrun⟩ := hgrown.sync hi
      have haway := turnedAway_run ha hrun hstart
      have hmails := (sessionStep_tallies haway.agrees hready).mails
      have hnot : ¬ ((s.sync key).state = .mailInfoWrite ∧ key''.state ≠ .mailInfoWrite) := by
        rintro ⟨he, -⟩
        rcases haway.state with hs | hs | hs | hs <;> cases he.symm.trans hs
      rw [if_neg hnot, Int.add_zero] at hmails
      exact hmails

theorem admission_limit_two_users :
    ∃ s key, run serverStep startedServer twoUsers = .ok s ∧ key ∈ s.connections ∧
      key.StartedIn .failedConnectionWrite ∧ key.data.rcptList = [] ∧ ∀ path, .call (.openFile path) ∉ key.os.trace := by
  have hany : ((run serverStep startedServer twoUsers).toOption.any fun s =>
      decide (∃ key ∈ s.connections, key.StartedIn .failedConnectionWrite)) = true := by
    decide +kernel
  obtain ⟨s, h, key, hkey, hstart⟩ := ok_of_any hany
  obtain ⟨-, hlist, hfiles, -⟩ := (admission_limit started_startedServer h).2.1 key hkey hstart
  exact ⟨s, key, h, hkey, hstart, hlist, hfiles⟩

end Limit

end Smtpd
