import Smtpd.UdpCommands

namespace Smtpd

open Checked CString Runs

/-- What happens to the management socket, and what the rest of the server does meanwhile. -/
inductive ManagementEvent
  | socket (e : UdpEvent)
  | elsewhere (globals : Globals)

def managementStep (s : UdpServer) : ManagementEvent → Result UdpServer
  | .socket e => udpStep s e
  | .elsewhere globals => .ok { s with globals }

/-- The event is a datagram from this address. -/
def ManagementEvent.sentBy (a : List UInt8) : ManagementEvent → Bool
  | .socket (.datagram clientAddr _ _) => decide (clientAddr = a)
  | _ => false

/-- The event does not find the memory exhausted. -/
def ManagementEvent.Allocates : ManagementEvent → Prop
  | .socket (.datagram _ _ memory) => memory = true
  | _ => True

/-- What an event from an address makes of its state. -/
def ClientState.onEvent (st : ClientState) : ManagementEvent → ClientState
  | .socket (.datagram _ d _) => st.next d
  | _ => st

section Clients

variable {clients : List Client} {a : List UInt8} {memory : Bool} {st : ClientState}

theorem setClientState_addrs (a : List UInt8) (st : ClientState) (clients : List Client) :
    (setClientState a st clients).map Client.clientAddr = clients.map Client.clientAddr := by
  induction clients with
  | nil => rfl
  | cons c cs ih =>
    unfold setClientState
    split
    · rfl
    · rw [List.map_cons, List.map_cons, ih]

/-- An entry is made only for an address that has none. -/
theorem knownClients_nodup (h : (clients.map Client.clientAddr).Nodup) :
    ((knownClients clients a memory).map Client.clientAddr).Nodup := by
  unfold knownClients addClient
  split
  next => exact h
  next hnone =>
    split_ifs
    · rw [List.map_cons, List.nodup_cons]
      refine ⟨fun hm => ?_, h⟩
      obtain ⟨c, hc, ha⟩ := List.mem_map.mp hm
      have hno := List.find?_eq_none.mp hnone c hc
      simp [ha] at hno
    · exact h

theorem findClient_known_some (hmemory : memory = true) :
    ∃ c, findClient (knownClients clients a memory) a = some c := by
  unfold knownClients
  cases hf : findClient clients a with
  | some c => exact ⟨c, by simp [hf]⟩
  | none => exact ⟨{ clientAddr := a, state := .init }, by simp [addClient, hmemory, findClient]⟩

end Clients

section Progress

variable {g : Globals} {r t : List UInt8} {st : ClientState}

/-- The name and the password are compared within the datagram. -/
theorem handleAuthentication_total (r : List UInt8) (hst : st = .waitUsername ∨ st = .waitPassword) :
    Ensures (fun _ => True) (fun _ => False) (handleAuthentication st (r ++ [0]) r.length) := by
  obtain ⟨n, same, hn, hsame, -⟩ := strncasecmp_received r
  refine Ensures.bind (ensures_demand_some hn rfl) fun m hm => ?_
  obtain rfl : n = m := hm
  rcases hst with rfl | rfl
  · refine Ensures.bind (P := fun _ => True) (ensures_demand_some hsame trivial) fun b _ => ?_
    exact ensures_ite (fun _ => trivial) (fun _ => trivial)
  · refine Ensures.bind (P := fun _ => True) (ensures_demand_some hsame trivial) fun b _ => ?_
    exact ensures_ite (fun _ => trivial) (fun _ => trivial)

/-- Of the shared variables only those change that a management client can set. -/
def Globals.Managed (g g' : Globals) : Prop :=
  g' = { g with transformations := g'.transformations, maxUser := g'.maxUser }

theorem managementAnswer_managed (command : List UInt8) : g.Managed (managementAnswer g command).1 := by
  unfold managementAnswer
  split_ifs <;> rfl

end Progress

section Steps

variable {s s' : UdpServer} {a d : List UInt8} {memory : Bool} {e : ManagementEvent}

/-- The list has one entry an address. -/
def UdpServer.Distinct (s : UdpServer) : Prop := (s.clients.map Client.clientAddr).Nodup

/-- A datagram is handled, keeps the entries apart, and touches the rest of the server only if its
sender is authenticated. -/
theorem udpStep_total (hs : s.Distinct) (hmemory : memory = true) :
    Ensures (fun s' => s'.Distinct ∧ (s.stateOf a ≠ .authSuccess → s'.globals = s.globals)) (fun _ => False)
      (udpStep s (.datagram a d memory)) := by
  obtain ⟨c, hc⟩ := @findClient_known_some s.clients a memory hmemory
  have hstate : c.state = s.stateOf a := findClient_known hc
  have hknown : ((knownClients s.clients a memory).map Client.clientAddr).Nodup := knownClients_nodup hs
  have hset : ∀ st, ((setClientState a st (knownClients s.clients a memory)).map Client.clientAddr).Nodup := by
    intro st
    rw [setClientState_addrs]
    exact hknown
  refine Ensures.bind (P := fun r : UdpServer × List Reply => r.1.Distinct ∧
    (s.stateOf a ≠ .authSuccess → r.1.globals = s.globals)) ?_ fun r hr => hr
  refine Ensures.bind (ensures_demand_some hc rfl) fun c' hc' => ?_
  obtain rfl : c = c' := hc'
  cases hst : c.state with
  | init => exact ⟨hset _, fun _ => rfl⟩
  | waitUsername | waitPassword =>
    have hauth := @handleAuthentication_total c.state (d.take (bufferSize - 1)) (by simp [hst])
    rw [hst] at hauth
    exact Ensures.bind hauth fun r _ => ⟨hset _, fun _ => rfl⟩
  | authSuccess =>
    dsimp only
    rw [udpCommand_eq (cstring_terminated _)]
    exact ⟨hknown, fun hn => absurd (hstate.symm.trans hst) hn⟩
  | authFailed => exact ⟨hknown, fun _ => rfl⟩

/-- The shared variables change by an answer only. -/
theorem udpReadHandler_globals {ev : UdpEvent} {replies : List Reply} (h : udpReadHandler s ev = .ok (s', replies)) :
    s'.globals = s.globals ∨ ∃ command, s'.globals = (managementAnswer s.globals command).1 := by
  cases ev with
  | failure =>
    cases h
    exact Or.inl rfl
  | datagram a d memory =>
    obtain ⟨c, -, h⟩ := bind_ok h
    dsimp only at h
    split at h
    · cases h
      exact Or.inl rfl
    · obtain ⟨r, -, h⟩ := bind_ok h
      cases h
      exact Or.inl rfl
    · obtain ⟨r, -, h⟩ := bind_ok h
      cases h
      exact Or.inl rfl
    · obtain ⟨⟨globals, rta⟩, hcommand, h⟩ := bind_ok h
      cases h
      have hanswer := Except.ok.inj ((udpCommand_eq (cstring_terminated _)).symm.trans hcommand)
      exact Or.inr ⟨_, (congrArg Prod.fst hanswer).symm⟩
    · cases h
      exact Or.inl rfl

/-- A datagram changes of the shared variables only those that a management client can set. -/
theorem udpStep_managed {ev : UdpEvent} (h : udpStep s ev = .ok s') : s.globals.Managed s'.globals := by
  obtain ⟨⟨t, out⟩, hh, h⟩ := bind_ok h
  cases h
  obtain hsame | ⟨command, hanswer⟩ := udpReadHandler_globals hh
  · rw [hsame]
    rfl
  · rw [hanswer]
    exact managementAnswer_managed command

theorem managementStep_total (s : UdpServer) (e : ManagementEvent) (hs : s.Distinct) (he : e.Allocates) :
    Ensures UdpServer.Distinct (fun _ => False) (managementStep s e) := by
  cases e with
  | elsewhere globals => exact hs
  | socket e =>
    cases e with
    | failure => exact hs
    | datagram a d memory => exact (udpStep_total hs he).mono fun s' hs' => hs'.1

/-- A datagram moves the state of its sender. -/
theorem managementStep_moves (a : List UInt8) (s : UdpServer) (e : ManagementEvent) (s' : UdpServer)
    (h : managementStep s e = .ok s') (hown : e.sentBy a = true) : s'.stateOf a = (s.stateOf a).onEvent e := by
  cases e with
  | elsewhere globals => cases hown
  | socket e =>
    cases e with
    | failure => cases hown
    | datagram b d memory =>
      obtain rfl : b = a := of_decide_eq_true hown
      exact (udpStep_datagram h).1

/-- What others send, or what happens elsewhere, moves the state of no address. -/
theorem managementStep_keeps (a : List UInt8) (s : UdpServer) (e : ManagementEvent) (s' : UdpServer)
    (h : managementStep s e = .ok s') (hother : e.sentBy a = false) : s'.stateOf a = s.stateOf a := by
  cases e with
  | elsewhere globals =>
    cases h
    rfl
  | socket e =>
    cases e with
    | failure => rw [udpStep_failure h]
    | datagram b d memory =>
      have hne : a ≠ b := fun he => of_decide_eq_false hother he.symm
      exact (udpStep_datagram h).2 a hne

end Steps

/-- In every interleaving of datagrams with one another and with the rest of the server, every
datagram is handled, no address gets a second entry, the state of each address is the one that its own
datagrams alone lead to, and a datagram of an address that is not authenticated leaves the
transformations and the limit of users alone. -/
theorem udp_noninterference (g : Globals) (es : List ManagementEvent) (hmemory : ∀ e ∈ es, e.Allocates) :
    ∃ s, run managementStep { clients := [], globals := g } es = .ok s ∧
      (s.clients.map Client.clientAddr).Nodup ∧
      (∀ a g', ∃ alone, run managementStep { clients := [], globals := g' } (es.filter (·.sentBy a)) = .ok alone ∧
        s.stateOf a = alone.stateOf a) ∧
      ∀ a d, s.stateOf a ≠ .authSuccess → ∃ s', udpStep s (.datagram a d true) = .ok s' ∧
        s'.globals.transformations = s.globals.transformations ∧ s'.globals.maxUser = s.globals.maxUser := by
  have hstart : ∀ g, UdpServer.Distinct { clients := [], globals := g } := fun _ => List.nodup_nil
  obtain ⟨s, hrun, hs⟩ := (run_total managementStep_total (hstart g) hmemory).exists_ok
  refine ⟨s, hrun, hs, fun a g' => ?_, fun a d hst => ?_⟩
  · have hown : ∀ e ∈ es.filter (·.sentBy a), e.Allocates := fun e he => hmemory e (List.mem_of_mem_filter he)
    obtain ⟨alone, halone, -⟩ := (run_total managementStep_total (hstart g') hown).exists_ok
    refine ⟨alone, halone, ?_⟩
    refine observed_congr (managementStep_moves a) (managementStep_keeps a) hrun halone rfl ?_
    rw [List.filter_filter]
    simp
  · obtain ⟨s', hstep, -, hglobals⟩ := (udpStep_total (a := a) (d := d) hs rfl).exists_ok
    rw [← hglobals hst]
    exact ⟨s', hstep, rfl, rfl⟩

/-- Two clients whose datagrams alternate, one of which is authenticated. -/
abbrev twoClients : List ManagementEvent :=
  [.socket (.datagram (ascii "10.0.0.7") (ascii "hello") true), .socket (.datagram (ascii "10.0.0.8") (ascii "hello") true),
    .socket (.datagram (ascii "10.0.0.7") (ascii "user\n") true), .elsewhere { initialGlobals with currentUsers := 3 },
    .socket (.datagram (ascii "10.0.0.8") (ascii "root\n") true), .socket (.datagram (ascii "10.0.0.7") (ascii "user\n") true)]

theorem udp_noninterference_two_clients :
    ∃ s, run managementStep blankServer twoClients = .ok s ∧ (s.clients.map Client.clientAddr).Nodup ∧
      s.stateOf (ascii "10.0.0.8") ≠ .authSuccess ∧
      ∃ s', udpStep s (.datagram (ascii "10.0.0.8") (ascii "transon\n") true) = .ok s' ∧
        s'.globals.transformations = s.globals.transformations := by
  have hmemory : ∀ e ∈ twoClients, e.Allocates := by
    intro e he
    simp only [twoClients, List.mem_cons, List.not_mem_nil, or_false] at he
    rcases he with rfl | rfl | rfl | rfl | rfl | rfl <;> trivial
  obtain ⟨s, hrun, hdistinct, halone, hother⟩ := udp_noninterference initialGlobals twoClients hmemory
  obtain ⟨alone, hown, hsame⟩ := halone (ascii "10.0.0.8") initialGlobals
  have hstate : s.stateOf (ascii "10.0.0.8") = .waitUsername := by
    rw [hsame]
    have hlone : run managementStep blankServer (twoClients.filter (·.sentBy (ascii "10.0.0.8"))) =
        .ok { clients := [⟨ascii "10.0.0.8", .waitUsername⟩], globals := initialGlobals } := by
      decide +kernel
    cases hown.symm.trans hlone
    decide
  have hnot : s.stateOf (ascii "10.0.0.8") ≠ .authSuccess := by
    rw [hstate]
    decide
  obtain ⟨s', hstep, htrans, -⟩ := hother (ascii "10.0.0.8") (ascii "transon\n") hnot
  exact ⟨s, hrun, hdistinct, hnot, s', hstep, htrans⟩

end Smtpd
