import Smtpd.Counters
import Smtpd.UdpNoninterference

namespace Smtpd

open Checked Runs FileSystem

/-- The whole server: the shared variables, the files and the descriptors, the management clients,
what the passive socket was registered with, and every connection that was ever registered. Those
that are over stay in the list, unregistered. -/
structure Server where
  globals : Globals
  tree : Tree
  fds : List Nat
  clients : List Client
  program : Option (List UInt8)
  connections : List Key

/-- What the selector or the system can do next. -/
inductive ServerEvent
  | accept (env : Env) (outcome : AcceptOutcome)
  | ready (i : Nat) (op : Ready) (env : Env)
  | datagram (e : UdpEvent)
  | setMaxUsers (n : Int)
  | setNewStatus (newStatus : Bool)
  /-- other programs change the files, or the descriptors change hands elsewhere in the server -/
  | elsewhere (tree : Tree) (fds : List Nat)

/-- A connection that sees what it shares as it is now. -/
def Server.sync (s : Server) (key : Key) : Key :=
  { key with globals := s.globals, os := { key.os with tree := s.tree, fds := s.fds } }

def serverStep (s : Server) : ServerEvent → Result Server
  | .accept env outcome => do
    let (globals, os, key) ← smtpPassiveAccept env outcome s.program s.globals
      { tree := s.tree, fds := s.fds, trace := [] }
    .ok { s with globals, tree := os.tree, fds := os.fds, connections := s.connections ++ key.toList }
  | .ready i op env =>
    match s.connections[i]? with
    | some key => do
      let key ← sessionStep (s.sync key) (.ready op env)
      .ok { s with
        globals := key.globals
        tree := key.os.tree
        fds := key.os.fds
        connections := s.connections.set i key }
    | none => .ok s
  | .datagram e => do
    let management ← udpServe { clients := s.clients, globals := s.globals } e
    .ok { s with globals := management.globals, clients := management.clients }
  | .setMaxUsers n => .ok { s with globals := Smtpd.setMaxUsers s.globals n }
  | .setNewStatus newStatus => .ok { s with globals := Smtpd.setNewStatus s.globals newStatus }
  | .elsewhere tree fds => .ok { s with tree, fds }

/-- A server before its first event. -/
def Server.Started (s : Server) : Prop := s.connections = [] ∧ s.globals.currentUsers = 0

section Steps

variable {s₀ s s' : Server} {es : List ServerEvent} {e : ServerEvent} {i : Nat} {op : Ready} {env : Env}
  {key key' : Key} {outcome : AcceptOutcome}

/-- What an event does to a connection, as far as the server is concerned. -/
theorem serverStep_ready (h : serverStep s (.ready i op env) = .ok s') :
    s.connections[i]? = none ∧ s' = s ∨
      ∃ key key', s.connections[i]? = some key ∧ sessionStep (s.sync key) (.ready op env) = .ok key' ∧
        s' = { s with
          globals := key'.globals
          tree := key'.os.tree
          fds := key'.os.fds
          connections := s.connections.set i key' } := by
  cases hi : s.connections[i]? with
  | none =>
    simp only [serverStep, hi] at h
    cases h
    exact Or.inl ⟨rfl, rfl⟩
  | some key =>
    simp only [serverStep, hi] at h
    obtain ⟨key', hstep, h⟩ := bind_ok h
    cases h
    exact Or.inr ⟨key, key', rfl, hstep, rfl⟩

/-- A client is counted, whether it is registered or not. -/
theorem serverStep_accept (h : serverStep s (.accept env outcome) = .ok s') :
    ∃ client, outcome.client = some client ∧
      s'.globals = { s.globals with
        program := s.program
        currentUsers := s.globals.currentUsers + 1
        historicUsers := s.globals.historicUsers + 1 } ∧
      (outcome.registers = false ∧ s'.connections = s.connections ∨
        outcome.registers = true ∧ ∃ key os, s'.connections = s.connections ++ [key] ∧ Accepted key ∧
          key.Welcomed client s.globals.admission s'.globals os) := by
  obtain ⟨⟨globals, os, r⟩, haccept, h⟩ := bind_ok h
  cases h
  obtain ⟨client, hclient, rfl, ⟨hr, rfl, key, rfl, hw⟩ | ⟨hr, rfl, rfl⟩⟩ := smtpPassiveAccept_ok haccept
  · exact ⟨client, hclient, rfl, Or.inr ⟨hr, key, _, rfl, ⟨_, _, _, _, _, _, _, haccept⟩, hw⟩⟩
  · exact ⟨client, hclient, rfl, Or.inl ⟨hr, List.append_nil _⟩⟩

/-- Every connection has run from its registration on, with whatever happened around it. -/
def Server.Grown (s : Server) : Prop :=
  ∀ key ∈ s.connections, ∃ key₀ es, Accepted key₀ ∧ run sessionStep key₀ es = .ok key

/-- A connection that is looked at again sees what happened elsewhere. -/
theorem sync_run {key₀ : Key} {es : List Event} (h : run sessionStep key₀ es = .ok key) :
    run sessionStep key₀ (es ++ [.elsewhere s.globals s.tree s.fds]) = .ok (s.sync key) :=
  run_concat_ok.mpr ⟨key, h, rfl⟩

theorem serverStep_grown (hs : s.Grown) (h : serverStep s e = .ok s') : s'.Grown := by
  cases e with
  | accept env outcome =>
    obtain ⟨client, -, -, ⟨-, hsame⟩ | ⟨-, key, os, hmore, ha, -⟩⟩ := serverStep_accept h
    · intro key hkey
      exact hs key (hsame ▸ hkey)
    · intro key' hkey
      rw [hmore] at hkey
      rcases List.mem_append.mp hkey with hkey | hkey
      · exact hs key' hkey
      · rw [List.mem_singleton.mp hkey]
        exact ⟨key, [], ha, rfl⟩
  | ready i op env =>
    rcases serverStep_ready h with ⟨-, rfl⟩ | ⟨key, key', hi, hstep, rfl⟩
    · exact hs
    · intro key₁ hkey
      rcases List.mem_or_eq_of_mem_set hkey with hkey | rfl
      · exact hs key₁ hkey
      · obtain ⟨key₀, es, ha, hrun⟩ := hs key (List.mem_of_getElem? hi)
        exact ⟨key₀, _, ha, run_concat_ok.mpr ⟨_, sync_run hrun, hstep⟩⟩
  | datagram e =>
    obtain ⟨management, -, h⟩ := bind_ok h
    cases h
    exact hs
  | setMaxUsers | setNewStatus | elsewhere =>
    cases h
    exact hs

theorem server_grown (h₀ : s₀.connections = []) (h : run serverStep s₀ es = .ok s) : s.Grown := by
  refine run_always (I := fun _ s => s.Grown) ?_ ?_ h
  · intro key hkey
    rw [h₀] at hkey
    cases hkey
  · intro xs e t u _ hs hstep
    exact serverStep_grown hs hstep

/-- What can be said of every connection by itself can be said of those of the server. -/
theorem Server.Grown.sync (hs : s.Grown) (hi : s.connections[i]? = some key) :
    ∃ key₀ es, Accepted key₀ ∧ run sessionStep key₀ es = .ok (s.sync key) := by
  obtain ⟨key₀, es, ha, hrun⟩ := hs key (List.mem_of_getElem? hi)
  exact ⟨key₀, _, ha, sync_run hrun⟩

end Steps

end Smtpd
