import Smtpd.Ownership
import Smtpd.SelectorRounds

namespace Smtpd.Serving

open Checked Runs Selector FileSystem

/-- The functions that the handlers of the server point to. -/
inductive Callback
  | smtpPassiveAccept | udpReadHandler | smtpRead | smtpWrite | smtpClose
deriving DecidableEq, Repr

/-- What `data` of a key points to: the program of the transformations, or the `struct smtp` of a connection. -/
inductive Attachment
  | program (text : List UInt8)
  | connection (i : Nat)
deriving DecidableEq, Repr

/-- The handlers that `main` registers. -/
def smtp : FdHandler Callback :=
  { handleRead := some .smtpPassiveAccept, handleWrite := none, handleBlock := none, handleClose := none }

def udp : FdHandler Callback :=
  { handleRead := some .udpReadHandler, handleWrite := none, handleBlock := none, handleClose := none }

def smtpHandler : FdHandler Callback :=
  { handleRead := some .smtpRead, handleWrite := some .smtpWrite, handleBlock := none, handleClose := some .smtpClose }

/-- What the system answers while one callback runs: to a connection, to `accept` and to what follows it, and to
`recvfrom`. The callback finds the files as other programs have left them. -/
structure Turn where
  tree : Tree
  env : Env
  accepts : Bool
  nio : Bool
  memory : Bool
  table : Option (Nat → Item Callback Attachment)
  datagram : UdpEvent

/-- The process: the state of the server, and its selector. A `struct smtp` is allocated as long as its connection is
registered. -/
structure Program where
  server : Server
  selector : SelectorWorld Callback Attachment

/-- `OP_NOOP`, `OP_READ` and `OP_WRITE` -/
def op : Interest → FdInterest
  | .noop => OP_NOOP
  | .read => OP_READ
  | .write => OP_WRITE

def interestOf (i : FdInterest) : Interest :=
  if i = OP_READ then .read else if i = OP_WRITE then .write else .noop

/-- A key of the selector, to which the connection belongs. The selector tells whether it is registered, and for what. -/
def attach (s : Server) (d : Dispatch Callback Attachment) (key : Key) : Key :=
  let item := d.selector.lookup d.key.fd.toNat
  { s.sync key with
    fd := d.key.fd.toNat
    registered := item.isSome
    interest := item.elim .noop fun item => interestOf item.interest }

/-- The calls of the selector that a connection has made when its callback returns: the last interest that it has set,
or what `smtp_done` does. `smtp_close` calls the selector no more. -/
def callsOf (key : SelectorKey Attachment) (k : Key) : List (SelectorAct Callback Attachment) :=
  if k.registered then [.make (.setInterestKey (some key) (op k.interest)) []] else [.make (.unregister key.s key.fd) []]

/-- `smtp_read` and `smtp_write`, on the `struct smtp` that the key is given. -/
def smtpCallback (callback : Env → Key → Result Key) (env : Env) (s : Server) (d : Dispatch Callback Attachment) :
    Result (Server × List (SelectorAct Callback Attachment)) :=
  match d.key.data with
  | some (.connection i) => do
    let key ← demand .undefined (s.connections[i]?.filter fun key => key.registered)
    let key ← callback env (attach s d key)
    .ok ({ s with
      globals := key.globals
      tree := key.os.tree
      fds := key.os.fds
      connections := s.connections.set i key }, callsOf d.key key)
  | _ => .error .undefined

/-- What `smtp_passive_accept` finds in `data` of its key. -/
def programOf : Option Attachment → Option (List UInt8)
  | some (.program text) => some text
  | _ => none

/-- The registration of the client that `smtp_passive_accept` has accepted. -/
def registration (s : Server) (turn : Turn) : SelectorCall Callback Attachment :=
  .register .self (lowestFree s.fds) (some smtpHandler) OP_WRITE (some (.connection s.connections.length)) turn.table

def acceptOutcome (turn : Turn) (s : Server) (selector : FdSelector Callback Attachment) : AcceptOutcome :=
  { client := if turn.accepts then some (lowestFree s.fds) else none
    nio := turn.nio
    memory := turn.memory
    registers := match (registration s turn).apply .ok ⟨selector, []⟩ with
      | .ok (status, _) => status = .success
      | .error _ => false }

def acceptCallback (turn : Turn) (s : Server) (d : Dispatch Callback Attachment) :
    Result (Server × List (SelectorAct Callback Attachment)) := do
  let (globals, os, key) ← smtpPassiveAccept turn.env (acceptOutcome turn s d.selector) (programOf d.key.data) s.globals
    { tree := s.tree, fds := s.fds, trace := [] }
  .ok ({ s with globals, tree := os.tree, fds := os.fds, connections := s.connections ++ key.toList },
    [.make (registration s turn) []])

/-- What the server makes of a callback, and the calls of the selector that the callback makes. -/
def callback (turns : Nat → Turn) (k : Nat) (s : Server) (d : Dispatch Callback Attachment) :
    Result (Server × List (SelectorAct Callback Attachment)) :=
  let s := { s with tree := (turns k).tree }
  match d.handler.callback d.op with
  | some .smtpPassiveAccept => acceptCallback (turns k) s d
  | some .udpReadHandler => do
    let s ← serverStep s (.datagram (turns k).datagram)
    .ok (s, [])
  | some .smtpRead => smtpCallback smtpRead (turns k).env s d
  | some .smtpWrite => smtpCallback smtpWrite (turns k).env s d
  | some .smtpClose | none => .error .undefined

/-- The callbacks, as the selector sees them. -/
def callbacks (turns : Nat → Turn) (s : Server) : SelectorCallbacks Callback Attachment := reacting (callback turns) s

/-- How `pselect` ends for reasons outside of the server. -/
inductive SelectOutcome
  | ready (r w : FdSet)
  | interrupted
  | failed

/-- `pselect` on the sets of the selector: a descriptor among them that is not open is an error, and only what is in
them gets ready. -/
def Program.pselect (p : Program) (outcome : SelectOutcome) : PselectResult :=
  if ∃ fd ∈ p.selector.selector.masterR ∪ p.selector.selector.masterW, fd ∉ p.server.fds then .failed
  else match outcome with
    | .ready r w => .ready (r ∩ p.selector.selector.masterR) (w ∩ p.selector.selector.masterW)
    | .interrupted => .interrupted
    | .failed => .failed

/-- One pass of the loop of `main`: how `pselect` ends, and what the callbacks find. -/
structure Round where
  outcome : SelectOutcome
  turns : Nat → Turn

inductive ProgramFault
  | server (fault : Fault)
  | selector (fault : SelectorFault)
deriving DecidableEq, Repr

/-- What has become of the server by the callbacks of a round. -/
def served (r : Round) (s : Server) (log : List (Dispatch Callback Attachment)) : Except ProgramFault Server :=
  (Reactive.after (callback r.turns) s log).mapError .server

/-- A round of the loop. Of two faults the first one counts. -/
def selectRound (p : Program) (r : Round) : Except ProgramFault (SelectorStatus × Program) :=
  match selectorSelect (callbacks r.turns p.server) p.selector (p.pselect r.outcome) with
  | .ok (status, log, selector) => do
    let server ← served r p.server log
    .ok (status, { server, selector })
  | .error (fault, log) => do
    let _ ← served r p.server log
    .error (.selector fault)

/-- The loop of `main`, for as many rounds as pass until `done` is set. -/
def mainLoop (p : Program) : List Round → Except ProgramFault (SelectorStatus × Program)
  | [] => .ok (.success, p)
  | r :: rounds => do
    let (ss, p) ← selectRound p r
    if ss ≠ .success then .ok (ss, p) else mainLoop p rounds

/-- How the calls end that `main` makes before it serves, and the memory that the selector gets. -/
structure Setup where
  socket : Bool
  socket6969 : Bool
  bind : Bool
  listen : Bool
  bind6969 : Bool
  nio : Bool
  nio6969 : Bool
  init : Bool
  struct : Bool
  table : Option (Nat → Item Callback Attachment)

/-- The variables of `main`, with the process around them. A descriptor that could not be had is none, and so is `ret`
where it has not been initialised. -/
structure Main where
  errMsg : Option String
  ss : SelectorStatus
  server : Option Nat
  server6969 : Option Nat
  selector : Option (SelectorWorld Callback Attachment)
  ret : Option Nat
  process : Server

/-- The labels that `main` goes to. -/
inductive Label
  | finallyTcp | finallyUdp | finally
deriving DecidableEq, Repr

def Main.goto (m : Main) (label : Label) (errMsg : String) : Label × Main := (label, { m with errMsg := some errMsg })

def Main.socket (m : Main) (succeeds : Bool) : Option Nat × Main :=
  if succeeds then (some (lowestFree m.process.fds), { m with
    process := { m.process with fds := lowestFree m.process.fds :: m.process.fds } })
  else (none, m)

def Main.close (m : Main) : Option Nat → Main
  | some fd => { m with process := { m.process with fds := m.process.fds.erase fd } }
  | none => m

/-- `main` up to where it has tried to open its two sockets. -/
def openSockets (a : Setup) (process : Server) : Main :=
  let m : Main :=
    { errMsg := none, ss := .success, server := none, server6969 := none, selector := none, ret := none, process }
  let m := m.close (some 0)
  let (server, m) := m.socket a.socket
  let (server6969, m) := m.socket a.socket6969
  { m with server, server6969 }

/-- `main` from where it makes its selector, up to its loop: the server that it has set up, or where it goes to. -/
def registerSockets (a : Setup) (transformations : Option (List UInt8)) (m : Main) (server server6969 : Nat) :
    Except SelectorFault (Label × Main ⊕ Main × Program) :=
  match selectorNew 1024 a.struct a.table with
  | none => .ok (.inl (m.goto .finally "unable to create selector"))
  | some selector => do
    let (ss, w) ← selectorRegister ⟨selector, []⟩ .self server (some smtp) OP_READ (transformations.map .program) none
    let process := { m.process with
      globals := setNewStatus m.process.globals transformations.isSome
      program := transformations }
    let m := { m with ss, selector := some w, process }
    if ss ≠ .success then .ok (.inl (m.goto .finally "registering fd"))
    else
      let (ss, w) ← selectorRegister w .self server6969 (some udp) OP_READ none none
      let m := { m with ss, selector := some w }
      if ss ≠ .success then .ok (.inl (m.goto .finally "registering fd for port 6969"))
      else .ok (.inr (m, { server := process, selector := w }))

def setUp (a : Setup) (transformations : Option (List UInt8)) (process : Server) :
    Except SelectorFault (Label × Main ⊕ Main × Program) :=
  let m := openSockets a process
  match m.server, m.server6969 with
  | none, _ => .ok (.inl (m.goto .finallyTcp "unable to create socket"))
  | some _, none => .ok (.inl (m.goto .finallyUdp "unable to create socket for port 6969"))
  | some server, some server6969 =>
    if ¬ a.bind then .ok (.inl (m.goto .finally "unable to bind socket"))
    else if ¬ a.listen then .ok (.inl (m.goto .finally "unable to listen"))
    else if ¬ a.bind6969 then .ok (.inl (m.goto .finally "unable to bind socket for port 6969"))
    else if ¬ a.nio then .ok (.inl (m.goto .finally "getting server socket flags"))
    else if ¬ a.nio6969 then .ok (.inl (m.goto .finally "getting server_6969 socket flags"))
    else if ¬ a.init then .ok (.inl (m.goto .finally "initializing selector"))
    else registerSockets a transformations m server server6969

/-- What is left when `main` returns: its status, and what has become of the process and of the selector. -/
structure Exit where
  ret : Option Nat
  process : Server
  selector : Option (SelectorWorld Callback Attachment)

def finallyPart (m : Main) : Except SelectorFault Exit := do
  let ret := if m.ss ≠ .success then some 2 else if m.errMsg.isSome then some 1 else m.ret
  let selector ← match m.selector with
    | some w => (selectorDestroy .ok w).map some
    | none => .ok none
  .ok { ret, process := m.process, selector }

/-- The labels stand one after another. -/
def Main.leave (m : Main) : Label → Except SelectorFault Exit
  | .finallyUdp => finallyPart ((m.close m.server6969).close m.server)
  | .finallyTcp => finallyPart (m.close m.server)
  | .finally => finallyPart m

def main (a : Setup) (transformations : Option (List UInt8)) (process : Server) (rounds : List Round) :
    Except ProgramFault Exit := do
  match ← (setUp a transformations process).mapError .selector with
  | .inl (label, m) => (m.leave label).mapError .selector
  | .inr (m, p) =>
    let (ss, p) ← mainLoop p rounds
    let m := { m with ss, selector := some p.selector, process := p.server }
    if ss ≠ .success then
      let (label, m) := m.goto .finally "serving"
      (m.leave label).mapError .selector
    else ({ m with errMsg := some "closing", ret := some 0 }.leave .finallyUdp).mapError .selector

end Smtpd.Serving
