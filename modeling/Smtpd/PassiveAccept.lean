import Smtpd.Connection
import Smtpd.SelectorDispatch
import Mathlib.Logic.Function.Basic

namespace Smtpd.Accepting

open Checked Selector

/-- What `smtp_passive_accept` does not survive. -/
inductive AcceptFault
  /-- `s->rcpt_list` of a connection that is NULL -/
  | nullPointer
  /-- the same of one that was freed -/
  | freed
  | session (fault : Fault)
  | selector (fault : SelectorFault)
deriving DecidableEq, Repr

inductive SmtpCallback
  | smtpRead | smtpWrite | smtpClose
deriving DecidableEq, Repr

def smtpHandler : FdHandler SmtpCallback :=
  { handleRead := some .smtpRead, handleWrite := some .smtpWrite, handleBlock := none, handleClose := some .smtpClose }

/-- What is taken, and what is given back. -/
inductive AcceptAct
  | accepted (fd : Nat)
  | closed (fd : Nat)
  | allocated (address : Nat)
  | freed (address : Nat)
deriving DecidableEq, Repr

/-- The server as an `accept` finds it: the selector, whose data are addresses, the connections by their address, and
the descriptors that are open. -/
structure AcceptWorld where
  selector : SelectorWorld SmtpCallback Nat
  heap : Nat → Option Smtp
  fds : List Nat
  globals : Globals
  trace : List AcceptAct

/-- What `accept`, `selector_fd_set_nio` and `malloc` give, and the memory for the table of the selector. -/
structure AcceptCalls where
  client : Option Nat
  nio : Bool
  memory : Option Nat
  table : Option (Nat → Item SmtpCallback Nat)

def AcceptWorld.record (w : AcceptWorld) (act : AcceptAct) : AcceptWorld := { w with trace := w.trace ++ [act] }

def AcceptWorld.close (w : AcceptWorld) (fd : Nat) : AcceptWorld := { w with fds := w.fds.erase fd }.record (.closed fd)

/-- The nodes of `rcpt_list` are freed with their connection. -/
def smtpDestroy (w : AcceptWorld) (state : Option Nat) : Except AcceptFault AcceptWorld := do
  let address ← demand .nullPointer state
  let _ ← demand .freed (w.heap address)
  .ok ({ w with heap := Function.update w.heap address none }.record (.freed address))

/-- The label `fail`. -/
def fail (w : AcceptWorld) (client state : Option Nat) : Except AcceptFault AcceptWorld :=
  smtpDestroy (client.elim w w.close) state

/-- The connection that is set up before it is registered. -/
def acceptedSmtp (env : Env) (g : Globals) (program : Option (List UInt8)) : Result Smtp := do
  let initial := if g.currentUsers < g.maxUser then SmtpState.greetingWrite else SmtpState.failedConnectionWrite
  let state := blankSmtp initial.index (g.transformations && program.isSome)
  let stm ← stmInit (clientStatbl env) state.stm
  .ok { state with
    stm
    requestParser := requestParserInit
    dataParser := dataParserInit state.dataParser
    readBuffer := bufferInit 2048 state.readBuffer.raw
    writeBuffer := bufferInit 2048 state.writeBuffer.raw }

def smtpPassiveAccept (env : Env) (w : AcceptWorld) (calls : AcceptCalls) (program : Option (List UInt8)) :
    Except AcceptFault AcceptWorld :=
  match calls.client with
  | none => fail w none none
  | some client =>
    let w := { w with fds := client :: w.fds }.record (.accepted client)
    if calls.nio then
      match calls.memory with
      | none => fail w (some client) none
      | some address => do
        let w := w.record (.allocated address)
        let state ← (acceptedSmtp env w.globals program).mapError .session
        let currentUsers ← (increment w.globals.currentUsers).mapError .session
        let historicUsers ← (increment w.globals.historicUsers).mapError .session
        let globals := { w.globals with program, currentUsers, historicUsers }
        let w := { w with heap := Function.update w.heap address (some state), globals }
        let (status, selector) ← (selectorRegister w.selector .self client (some smtpHandler) OP_WRITE (some address)
          calls.table).mapError .selector
        let w := { w with selector }
        if status = .success then .ok w else fail w (some client) (some address)
    else fail w (some client) none

/-- One of the calls has failed. -/
def Fails (w : AcceptWorld) (calls : AcceptCalls) : Prop :=
  calls.client = none ∨ calls.nio = false ∨ calls.memory = none ∨
    ∃ client address status selector, calls.client = some client ∧ calls.memory = some address ∧
      selectorRegister w.selector .self client (some smtpHandler) OP_WRITE (some address) calls.table =
        .ok (status, selector) ∧ status ≠ .success

def AcceptAct.closes : AcceptAct → Option Nat
  | .closed fd => some fd
  | _ => none

def AcceptAct.allocates : AcceptAct → Option Nat
  | .allocated address => some address
  | _ => none

def AcceptAct.frees : AcceptAct → Option Nat
  | .freed address => some address
  | _ => none

/-- The descriptor is closed if there is one, the connection is freed if it was allocated, and everything else is as it
was. -/
structure Harmless (w : AcceptWorld) (calls : AcceptCalls) (w' : AcceptWorld) : Prop where
  selector : w'.selector = w.selector
  heap : w'.heap = w.heap
  fds : w'.fds = w.fds
  acts : ∃ acts, w'.trace = w.trace ++ acts ∧ acts.filterMap AcceptAct.closes = calls.client.toList ∧
    acts.filterMap AcceptAct.frees = acts.filterMap AcceptAct.allocates

section Accept

variable {env : Env} {w w' : AcceptWorld} {calls : AcceptCalls} {program : Option (List UInt8)}

theorem acceptedSmtp_ok (env : Env) (g : Globals) (program : Option (List UInt8)) :
    ∃ state, acceptedSmtp env g program = .ok state := by
  unfold acceptedSmtp
  by_cases hroom : g.currentUsers < g.maxUser
  · simp only [if_pos hroom]
    exact ⟨_, rfl⟩
  · simp only [if_neg hroom]
    exact ⟨_, rfl⟩

/-- The way out of a connection that is there: its descriptor is closed and it is freed. -/
theorem fail_allocated {client address : Nat} {state : Smtp} (hstate : w.heap address = some state) :
    fail w (some client) (some address) = .ok
      { w with
        heap := Function.update w.heap address none
        fds := w.fds.erase client
        trace := w.trace ++ [.closed client] ++ [.freed address] } := by
  show (do
      let _ ← demand AcceptFault.freed (w.heap address)
      .ok ({ w.close client with heap := Function.update w.heap address none }.record (.freed address))) = _
  rw [hstate]
  rfl

/-- A client beyond the numbers of an `int` is not counted. -/
theorem count_full {g : Globals} {α : Type} (h : ¬ g.CountsClient) (f : Int → Int → Except AcceptFault α) :
    (do
      let currentUsers ← (increment g.currentUsers).mapError AcceptFault.session
      let historicUsers ← (increment g.historicUsers).mapError AcceptFault.session
      f currentUsers historicUsers) = .error (.session .undefined) := by
  by_cases hcurrent : g.currentUsers < INT_MAX
  · have hhistoric : ¬ g.historicUsers < INT_MAX := fun hhistoric => h ⟨hcurrent, hhistoric⟩
    rw [increment_of_lt hcurrent, increment_full hhistoric]
    rfl
  · rw [increment_full hcurrent]
    rfl

theorem smtpPassiveAccept_full {client address : Nat} (hclient : calls.client = some client) (hnio : calls.nio)
    (hmemory : calls.memory = some address) (hfull : ¬ w.globals.CountsClient) :
    smtpPassiveAccept env w calls program = .error (.session .undefined) := by
  obtain ⟨state, hstate⟩ := acceptedSmtp_ok env w.globals program
  unfold smtpPassiveAccept
  rw [hclient]
  dsimp only
  rw [if_pos hnio, hmemory]
  dsimp only [AcceptWorld.record]
  rw [hstate]
  exact count_full hfull _

theorem smtpPassiveAccept_null (h : ¬ (calls.client.isSome ∧ calls.nio ∧ calls.memory.isSome)) :
    smtpPassiveAccept env w calls program = .error .nullPointer := by
  unfold smtpPassiveAccept
  cases hclient : calls.client with
  | none => rfl
  | some client =>
    dsimp only
    by_cases hnio : calls.nio
    · rw [if_pos hnio]
      cases hmemory : calls.memory with
      | none => rfl
      | some address =>
        refine absurd ⟨?_, hnio, ?_⟩ h
        · rw [hclient, Option.isSome_some]
        · rw [hmemory, Option.isSome_some]
    · rw [if_neg hnio]
      rfl

/-- The state in which `selector_register` finds the server. -/
def AcceptWorld.registering (w : AcceptWorld) (program : Option (List UInt8)) (client address : Nat) (state : Smtp) :
    AcceptWorld :=
  { w with
    fds := client :: w.fds
    heap := Function.update w.heap address (some state)
    globals := { w.globals with
      program
      currentUsers := w.globals.currentUsers + 1
      historicUsers := w.globals.historicUsers + 1 }
    trace := w.trace ++ [.accepted client] ++ [.allocated address] }

/-- With a connection to register that is counted, the selector decides. -/
theorem smtpPassiveAccept_eq {client address : Nat} {state : Smtp} {status : SelectorStatus}
    {selector : SelectorWorld SmtpCallback Nat} (hclient : calls.client = some client) (hnio : calls.nio)
    (hmemory : calls.memory = some address) (hcounts : w.globals.CountsClient)
    (hstate : acceptedSmtp env w.globals program = .ok state)
    (hregister : selectorRegister w.selector .self client (some smtpHandler) OP_WRITE (some address) calls.table =
      .ok (status, selector)) :
    smtpPassiveAccept env w calls program =
      if status = .success then .ok { w.registering program client address state with selector }
      else fail { w.registering program client address state with selector } (some client) (some address) := by
  unfold smtpPassiveAccept
  rw [hclient]
  dsimp only
  rw [if_pos hnio, hmemory]
  dsimp only [AcceptWorld.record]
  rw [hstate, increment_of_lt hcounts.1, increment_of_lt hcounts.2]
  dsimp only [Except.mapError, bind, Except.bind]
  rw [hregister]
  rfl

/-- A registration that fails is undone. -/
theorem smtpPassiveAccept_refused {client address : Nat} {status : SelectorStatus}
    {selector : SelectorWorld SmtpCallback Nat} (hv : w.selector.selector.Valid) (hclient : calls.client = some client)
    (hnio : calls.nio) (hmemory : calls.memory = some address) (hcounts : w.globals.CountsClient)
    (hfresh : w.heap address = none)
    (hregister : selectorRegister w.selector .self client (some smtpHandler) OP_WRITE (some address) calls.table =
      .ok (status, selector)) (hstatus : status ≠ .success) :
    ∃ w', smtpPassiveAccept env w calls program = .ok w' ∧ Harmless w calls w' := by
  obtain ⟨state, hstate⟩ := acceptedSmtp_ok env w.globals program
  obtain ⟨-, hselector⟩ | ⟨hsuccess, -⟩ := selectorRegister_cases hv hregister
  · rw [smtpPassiveAccept_eq hclient hnio hmemory hcounts hstate hregister, if_neg hstatus,
      @fail_allocated { w.registering program client address state with selector } client address state
        (Function.update_self ..)]
    refine ⟨_, rfl, hselector, ?_, List.erase_cons_head .., ?_⟩
    · show Function.update (Function.update w.heap address (some state)) address none = w.heap
      rw [Function.update_idem, ← hfresh, Function.update_eq_self]
    · refine ⟨[.accepted client, .allocated address, .closed client, .freed address], ?_, ?_, rfl⟩
      · simp [AcceptWorld.registering]
      · rw [hclient]
        rfl
  · exact absurd hsuccess hstatus

/-- What the calls are for the session, which leaves the selector and the addresses out. -/
def AcceptCalls.outcome (calls : AcceptCalls) (status : SelectorStatus) : AcceptOutcome :=
  { client := calls.client, nio := calls.nio, memory := calls.memory.isSome, registers := status = .success }

theorem session_null (h : ¬ (calls.client.isSome ∧ calls.nio ∧ calls.memory.isSome)) (status : SelectorStatus)
    (g : Globals) (os : Os) :
    Smtpd.smtpPassiveAccept env (calls.outcome status) program g os = .error .undefined := by
  unfold Smtpd.smtpPassiveAccept AcceptCalls.outcome
  cases hclient : calls.client with
  | none => rfl
  | some client =>
    by_cases hnio : calls.nio
    · have hmemory : ¬ calls.memory.isSome := fun hmemory => h ⟨by rw [hclient, Option.isSome_some], hnio, hmemory⟩
      simp [hmemory, demand, bind, Except.bind]
    · simp [hnio, demand, bind, Except.bind]

theorem session_eq {client : Nat} {state : Smtp} {g : Globals} (hcounts : g.CountsClient)
    (hstate : acceptedSmtp env g program = .ok state) (registers : Bool) (os : Os) :
    Smtpd.smtpPassiveAccept env { client := some client, nio := true, memory := true, registers } program g os =
      let globals := { g with program, currentUsers := g.currentUsers + 1, historicUsers := g.historicUsers + 1 }
      let os := { os with fds := client :: os.fds }
      if registers then
        .ok (globals, os, some
          { fd := client, registered := true, interest := .write, data := state, globals,
            os := { os with trace := [] }, log := [] })
      else .ok (globals, os.close client, none) := by
  unfold acceptedSmtp at hstate
  obtain ⟨stm, hstm, hok⟩ := bind_ok hstate
  cases hok
  unfold Smtpd.smtpPassiveAccept
  dsimp only [demand, bind, Except.bind]
  rw [hstm, increment_of_lt hcounts.1, increment_of_lt hcounts.2]
  rfl

/-- The session starts from the connection that is registered here, and from none if none is. -/
theorem session_agrees {client address : Nat} {status : SelectorStatus} {selector : SelectorWorld SmtpCallback Nat}
    (hclient : calls.client = some client) (hnio : calls.nio) (hmemory : calls.memory = some address)
    (hcounts : w.globals.CountsClient)
    (hregister : selectorRegister w.selector .self client (some smtpHandler) OP_WRITE (some address) calls.table =
      .ok (status, selector)) (os : Os) :
    ∃ w' os' key, smtpPassiveAccept env w calls program = .ok w' ∧
      Smtpd.smtpPassiveAccept env (calls.outcome status) program w.globals os = .ok (w'.globals, os', key) ∧
      key.map (fun key => key.data) = w'.heap address := by
  obtain ⟨state, hstate⟩ := acceptedSmtp_ok env w.globals program
  have houtcome : calls.outcome status =
      { client := some client, nio := true, memory := true, registers := status = .success } := by
    unfold AcceptCalls.outcome
    rw [hclient, hmemory, show calls.nio = true from hnio]
    rfl
  rw [smtpPassiveAccept_eq hclient hnio hmemory hcounts hstate hregister, houtcome, session_eq hcounts hstate]
  dsimp only
  by_cases hstatus : status = .success
  · rw [if_pos hstatus, if_pos (decide_eq_true hstatus)]
    exact ⟨_, _, _, rfl, rfl, (Function.update_self address (some state) w.heap).symm⟩
  · rw [if_neg hstatus, if_neg (by simpa using hstatus),
      @fail_allocated { w.registering program client address state with selector } client address state
        (Function.update_self ..)]
    exact ⟨_, _, _, rfl, rfl,
      (Function.update_self address none (w.registering program client address state).heap).symm⟩

/-- After a failure the handler returns, and has given back what it took and nothing else, exactly if a connection was
allocated, and counted. -/
theorem acceptFailure_harmless_iff {s : FdSelector SmtpCallback Nat} {struct : Bool}
    {memory : Option (Nat → Item SmtpCallback Nat)} {ops : List (Operation SmtpCallback Nat)}
    (hnew : selectorNew 1024 struct memory = some s) (hrun : Runs.run operate ⟨s, []⟩ ops = .ok w.selector)
    (hfresh : ∀ address ∈ calls.memory, w.heap address = none) (hfails : Fails w calls) :
    (∃ w', smtpPassiveAccept env w calls program = .ok w' ∧ Harmless w calls w') ↔
      calls.client.isSome ∧ calls.nio ∧ calls.memory.isSome ∧ w.globals.CountsClient := by
  constructor
  · rintro ⟨w', h, -⟩
    by_cases hthere : calls.client.isSome ∧ calls.nio ∧ calls.memory.isSome
    · obtain ⟨hclient, hnio, hmemory⟩ := hthere
      refine ⟨hclient, hnio, hmemory, ?_⟩
      obtain ⟨client, hclient⟩ := Option.isSome_iff_exists.mp hclient
      obtain ⟨address, hmemory⟩ := Option.isSome_iff_exists.mp hmemory
      by_contra hfull
      rw [smtpPassiveAccept_full hclient hnio hmemory hfull] at h
      cases h
    · rw [smtpPassiveAccept_null hthere] at h
      cases h
  · rintro ⟨hclient, hnio, hmemory, hcounts⟩
    obtain hnone | hnone | hnone | ⟨client, address, status, selector, hclient, hmemory, hregister, hstatus⟩ := hfails
    · rw [hnone] at hclient
      cases hclient
    · rw [hnone] at hnio
      cases hnio
    · rw [hnone] at hmemory
      cases hmemory
    · exact smtpPassiveAccept_refused (run_sound hnew hrun).1 hclient hnio hmemory hcounts (hfresh address hmemory)
        hregister hstatus

/-- A server that has not accepted anyone yet. -/
def idleWorld (s : FdSelector SmtpCallback Nat) : AcceptWorld :=
  { selector := ⟨s, []⟩, heap := fun _ => none, fds := [], globals := initialGlobals, trace := [] }

/-- No descriptor fits the table any more: the failure of the registration is undone. -/
theorem acceptFailure_harmless_iff_full :
    ∃ s w', smtpPassiveAccept (readyEnv []) (idleWorld s)
        { client := some 1024, nio := true, memory := some 7, table := none } none = .ok w' ∧
      Harmless (idleWorld s) { client := some 1024, nio := true, memory := some 7, table := none } w' := by
  obtain ⟨s, hnew⟩ : ∃ s, selectorNew 1024 true (some fun _ => (blankItem : Item SmtpCallback Nat)) = some s := ⟨_, rfl⟩
  have hrun : Runs.run operate ⟨s, []⟩ [] = .ok (idleWorld s).selector := rfl
  have hcounts : initialGlobals.CountsClient := by decide
  refine ⟨s, (acceptFailure_harmless_iff hnew hrun (fun _ _ => rfl) ?_).mpr ⟨rfl, rfl, rfl, hcounts⟩⟩
  exact Or.inr (Or.inr (Or.inr ⟨1024, 7, .iargs, ⟨s, []⟩, rfl, rfl, rfl, by decide⟩))

/-- `accept` gives -1. -/
theorem acceptFailure_broken :
    ∃ s, selectorNew 1024 true (some fun _ => (blankItem : Item SmtpCallback Nat)) = some s ∧
      smtpPassiveAccept (readyEnv []) (idleWorld s) { client := none, nio := true, memory := some 7, table := none } none =
        .error .nullPointer ∧
      ¬ ∃ w', smtpPassiveAccept (readyEnv []) (idleWorld s)
            { client := none, nio := true, memory := some 7, table := none } none = .ok w' ∧
          Harmless (idleWorld s) { client := none, nio := true, memory := some 7, table := none } w' := by
  refine ⟨_, rfl, rfl, ?_⟩
  rintro ⟨w', h, -⟩
  cases h

end Accept

end Smtpd.Accepting
