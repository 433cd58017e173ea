import Smtpd.Lib.Checked
import Smtpd.Lib.Leases
import Smtpd.Lib.Runs
import Mathlib.Data.Finset.Basic

namespace Smtpd.Selector

open Checked Leases

inductive SelectorStatus
  | success | enomem | maxfd | iargs | fdinuse | io
deriving DecidableEq, Repr

/-- What the selector does not survive. -/
inductive SelectorFault
  /-- `s->fds + fd` lies outside the table -/
  | outOfTable
  /-- an item is used after `realloc` has moved the table -/
  | moved
  /-- `FD_CLR` or `FD_SET` of a number that no set holds -/
  | badFdSet
  | nullPointer
  | assertion
  /-- `resolution_mutex` is locked by its owner -/
  | deadlock
deriving DecidableEq, Repr

abbrev FdInterest := UInt32
abbrev OP_NOOP : FdInterest := 0
abbrev OP_READ : FdInterest := 1
abbrev OP_WRITE : FdInterest := 4

def FdInterest.includes (interest op : FdInterest) : Bool := op &&& interest ≠ 0

abbrev FD_SETSIZE : Nat := 1024
abbrev ITEMS_MAX_SIZE : Nat := FD_SETSIZE
abbrev FD_UNUSED : Int := -1

abbrev FdSet := Finset Nat

def fdClr (fd : Int) (set : FdSet) : Except SelectorFault FdSet :=
  if 0 ≤ fd ∧ fd < FD_SETSIZE then .ok (set.erase fd.toNat) else .error .badFdSet

def fdSet (fd : Int) (set : FdSet) : Except SelectorFault FdSet :=
  if 0 ≤ fd ∧ fd < FD_SETSIZE then .ok (insert fd.toNat set) else .error .badFdSet

/-- Asked of the descriptors of the table only. -/
def fdIsset (fd : Int) (set : FdSet) : Bool := fd.toNat ∈ set

/-- `struct fd_handler`, the callbacks being of any type. -/
structure FdHandler (ε : Type) where
  handleRead : Option ε
  handleWrite : Option ε
  handleBlock : Option ε
  handleClose : Option ε
deriving DecidableEq, Repr

structure Item (ε δ : Type) where
  fd : Int
  interest : FdInterest
  handler : Option (FdHandler ε)
  data : Option δ
deriving DecidableEq, Repr

/-- `struct fdselector`. The table is its list of items: `fd_size` of them, none while `fds` is NULL. -/
structure FdSelector (ε δ : Type) where
  fds : List (Item ε δ)
  maxFd : Nat
  masterR : FdSet
  masterW : FdSet
  slaveR : FdSet
  slaveW : FdSet
  resolutionJobs : List Int
  locked : Bool

/-- A pointer that a caller hands to the selector's functions. -/
inductive SelectorArg
  | null | self
deriving DecidableEq, Repr

structure SelectorKey (δ : Type) where
  s : SelectorArg
  fd : Int
  data : Option δ
deriving DecidableEq, Repr

variable {ε δ : Type}

abbrev Item.used (item : Item ε δ) : Prop := item.fd ≠ FD_UNUSED

/-- Memory that `memset` or `calloc` has blanked. -/
def blankItem : Item ε δ := { fd := 0, interest := OP_NOOP, handler := none, data := none }

def itemInit (item : Item ε δ) : Item ε δ := { item with fd := FD_UNUSED }

/-- The item at `s->fds + fd`. -/
def FdSelector.item (s : FdSelector ε δ) (fd : Int) : Except SelectorFault (Item ε δ) :=
  if 0 ≤ fd then demand .outOfTable s.fds[fd.toNat]? else .error .outOfTable

/-- The loop of `next_capacity`, on a word of so many bits. -/
def countBits : Nat → Nat → Nat
  | 0, _ => 0
  | width + 1, tmp => if tmp = 0 then 0 else countBits width (tmp >>> 1) + 1

def nextCapacity (n : Nat) : Nat :=
  let tmp := 1 <<< countBits 64 n
  (if ITEMS_MAX_SIZE < tmp then ITEMS_MAX_SIZE else tmp) + 1

def itemsInit (fds : List (Item ε δ)) (last : Nat) : List (Item ε δ) :=
  fds.take last ++ (fds.drop last).map itemInit

/-- One item in the loop of `items_max_fd`. -/
def maxFdStep (s : FdSelector ε δ) (max i : Nat) : Except SelectorFault Nat := do
  let item ← s.item i
  .ok (if item.used ∧ max < item.fd then item.fd.toNat else max)

def itemsMaxFd (s : FdSelector ε δ) : Except SelectorFault Nat :=
  (List.range (s.maxFd + 1)).foldlM (maxFdStep s) 0

def itemsUpdateFdsetForFd (s : FdSelector ε δ) (item : Item ε δ) : Except SelectorFault (FdSelector ε δ) := do
  let r ← fdClr item.fd s.masterR
  let w ← fdClr item.fd s.masterW
  if item.used then
    let r ← if item.interest.includes OP_READ then fdSet item.fd r else .ok r
    let w ← if item.interest.includes OP_WRITE then fdSet item.fd w else .ok w
    .ok { s with masterR := r, masterW := w }
  else
    .ok { s with masterR := r, masterW := w }

abbrev SIZE_MAX : Nat := 18446744073709551615

/-- `sizeof(struct item)` -/
abbrev elementSize : Nat := 24

/-- `memory` is what `calloc` or `realloc` gives: NULL, or memory of which `realloc` does not say what the new
items hold. -/
def ensureCapacity (s : FdSelector ε δ) (n : Nat) (memory : Option (Nat → Item ε δ)) :
    SelectorStatus × FdSelector ε δ :=
  if n < s.fds.length then (.success, s)
  else if ITEMS_MAX_SIZE < n then (.maxfd, s)
  else if s.fds = [] then
    let newSize := nextCapacity n
    match memory with
    | none => (.enomem, s)
    | some _ => (.success, { s with fds := itemsInit (List.replicate newSize blankItem) 0 })
  else
    let newSize := nextCapacity n
    if SIZE_MAX / elementSize < newSize then (.enomem, s)
    else match memory with
      | none => (.enomem, s)
      | some rest =>
        let oldSize := s.fds.length
        let fds := s.fds ++ (List.range' oldSize (newSize - oldSize)).map rest
        (.success, { s with fds := itemsInit fds oldSize })

/-- `malloc` and `calloc` give memory, or NULL. -/
def selectorNew (initialElements : Nat) (struct : Bool) (memory : Option (Nat → Item ε δ)) : Option (FdSelector ε δ) :=
  if struct then
    let s : FdSelector ε δ :=
      { fds := [], maxFd := 0, masterR := ∅, masterW := ∅, slaveR := ∅, slaveW := ∅, resolutionJobs := [], locked := false }
    match ensureCapacity s initialElements memory with
    | (.success, s) => some s
    | _ => none
  else none

def INVALID_FD (fd : Int) : Prop := fd < 0 ∨ ITEMS_MAX_SIZE ≤ fd

instance (fd : Int) : Decidable (INVALID_FD fd) := inferInstanceAs (Decidable (_ ∨ _))

/-- The selector, with what has happened to the descriptors: they are taken by `selector_register` and returned to
`handle_close`. -/
structure SelectorWorld (ε δ : Type) where
  selector : FdSelector ε δ
  log : List (Event Int (Option δ))

/-- The table is made to grow only for a descriptor greater than its size. -/
def makeRoom (s : FdSelector ε δ) (ufd : Nat) (memory : Option (Nat → Item ε δ)) : SelectorStatus × FdSelector ε δ :=
  if s.fds.length < ufd then ensureCapacity s ufd memory else (.success, s)

/-- What follows in `selector_register` when there is room for the new item. -/
def registerItem (s : FdSelector ε δ) (item : Item ε δ) : Except SelectorFault (SelectorStatus × FdSelector ε δ) := do
  let old ← s.item item.fd
  if old.used then .ok (.fdinuse, s)
  else
    let s ← itemsUpdateFdsetForFd { s with
      fds := s.fds.set item.fd.toNat item
      maxFd := if s.maxFd < item.fd then item.fd.toNat else s.maxFd } item
    .ok (.success, s)

def selectorRegister (w : SelectorWorld ε δ) (s : SelectorArg) (fd : Int) (handler : Option (FdHandler ε))
    (interest : FdInterest) (data : Option δ) (memory : Option (Nat → Item ε δ)) :
    Except SelectorFault (SelectorStatus × SelectorWorld ε δ) :=
  if s = .null ∨ INVALID_FD fd ∨ handler.isNone then .ok (.iargs, w)
  else
    match makeRoom w.selector fd.toNat memory with
    | (.success, s) => do
      let (status, s) ← registerItem s { fd, handler, interest, data }
      .ok (status, { selector := s, log := if status = .success then w.log ++ [.taken fd data] else w.log })
    | (status, s) => .ok (status, { w with selector := s })

/-- What follows in `selector_unregister_fd` when `handle_close` has returned. -/
def unregisterItem (s : FdSelector ε δ) (fd : Int) : Except SelectorFault (FdSelector ε δ) := do
  let item ← s.item fd
  let item := { item with interest := OP_NOOP }
  let s ← itemsUpdateFdsetForFd { s with fds := s.fds.set fd.toNat item } item
  let s := { s with fds := s.fds.set fd.toNat (itemInit blankItem) }
  let maxFd ← itemsMaxFd s
  .ok { s with maxFd }

/-- `close` is what a callback does to the selector. -/
def selectorUnregisterFd (close : SelectorWorld ε δ → Except SelectorFault (SelectorWorld ε δ)) (w : SelectorWorld ε δ)
    (s : SelectorArg) (fd : Int) : Except SelectorFault (SelectorStatus × SelectorWorld ε δ) :=
  if s = .null ∨ INVALID_FD fd then .ok (.iargs, w)
  else do
    let item ← w.selector.item fd
    if ¬ item.used then .ok (.iargs, w)
    else
      let handler ← demand .nullPointer item.handler
      let w' ← if handler.handleClose.isSome then close { w with log := w.log ++ [.returned item.fd item.data] } else .ok w
      -- `item` points into the table that was there before
      if w'.selector.fds.length ≠ w.selector.fds.length then .error .moved
      else
        let s ← unregisterItem w'.selector fd
        .ok (.success, { w' with selector := s })

def selectorSetInterest (w : SelectorWorld ε δ) (s : SelectorArg) (fd : Int) (i : FdInterest) :
    Except SelectorFault (SelectorStatus × SelectorWorld ε δ) :=
  if s = .null ∨ INVALID_FD fd then .ok (.iargs, w)
  else do
    let item ← w.selector.item fd
    if ¬ item.used then .ok (.iargs, w)
    else
      let item := { item with interest := i }
      let s ← itemsUpdateFdsetForFd { w.selector with fds := w.selector.fds.set fd.toNat item } item
      .ok (.success, { w with selector := s })

def selectorSetInterestKey (w : SelectorWorld ε δ) (key : Option (SelectorKey δ)) (i : FdInterest) :
    Except SelectorFault (SelectorStatus × SelectorWorld ε δ) :=
  match key with
  | none => .ok (.iargs, w)
  | some key =>
    if key.s = .null ∨ INVALID_FD key.fd then .ok (.iargs, w) else selectorSetInterest w key.s key.fd i

def selectorNotifyBlock (w : SelectorWorld ε δ) (fd : Int) (memory : Bool) :
    Except SelectorFault (SelectorStatus × SelectorWorld ε δ) :=
  if ¬ memory then .ok (.enomem, w)
  else if w.selector.locked then .error .deadlock
  else .ok (.success, { w with selector := { w.selector with resolutionJobs := fd :: w.selector.resolutionJobs } })

/-- A call of the selector's functions, with its arguments and the memory it gets. -/
inductive SelectorCall (ε δ : Type)
  | register (s : SelectorArg) (fd : Int) (handler : Option (FdHandler ε)) (interest : FdInterest) (data : Option δ)
      (memory : Option (Nat → Item ε δ))
  | unregister (s : SelectorArg) (fd : Int)
  | setInterest (s : SelectorArg) (fd : Int) (i : FdInterest)
  | setInterestKey (key : Option (SelectorKey δ)) (i : FdInterest)
  | notifyBlock (fd : Int) (memory : Bool)

def SelectorCall.apply (close : SelectorWorld ε δ → Except SelectorFault (SelectorWorld ε δ)) (w : SelectorWorld ε δ) :
    SelectorCall ε δ → Except SelectorFault (SelectorStatus × SelectorWorld ε δ)
  | .register s fd handler interest data memory => selectorRegister w s fd handler interest data memory
  | .unregister s fd => selectorUnregisterFd close w s fd
  | .setInterest s fd i => selectorSetInterest w s fd i
  | .setInterestKey key i => selectorSetInterestKey w key i
  | .notifyBlock fd memory => selectorNotifyBlock w fd memory

/-- A call that a callback makes, and the calls that `handle_close` makes in its turn if it is called. -/
inductive SelectorAct (ε δ : Type)
  | make (call : SelectorCall ε δ) (onClose : List (SelectorAct ε δ))

mutual

def SelectorAct.perform (w : SelectorWorld ε δ) : SelectorAct ε δ → Except SelectorFault (SelectorWorld ε δ)
  | .make call onClose => do
    let (_, w) ← call.apply (fun w => performAll w onClose) w
    .ok w

def performAll (w : SelectorWorld ε δ) : List (SelectorAct ε δ) → Except SelectorFault (SelectorWorld ε δ)
  | [] => .ok w
  | act :: acts => do
    let w ← act.perform w
    performAll w acts

end

inductive DispatchOp
  | read | write | block
deriving DecidableEq, Repr

def FdHandler.callback (handler : FdHandler ε) : DispatchOp → Option ε
  | .read => handler.handleRead
  | .write => handler.handleWrite
  | .block => handler.handleBlock

/-- A callback that the selector has called, and the selector at that moment. -/
structure Dispatch (ε δ : Type) where
  op : DispatchOp
  handler : FdHandler ε
  key : SelectorKey δ
  selector : FdSelector ε δ

/-- What the callbacks do: the calls of the one that was called last. -/
abbrev SelectorCallbacks (ε δ : Type) := List (Dispatch ε δ) → List (SelectorAct ε δ)

/-- The callbacks called so far are known also when one of them, or the selector, fails. -/
abbrev Dispatching (ε δ : Type) := Except (SelectorFault × List (Dispatch ε δ))

abbrev DispatchState (ε δ : Type) := List (Dispatch ε δ) × SelectorWorld ε δ

def DispatchOp.missing : DispatchOp → SelectorFault
  | .read | .write => .assertion
  | .block => .nullPointer

def dispatch (callbacks : SelectorCallbacks ε δ) (st : DispatchState ε δ) (op : DispatchOp) (item : Item ε δ)
    (key : SelectorKey δ) : Dispatching ε δ (DispatchState ε δ) := do
  let handler ← demand (.nullPointer, st.1) item.handler
  if (handler.callback op).isNone then .error (op.missing, st.1)
  else
    let log := st.1 ++ [{ op, handler, key, selector := st.2.selector }]
    match performAll st.2 (callbacks log) with
    | .ok w => .ok (log, w)
    | .error fault => .error (fault, log)

/-- The callback for reading, if it is due at an item. -/
def dispatchRead (callbacks : SelectorCallbacks ε δ) (st : DispatchState ε δ) (item : Item ε δ) (key : SelectorKey δ) :
    Dispatching ε δ (DispatchState ε δ) :=
  if fdIsset item.fd st.2.selector.slaveR ∧ item.interest.includes OP_READ then dispatch callbacks st .read item key
  else .ok st

/-- One round of the loop of `handle_iteration`. -/
def visitItem (callbacks : SelectorCallbacks ε δ) (st : DispatchState ε δ) (i : Nat) : Dispatching ε δ (DispatchState ε δ) := do
  let item ← demand (.outOfTable, st.1) st.2.selector.fds[i]?
  if item.used then
    let key : SelectorKey δ := { s := .self, fd := item.fd, data := item.data }
    let st' ← dispatchRead callbacks st item key
    if st'.2.selector.fds.length ≠ st.2.selector.fds.length then .error (.moved, st'.1)
    else
      let item ← demand (.outOfTable, st'.1) st'.2.selector.fds[i]?
      if fdIsset i st'.2.selector.slaveW ∧ item.interest.includes OP_WRITE then dispatch callbacks st' .write item key
      else .ok st'
  else .ok st

def handleIteration (callbacks : SelectorCallbacks ε δ) (st : DispatchState ε δ) : Dispatching ε δ (DispatchState ε δ) :=
  Runs.run (visitItem callbacks) st (List.range (st.2.selector.maxFd + 1))

/-- One job in the loop of `handle_block_notifications`. -/
def notifyItem (callbacks : SelectorCallbacks ε δ) (st : DispatchState ε δ) (fd : Int) : Dispatching ε δ (DispatchState ε δ) := do
  let item ← (st.2.selector.item fd).mapError fun fault => (fault, st.1)
  if item.used then
    dispatch callbacks st .block item { s := .self, fd := item.fd, data := item.data }
  else .ok st

def handleBlockNotifications (callbacks : SelectorCallbacks ε δ) (st : DispatchState ε δ) :
    Dispatching ε δ (DispatchState ε δ) := do
  if st.2.selector.locked then .error (.deadlock, st.1)
  else
    let w := { st.2 with selector := { st.2.selector with locked := true } }
    let (log, w) ← Runs.run (notifyItem callbacks) (st.1, w) w.selector.resolutionJobs
    .ok (log, { w with selector := { w.selector with resolutionJobs := [], locked := false } })

/-- What `pselect` returns. -/
inductive PselectResult
  | ready (r w : FdSet)
  /-- EAGAIN or EINTR -/
  | interrupted
  /-- EBADF or any other error -/
  | failed
deriving DecidableEq

def selectorSelect (callbacks : SelectorCallbacks ε δ) (w : SelectorWorld ε δ) (fds : PselectResult) :
    Dispatching ε δ (SelectorStatus × DispatchState ε δ) :=
  let s := { w.selector with slaveR := w.selector.masterR, slaveW := w.selector.masterW }
  match fds with
  | .interrupted => do
    let st ← handleBlockNotifications callbacks ([], { w with selector := s })
    .ok (.success, st)
  | .failed => .ok (.io, [], { w with selector := s })
  | .ready slaveR slaveW => do
    let st ← handleIteration callbacks ([], { w with selector := { s with slaveR, slaveW } })
    let st ← handleBlockNotifications callbacks st
    .ok (.success, st)

/-- What the program does with its selector: calls, with what their callbacks do, and rounds of `selector_select`. -/
inductive Operation (ε δ : Type)
  | call (act : SelectorAct ε δ)
  | select (callbacks : SelectorCallbacks ε δ) (fds : PselectResult)

def operate (w : SelectorWorld ε δ) : Operation ε δ → Except SelectorFault (SelectorWorld ε δ)
  | .call act => act.perform w
  | .select callbacks fds => do
    let (_, st) ← (selectorSelect callbacks w fds).mapError Prod.fst
    .ok st.2

/-- One round of the loop of `selector_destroy`. -/
def destroyItem (close : SelectorWorld ε δ → Except SelectorFault (SelectorWorld ε δ)) (w : SelectorWorld ε δ) (i : Nat) :
    Except SelectorFault (SelectorWorld ε δ) := do
  if i < w.selector.fds.length then
    let item ← w.selector.item i
    if item.used then
      let (_, w) ← selectorUnregisterFd close w .self i
      .ok w
    else .ok w
  else .ok w

/-- The table never has more than `ITEMS_MAX_SIZE + 1` items for the loop to go through. -/
def selectorDestroy (close : SelectorWorld ε δ → Except SelectorFault (SelectorWorld ε δ)) (w : SelectorWorld ε δ) :
    Except SelectorFault (SelectorWorld ε δ) :=
  Runs.run (destroyItem close) w (List.range (ITEMS_MAX_SIZE + 1))

end Smtpd.Selector
