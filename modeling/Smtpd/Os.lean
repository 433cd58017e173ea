import Smtpd.Buffer
import Smtpd.Lib.FileSystem
import Mathlib.Data.List.Perm.Subperm
import Mathlib.Data.List.Range

namespace Smtpd

open FileSystem

/-- The system calls whose failure the server looks at. -/
inductive SysCall
  | stat (path : List UInt8)
  | mkdir (path : List UInt8)
  | openFile (path : List UInt8)
  | rename (old new : List UInt8)
  | pipe
  | fork (program : Option (List UInt8))
deriving DecidableEq, Repr

/-- What a connection had the system do. The trace is there to state properties of runs;
no code reads it. -/
inductive Act
  | call (c : SysCall)
  | opened (fd : Nat)
  | wrote (fd : Nat) (bytes : List UInt8)
  | closed (fd : Nat)
  | received (bytes : List UInt8)
  | sent (bytes : List UInt8)
deriving DecidableEq, Repr

/-- What the system answers while one event is handled. `recv` is what is there to be read
(nothing at the end of the stream), `send` how much the socket takes; both fail on `none`.
`uuid` gives the identifiers generated, `time` the text of the current time. -/
structure Env where
  recv : Option (List UInt8)
  send : Option Nat
  uuid : Nat → List UInt8
  time : List UInt8
  memory : Bool
  refuses : SysCall → Bool

structure Os where
  tree : Tree
  fds : List Nat
  trace : List Act
deriving DecidableEq, Repr

def Os.record (os : Os) (act : Act) : Os := { os with trace := os.trace ++ [act] }

/-- The lowest descriptor that is not in use. -/
def lowestFree (fds : List Nat) : Nat :=
  ((List.range (fds.length + 1)).find? (· ∉ fds)).getD fds.length

def Os.takeFd (os : Os) : Nat × Os :=
  let fd := lowestFree os.fds
  (fd, { os with fds := fd :: os.fds }.record (.opened fd))

def Os.stat (env : Env) (os : Os) (path : List UInt8) : Bool × Os :=
  (!env.refuses (.stat path) && os.tree.stat path, os.record (.call (.stat path)))

def Os.mkdir (env : Env) (os : Os) (path : List UInt8) : Bool × Os :=
  let recorded := os.record (.call (.mkdir path))
  match if env.refuses (.mkdir path) then none else os.tree.mkdir path with
  | some tree => (true, { recorded with tree })
  | none => (false, recorded)

/-- `open(path, O_CREAT | O_WRONLY, 0777)` -/
def Os.openFile (env : Env) (os : Os) (path : List UInt8) : Option Nat × Os :=
  let recorded := os.record (.call (.openFile path))
  match if env.refuses (.openFile path) then none else os.tree.create path with
  | some tree =>
    let (fd, os) := { recorded with tree }.takeFd
    (some fd, os)
  | none => (none, recorded)

def Os.rename (env : Env) (os : Os) (old new : List UInt8) : Bool × Os :=
  let recorded := os.record (.call (.rename old new))
  match if env.refuses (.rename old new) then none else os.tree.rename old new with
  | some tree => (true, { recorded with tree })
  | none => (false, recorded)

/-- `write` to a file or a pipe. The server does not look at its result, and here it takes all the bytes: a short
write, a full disk and the signal of a pipe that nobody reads are assumed away. -/
def Os.write (os : Os) (fd : Nat) (bytes : List UInt8) : Os := os.record (.wrote fd bytes)

def Os.close (os : Os) (fd : Nat) : Os := { os with fds := os.fds.erase fd }.record (.closed fd)

/-- The read end and the write end. -/
def Os.pipe (env : Env) (os : Os) : Option (Nat × Nat) × Os :=
  let recorded := os.record (.call .pipe)
  if env.refuses .pipe then (none, recorded)
  else
    let (readEnd, os) := recorded.takeFd
    let (writeEnd, os) := os.takeFd
    (some (readEnd, writeEnd), os)

/-- `fork`, as the parent sees it. The child does nothing but execute the program. -/
def Os.fork (env : Env) (os : Os) (program : Option (List UInt8)) : Bool × Os :=
  (!env.refuses (.fork program), os.record (.call (.fork program)))

theorem lowestFree_not_mem (fds : List Nat) : lowestFree fds ∉ fds := by
  unfold lowestFree
  cases h : (List.range (fds.length + 1)).find? (· ∉ fds) with
  | some fd => simpa using List.find?_some h
  | none =>
    -- more numbers are looked at than descriptors are in use
    have hall : List.range (fds.length + 1) ⊆ fds := by
      intro fd hfd
      have hno := List.find?_eq_none.mp h fd hfd
      simpa using hno
    have hlen := (List.nodup_range.subperm hall).length_le
    rw [List.length_range] at hlen
    omega

theorem Os.openFile_fds {env : Env} {os os' : Os} {path : List UInt8} {fd : Nat}
    (h : os.openFile env path = (some fd, os')) : os'.fds = fd :: os.fds ∧ fd ∉ os.fds := by
  unfold Os.openFile at h
  dsimp only at h
  split at h
  · cases h
    exact ⟨rfl, lowestFree_not_mem os.fds⟩
  · cases h

theorem Os.mkdir_fds (env : Env) (os : Os) (path : List UInt8) : (os.mkdir env path).2.fds = os.fds := by
  simp only [Os.mkdir]
  split <;> rfl

theorem Os.pipe_fds {env : Env} {os os' : Os} {r w : Nat} (h : os.pipe env = (some (r, w), os')) :
    os'.fds = w :: r :: os.fds ∧ r ∉ os.fds ∧ w ∉ r :: os.fds := by
  simp only [Os.pipe] at h
  split at h
  · cases h
  · cases h
    exact ⟨rfl, lowestFree_not_mem os.fds, lowestFree_not_mem _⟩

end Smtpd
