import Smtpd.Lib.Checked
import Smtpd.Lib.CString

namespace Smtpd

open Checked CString

/-- The functions of the server that call `abort`. -/
inductive AbortSite
  | stm | smtpDone | createMailsFiles | closeFds
deriving DecidableEq, Repr

/-- How a run of the program stops before its time: a call of `abort`, a failing
`assert`, an access the C language leaves undefined, or `exit` without memory. -/
inductive Fault
  | abort (site : AbortSite) | assertion | undefined | outOfMemory
deriving DecidableEq, Repr

abbrev Result := Except Fault

abbrev CR : UInt8 := 13
abbrev LF : UInt8 := 10

def ascii (s : String) : List UInt8 := s.toList.map Char.toUInt8

/-- `struct buffer` together with the array it works on. The four pointers are
offsets into that array. -/
structure Buffer where
  raw : List UInt8
  data : Nat
  limit : Nat
  read : Nat
  write : Nat
deriving DecidableEq, Repr

def bufferReset (b : Buffer) : Buffer := { b with read := b.data, write := b.data }

def bufferInit (n : Nat) (raw : List UInt8) : Buffer :=
  bufferReset { raw, data := 0, limit := n, read := 0, write := 0 }

def bufferCanWrite (b : Buffer) : Bool := b.write < b.limit

def bufferCanRead (b : Buffer) : Bool := b.read < b.write

/-- The write pointer and the number of bytes that may be stored there. -/
def bufferWritePtr (b : Buffer) : Result (Nat × Nat) :=
  if b.write ≤ b.limit then .ok (b.write, b.limit - b.write) else .error .assertion

def bufferReadPtr (b : Buffer) : Result (Nat × Nat) :=
  if b.read ≤ b.write then .ok (b.read, b.write - b.read) else .error .assertion

def bufferWriteAdv (b : Buffer) (bytes : Int) : Result Buffer :=
  if bytes > -1 then
    let write := b.write + bytes.toNat
    if write ≤ b.limit then .ok { b with write } else .error .assertion
  else .ok b

/-- The bytes between the read and the write pointer. -/
def Buffer.pending (b : Buffer) : List UInt8 := (b.raw.drop b.read).take (b.write - b.read)

def bufferCompact (b : Buffer) : Buffer :=
  if b.data = b.read then b
  else if b.read = b.write then { b with read := b.data, write := b.data }
  else
    let n := b.write - b.read
    { b with raw := overwrite b.raw b.data b.pending, read := b.data, write := b.data + n }

def bufferReadAdv (b : Buffer) (bytes : Int) : Result Buffer :=
  if bytes > -1 then
    let read := b.read + bytes.toNat
    if read ≤ b.write then
      .ok (if read = b.write then bufferCompact { b with read } else { b with read })
    else .error .assertion
  else .ok b

/-- Stores that leave the array are undefined. -/
def bufferStore (b : Buffer) (ptr : Nat) (bytes : List UInt8) : Result Buffer :=
  if ptr + bytes.length ≤ b.raw.length then .ok { b with raw := overwrite b.raw ptr bytes }
  else .error .undefined

def bufferRead (b : Buffer) : Result (UInt8 × Buffer) :=
  if bufferCanRead b then do
    let ret ← demand .undefined b.raw[b.read]?
    let b ← bufferReadAdv b 1
    .ok (ret, b)
  else .ok (0, b)

def bufferWrite (b : Buffer) (c : UInt8) : Result Buffer :=
  if bufferCanWrite b then do
    let b ← bufferStore b b.write [c]
    bufferWriteAdv b 1
  else .ok b

/-- Calls of `buffer_write`, one after the other. -/
def bufferWrites (b : Buffer) (cs : List UInt8) : Result Buffer := cs.foldlM bufferWrite b

end Smtpd
