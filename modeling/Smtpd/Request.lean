import Smtpd.Data

namespace Smtpd

open Checked CString Incremental

inductive RequestCommand
  | ehlo | helo | mail | rcpt | data | rset | quit | noop | vrfy | expn | help | unknown
deriving DecidableEq, Repr

inductive RequestState
  | verb
  | verbE | verbEh | verbEhl | verbEhlo
  | verbH | verbHe | verbHel | verbHelo
  | verbM | verbMa | verbMai | verbMail | verbMail_ | verbMailF | verbMailFr | verbMailFro | verbMailFrom
  | verbR | verbRc | verbRcp | verbRcpt | verbRcpt_ | verbRcptT | verbRcptTo
  | verbD | verbDa | verbDat | verbData
  | verbQ | verbQu | verbQui | verbQuit
  | heloSep | heloDomain
  | ehloSep | ehloDomain
  | mailFromSep | mailFrom | mailFromSender
  | rcptToSep | rcptTo | rcptToRecipient
  | cr
  | done
  | error
deriving DecidableEq, Repr

/-- `struct request`: `char arg[32]` with `char domain[32]` right behind it, as the one
piece of memory they are. -/
structure Request where
  bytes : List UInt8
deriving DecidableEq, Repr

def Request.arg (r : Request) : List UInt8 := r.bytes.take 32

def Request.domain (r : Request) : List UInt8 := r.bytes.drop 32

structure RequestParser where
  request : Request
  state : RequestState
  command : RequestCommand
  i : UInt8
deriving DecidableEq, Repr

def requestParserInit : RequestParser :=
  { state := .verb, command := .noop, i := 0, request := ⟨List.replicate 64 0⟩ }

/-- A store into the request. An index past the end of `arg` falls into `domain`; past
the end of `domain` the request is over, and the store is undefined. -/
def Request.store (r : Request) (offset : Nat) (c : UInt8) : Result Request :=
  if offset < 64 then .ok ⟨r.bytes.set offset c⟩ else .error .undefined

abbrev SP : UInt8 := 32
abbrev TAB : UInt8 := 9
abbrev LT : UInt8 := 60
abbrev GT : UInt8 := 62

def isBlank (c : UInt8) : Bool := c = SP ∨ c = TAB

/-- What one branch of the switch does with the byte. -/
inductive RequestAction
  | goto (next : RequestState)
  /-- `next = request_cr`, and the line is this command -/
  | finish (command : RequestCommand)
  /-- the case of `request_error`, taken in that state or after feeding the byte to it again -/
  | fail
  /-- `p->request->arg[p->i++] = c` -/
  | arg (next : RequestState)
  /-- `p->request->domain[p->i++] = c` -/
  | domain (next : RequestState)
  /-- the same after `p->i = 0` -/
  | newDomain (next : RequestState)
deriving DecidableEq, Repr

/-- The cases that wait for one letter, in either case of it. -/
def expect (c : UInt8) (lower upper : Char) (next : RequestState) : RequestAction :=
  if c = lower.toUInt8 ∨ c = upper.toUInt8 then .goto next else .fail

/-- The switch of `request_parser_feed`. -/
def RequestState.onByte (st : RequestState) (c : UInt8) : RequestAction :=
  match st with
  | .verb =>
    if c = 'h'.toUInt8 ∨ c = 'H'.toUInt8 then .goto .verbH
    else if c = 'e'.toUInt8 ∨ c = 'E'.toUInt8 then .goto .verbE
    else if c = 'm'.toUInt8 ∨ c = 'M'.toUInt8 then .goto .verbM
    else if c = 'r'.toUInt8 ∨ c = 'R'.toUInt8 then .goto .verbR
    else if c = 'd'.toUInt8 ∨ c = 'D'.toUInt8 then .goto .verbD
    else if c = 'q'.toUInt8 ∨ c = 'Q'.toUInt8 then .goto .verbQ
    else if isBlank c then .goto .verb
    else .fail
  | .verbH => expect c 'e' 'E' .verbHe
  | .verbHe => expect c 'l' 'L' .verbHel
  | .verbHel => expect c 'o' 'O' .verbHelo
  | .verbHelo => if isBlank c then .goto .heloSep else .fail
  | .verbE => expect c 'h' 'H' .verbEh
  | .verbEh => expect c 'l' 'L' .verbEhl
  | .verbEhl => expect c 'o' 'O' .verbEhlo
  | .verbEhlo => if isBlank c then .goto .ehloSep else .fail
  | .verbM => expect c 'a' 'A' .verbMa
  | .verbMa => expect c 'i' 'I' .verbMai
  | .verbMai => expect c 'l' 'L' .verbMail
  | .verbMail => expect c ' ' ' ' .verbMail_
  | .verbMail_ => expect c 'f' 'F' .verbMailF
  | .verbMailF => expect c 'r' 'R' .verbMailFr
  | .verbMailFr => expect c 'o' 'O' .verbMailFro
  | .verbMailFro => expect c 'm' 'M' .verbMailFrom
  | .verbMailFrom => expect c ':' ':' .mailFromSep
  | .verbR => expect c 'c' 'C' .verbRc
  | .verbRc => expect c 'p' 'P' .verbRcp
  | .verbRcp => expect c 't' 'T' .verbRcpt
  | .verbRcpt => expect c ' ' ' ' .verbRcpt_
  | .verbRcpt_ => expect c 't' 'T' .verbRcptT
  | .verbRcptT => expect c 'o' 'O' .verbRcptTo
  | .verbRcptTo => expect c ':' ':' .rcptToSep
  | .verbD => expect c 'a' 'A' .verbDa
  | .verbDa => expect c 't' 'T' .verbDat
  | .verbDat => expect c 'a' 'A' .verbData
  | .verbData => if c = CR then .finish .data else .goto .error
  | .verbQ => expect c 'u' 'U' .verbQu
  | .verbQu => expect c 'i' 'I' .verbQui
  | .verbQui => expect c 't' 'T' .verbQuit
  | .verbQuit => if c = CR then .finish .quit else .goto .error
  | .heloSep =>
    if isBlank c then .goto .heloSep else if c = CR then .goto .error else .newDomain .heloDomain
  | .heloDomain => if c = CR then .finish .helo else .domain .heloDomain
  | .ehloSep =>
    if isBlank c then .goto .ehloSep else if c = CR then .goto .error else .newDomain .ehloDomain
  | .ehloDomain => if c = CR then .finish .ehlo else .domain .ehloDomain
  | .mailFromSep =>
    if isBlank c then .goto .mailFromSep else if c = LT then .goto .mailFrom else .fail
  | .mailFrom =>
    if c = GT then .goto .mailFromSender else if c = CR then .goto .error else .arg .mailFrom
  | .mailFromSender => if c = CR then .finish .mail else .goto .mailFromSender
  | .rcptToSep =>
    if isBlank c then .goto .rcptToSep else if c = LT then .goto .rcptTo else .fail
  | .rcptTo =>
    if c = GT then .goto .rcptToRecipient else if c = CR then .goto .error else .arg .rcptTo
  | .rcptToRecipient => if c = CR then .finish .rcpt else .goto .error
  | .cr => if c = LF then .goto .done else .goto .verb
  | .done => .goto .done
  | .error => .fail

def requestParserFeed (p : RequestParser) (c : UInt8) : Result RequestParser :=
  match p.state.onByte c with
  | .goto next => .ok { p with state := next }
  | .finish command => .ok { p with command, state := .cr }
  | .fail => .ok { p with command := .unknown, state := if c = CR then .cr else .error }
  | .arg next => do
    let request ← p.request.store p.i.toNat c
    .ok { p with request, i := p.i + 1, state := next }
  | .domain next => do
    let request ← p.request.store (32 + p.i.toNat) c
    .ok { p with request, i := p.i + 1, state := next }
  | .newDomain next => do
    let request ← p.request.store 32 c
    .ok { p with request, i := 1, state := next }

/-- `st >= request_error` sets the flag; the states from there on are `request_error` alone. -/
def requestIsDone (st : RequestState) (errored : Bool) : Bool × Bool :=
  (st = .done, errored || st = .error)

/-- The parser together with the flag that `request_consume` passes along. -/
def requestParser : Parser Fault (RequestParser × Bool) UInt8 where
  feed := fun (p, errored) c => do
    let p ← requestParserFeed p c
    .ok (p, (requestIsDone p.state errored).2)
  done := fun (p, errored) => (requestIsDone p.state errored).1

def requestConsume (b : Buffer) (p : RequestParser) (errored : Bool) :
    Result (Buffer × RequestParser × Bool) :=
  consume requestParser b (p, errored)

end Smtpd
