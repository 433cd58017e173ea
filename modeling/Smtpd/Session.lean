import Smtpd.Request
import Smtpd.RcptToList
import Smtpd.Globals
import Smtpd.Stm

namespace Smtpd

open Checked CString

inductive SmtpState
  | greetingWrite
  | failedConnectionRead
  | failedConnectionWrite
  | ehloRead
  | ehloWrite
  | mailFromRead
  | mailFromWrite
  | rcptToRead
  | rcptToWrite
  | dataRead
  | dataWrite
  | mailInfoRead
  | mailInfoWrite
  | done
  | error
deriving DecidableEq, Repr

/-- The value of the enumerator. -/
def SmtpState.index : SmtpState → Nat
  | .greetingWrite => 0
  | .failedConnectionRead => 1
  | .failedConnectionWrite => 2
  | .ehloRead => 3
  | .ehloWrite => 4
  | .mailFromRead => 5
  | .mailFromWrite => 6
  | .rcptToRead => 7
  | .rcptToWrite => 8
  | .dataRead => 9
  | .dataWrite => 10
  | .mailInfoRead => 11
  | .mailInfoWrite => 12
  | .done => 13
  | .error => 14

inductive Interest
  | noop | read | write
deriving DecidableEq, Repr

/-- `struct smtp`. The address of the client is only stored, and `file_buffer` is not used. -/
structure Smtp where
  stm : StateMachine
  requestParser : RequestParser
  dataParser : DataParser
  readBuffer : Buffer
  writeBuffer : Buffer
  transformation : Bool
  mailfrom : List UInt8
  rcptList : List RcptNode
deriving DecidableEq, Repr

/-- What happened in the dialogue with a client. It is there to state properties of runs;
no code reads it. -/
inductive Entry
  /-- a state with `request_read_init` was entered -/
  | arrived (state : Nat)
  /-- a command with this request was answered in this state -/
  | answered (state : SmtpState) (command : RequestCommand) (request : Request) (reply : List UInt8)
  /-- `create_mails_files` was called for these recipients and this sender -/
  | mailsCreated (emails : List (List UInt8)) (mailfrom : List UInt8)
  /-- the end of a message was answered -/
  | stored (reply : List UInt8)
deriving DecidableEq, Repr

/-- `struct selector_key` of a connection: its descriptor, what the selector knows of it,
its `struct smtp`, and the server around it. -/
structure Key where
  fd : Nat
  registered : Bool
  interest : Interest
  data : Smtp
  globals : Globals
  os : Os
  log : List Entry
deriving DecidableEq, Repr

def checkEmailDomain (email : List UInt8) : Result Bool := do
  let atPosition ← demand .undefined (strchr 64 email)
  match atPosition with
  | none => .ok false
  | some rest => demand .undefined (strcmpEq rest (ascii "@smtpd.com"))

def selectorSetInterestKey (key : Key) (i : Interest) : Bool × Key :=
  if key.registered then (true, { key with interest := i }) else (false, key)

def writeStatus (env : Env) (key : Key) (currentState nextState : SmtpState) :
    Result (SmtpState × Key) := do
  let wb := key.data.writeBuffer
  let (ptr, count) ← bufferReadPtr wb
  match env.send with
  | none => .ok (.error, key)
  | some taken =>
    let n := min taken count
    if n > 0 then
      let sent := (wb.raw.drop ptr).take n
      let wb ← bufferReadAdv wb n
      let key := { key with data := { key.data with writeBuffer := wb }, os := key.os.record (.sent sent) }
      if !bufferCanRead wb then
        match selectorSetInterestKey key .read with
        | (true, key) => .ok (nextState, key)
        | (false, key) => .ok (.error, key)
      else .ok (currentState, key)
    else .ok (.error, key)

/-- `transferred_bytes += n` -/
def addTransferred (key : Key) (n : Int) : Key :=
  { key with globals := { key.globals with
      transferredBytes := Int.bmod (key.globals.transferredBytes + n) UInt32.size } }

def readStatus (env : Env) (key : Key) (readProcess : Env → Key → Result (SmtpState × Key)) :
    Result (SmtpState × Key) := do
  let rb := key.data.readBuffer
  if bufferCanRead rb then readProcess env key
  else
    let (ptr, count) ← bufferWritePtr rb
    match env.recv with
    | none => .ok (.error, addTransferred key (-1))
    | some bytes =>
      let received := bytes.take count
      let key := addTransferred key received.length
      if received.length > 0 then
        let rb ← bufferStore rb ptr received
        let rb ← bufferWriteAdv rb received.length
        readProcess env
          { key with data := { key.data with readBuffer := rb }, os := key.os.record (.received received) }
      else .ok (.error, key)

/-- The greetings are copied to the start of the array each time the socket is ready. -/
def copyToWriteBuffer (key : Key) (message : List UInt8) : Result Key := do
  let wb ← bufferStore key.data.writeBuffer 0 message
  let wb ← bufferWriteAdv wb message.length
  .ok { key with data := { key.data with writeBuffer := wb } }

def greetingWrite (env : Env) (key : Key) : Result (SmtpState × Key) := do
  let key ← copyToWriteBuffer key (ascii "220 localhost SMTP\r\n")
  writeStatus env key .greetingWrite .ehloRead

def failedConnectionWrite (env : Env) (key : Key) : Result (SmtpState × Key) := do
  let key ← copyToWriteBuffer key
    (ascii "554 failed connection to localhost SMTP - Use QUIT to close\r\n")
  writeStatus env key .failedConnectionWrite .failedConnectionRead

/-- A string is written behind the write pointer, with its NUL, and `n` bytes of it are put
into the buffer. -/
def putString (key : Key) (text : List UInt8) (n : Nat) : Result Key := do
  let (ptr, _) ← bufferWritePtr key.data.writeBuffer
  let wb ← bufferStore key.data.writeBuffer ptr (text ++ [0])
  let wb ← bufferWriteAdv wb n
  .ok { key with data := { key.data with writeBuffer := wb } }

/-- The answer to a command. -/
def reply (key : Key) (state : SmtpState) (text : List UInt8) (n : Nat) : Result Key := do
  let key ← putString key text n
  let p := key.data.requestParser
  .ok { key with log := key.log ++ [.answered state p.command p.request text] }

/-- `QUIT`, which every state answers alike: the reply is sent without waiting for the socket. -/
def quitReply (env : Env) (key : Key) (state : SmtpState) : Result (SmtpState × Key) := do
  let key ← reply key state (ascii "221 Bye\r\n") 9
  let (_, key) ← writeStatus env key state .done
  .ok (.done, key)

/-- What the states that read a command have in common: the bytes at hand go to the parser,
and when they complete a command the connection turns to writing its answer. -/
def requestProcess (env : Env) (key : Key) (state : SmtpState)
    (answer : Env → Key → Result (SmtpState × Key)) : Result (SmtpState × Key) := do
  let (rb, p, _) ← requestConsume key.data.readBuffer key.data.requestParser false
  let key := { key with data := { key.data with readBuffer := rb, requestParser := p } }
  if (requestIsDone p.state false).1 then
    match selectorSetInterestKey key .write with
    | (true, key) => answer env key
    | (false, key) => .ok (.error, key)
  else .ok (state, key)

def failedConnectionAnswer (env : Env) (key : Key) : Result (SmtpState × Key) :=
  match key.data.requestParser.command with
  | .quit => quitReply env key .failedConnectionRead
  | _ => .ok (.failedConnectionWrite, key)

def failedConnectionReadProcess (env : Env) (key : Key) : Result (SmtpState × Key) :=
  requestProcess env key .failedConnectionRead failedConnectionAnswer

def failedConnectionRead (env : Env) (key : Key) : Result (SmtpState × Key) :=
  readStatus env key failedConnectionReadProcess

/-- `request_read_init`, the arrival at the states that read a command. -/
def requestReadInit (state : Nat) (key : Key) : Result Key :=
  .ok { key with
    data := { key.data with requestParser := requestParserInit }
    log := key.log ++ [.arrived state] }

def ehloAnswer (env : Env) (key : Key) : Result (SmtpState × Key) :=
  match key.data.requestParser.command with
  | .ehlo => do
    let text := ascii "250-localhost\r\n250-PIPELINING\r\n250 SIZE 10240000\r\n"
    let key ← reply key .ehloRead text text.length
    .ok (.ehloWrite, key)
  | .helo => do
    let text := ascii "250 localhost\r\n"
    let key ← reply key .ehloRead text text.length
    .ok (.ehloWrite, key)
  | .quit => quitReply env key .ehloRead
  | _ => do
    let key ← reply key .ehloRead
      (ascii "500 Syntax error. Expected: HELO domain or EHLO domain\r\n") 56
    .ok (.ehloWrite, key)

def ehloReadProcess (env : Env) (key : Key) : Result (SmtpState × Key) :=
  requestProcess env key .ehloRead ehloAnswer

def ehloRead (env : Env) (key : Key) : Result (SmtpState × Key) := readStatus env key ehloReadProcess

def ehloWrite (env : Env) (key : Key) : Result (SmtpState × Key) :=
  match key.data.requestParser.command with
  | .ehlo | .helo => writeStatus env key .ehloWrite .mailFromRead
  | _ => writeStatus env key .ehloWrite .ehloRead

/-- `strcpy` into `state->mailfrom`, an array of 255 bytes. -/
def copyMailfrom (key : Key) : Result (List UInt8 × Key) := do
  let sender ← demand .undefined (cstring key.data.requestParser.request.bytes)
  if sender.length < key.data.mailfrom.length then
    .ok (sender, { key with data := { key.data with
      mailfrom := overwrite key.data.mailfrom 0 (sender ++ [0]) } })
  else .error .undefined

def mailFromAnswer (env : Env) (key : Key) : Result (SmtpState × Key) :=
  match key.data.requestParser.command with
  | .mail => do
    let (sender, key) ← copyMailfrom key
    let text := ascii "250 Mail from received - " ++ sender ++ ascii "\r\n"
    let key ← reply key .mailFromRead text text.length
    .ok (.mailFromWrite, key)
  | .quit => quitReply env key .mailFromRead
  | .rcpt => do
    let key ← reply key .mailFromRead
      (ascii "503 Bad sequence of commands. MAIL FROM command must precede RCPT TO command\r\n") 78
    .ok (.mailFromWrite, key)
  | _ => do
    let key ← reply key .mailFromRead
      (ascii "500 Syntax error. Expected: MAIL FROM:<email@domain>\r\n") 54
    .ok (.mailFromWrite, key)

def mailFromReadProcess (env : Env) (key : Key) : Result (SmtpState × Key) :=
  requestProcess env key .mailFromRead mailFromAnswer

def mailFromRead (env : Env) (key : Key) : Result (SmtpState × Key) :=
  readStatus env key mailFromReadProcess

def mailFromWrite (env : Env) (key : Key) : Result (SmtpState × Key) :=
  match key.data.requestParser.command with
  | .mail => writeStatus env key .mailFromWrite .rcptToRead
  | _ => writeStatus env key .mailFromWrite .mailFromRead

/-- The recipient of the request goes to the head of the list, and its address into the answer. -/
def acceptRcpt (env : Env) (key : Key) (state : SmtpState) : Result (SmtpState × Key) := do
  let arg := key.data.requestParser.request.bytes
  let rcptList ← addRcptToList env key.data.rcptList arg
  let key := { key with data := { key.data with rcptList } }
  let email ← demand .undefined (cstring arg)
  let text := ascii "250 Rcpt to received - " ++ email ++ ascii "\r\n"
  let key ← reply key state text text.length
  .ok (.rcptToWrite, key)

def rcptToAnswer (env : Env) (key : Key) : Result (SmtpState × Key) :=
  match key.data.requestParser.command with
  | .rcpt => do
    -- with an empty list `create_rcpt_node` is called directly, which makes the same list
    if ← checkEmailDomain key.data.requestParser.request.bytes then acceptRcpt env key .rcptToRead
    else
      let key ← reply key .rcptToRead
        (ascii "550 Invalid domain. The domain specified does not exist\r\n") 57
      .ok (.rcptToWrite, key)
  | .quit => quitReply env key .rcptToRead
  | .data => do
    let key ← reply key .rcptToRead
      (ascii "503 Bad sequence of commands. RCPT TO command must precede DATA command\r\n") 73
    .ok (.mailFromWrite, key)
  | _ => do
    let key ← reply key .rcptToRead
      (ascii "500 Syntax error. Expected: RCPT TO:<email@domain>\r\n") 52
    .ok (.rcptToWrite, key)

def rcptToReadProcess (env : Env) (key : Key) : Result (SmtpState × Key) :=
  requestProcess env key .rcptToRead rcptToAnswer

def rcptToRead (env : Env) (key : Key) : Result (SmtpState × Key) :=
  readStatus env key rcptToReadProcess

def rcptToWrite (env : Env) (key : Key) : Result (SmtpState × Key) :=
  match key.data.requestParser.command with
  | .rcpt => do
    if ← checkEmailDomain key.data.requestParser.request.bytes then
      writeStatus env key .rcptToWrite .dataRead
    else writeStatus env key .rcptToWrite .rcptToRead
  | _ => writeStatus env key .rcptToWrite .rcptToRead

def dataAnswer (env : Env) (key : Key) : Result (SmtpState × Key) :=
  match key.data.requestParser.command with
  | .data => do
    let key ← reply key .dataRead (ascii "354 End data with <CR><LF>.<CR><LF>\r\n") 37
    let emails := key.data.rcptList.map RcptNode.email
    let (rcptList, os) ← createMailsFiles env key.os key.data.rcptList key.data.mailfrom
      key.globals.program key.data.transformation
    .ok (.dataWrite, { key with
      data := { key.data with rcptList }
      os
      log := key.log ++ [.mailsCreated emails key.data.mailfrom] })
  | .quit => quitReply env key .dataRead
  | .rcpt => acceptRcpt env key .dataRead
  | _ => do
    let key ← reply key .dataRead
      (ascii "500 Syntax error. Expected: DATA or RCPT TO:<email@domain>\r\n") 60
    .ok (.dataWrite, key)

def dataReadProcess (env : Env) (key : Key) : Result (SmtpState × Key) :=
  requestProcess env key .dataRead dataAnswer

def dataRead (env : Env) (key : Key) : Result (SmtpState × Key) := readStatus env key dataReadProcess

def dataWrite (env : Env) (key : Key) : Result (SmtpState × Key) :=
  match key.data.requestParser.command with
  | .data => writeStatus env key .dataWrite .mailInfoRead
  | .rcpt => writeStatus env key .dataWrite .dataRead
  | _ => writeStatus env key .dataWrite .dataRead

def dataBufferInit (_state : Nat) (key : Key) : Result Key :=
  .ok { key with data := { key.data with dataParser := dataParserInit key.data.dataParser } }

def mailInfoReadClose (env : Env) (_state : Nat) (key : Key) : Result Key := do
  let mailsSent ← increment key.globals.mailsSent
  let os ← closeFds env key.os key.data.rcptList
  .ok { key with
    globals := { key.globals with mailsSent }
    os
    data := { key.data with rcptList := [] } }

def mailInfoReadProcess (_env : Env) (key : Key) : Result (SmtpState × Key) := do
  let reset := { key.data.dataParser with dataBuffer := bufferReset key.data.dataParser.dataBuffer }
  let (rb, dp) ← dataConsume key.data.readBuffer reset
  let os ← writeToFiles key.os dp key.data.rcptList
  let key := { key with data := { key.data with readBuffer := rb, dataParser := dp }, os }
  if dataIsDone dp.state then
    match selectorSetInterestKey key .write with
    | (true, key) =>
      if dp.state = .done then
        let message := ascii "250 Ok: queued\r\n"
        let key ← putString key message message.length
        .ok (.mailInfoWrite, { key with log := key.log ++ [.stored message] })
      else
        let key ← putString key (ascii "554 Transaction failed\r\n") 24
        .ok (.error, key)
    | (false, key) => .ok (.error, key)
  else .ok (.mailInfoRead, key)

def mailInfoRead (env : Env) (key : Key) : Result (SmtpState × Key) :=
  readStatus env key mailInfoReadProcess

def mailInfoWrite (env : Env) (key : Key) : Result (SmtpState × Key) :=
  writeStatus env key .mailInfoWrite .mailFromRead

/-- A callback, with its state as the number it returns. -/
def callback (f : Env → Key → Result (SmtpState × Key)) (env : Env) (key : Key) : Result (Nat × Key) := do
  let (ret, key) ← f env key
  .ok (ret.index, key)

def clientStatbl (env : Env) : List (StateDefinition Key) := [
  { state := SmtpState.greetingWrite.index, onWriteReady := some (callback greetingWrite env) },
  { state := SmtpState.failedConnectionRead.index, onArrival := some requestReadInit,
    onReadReady := some (callback failedConnectionRead env) },
  { state := SmtpState.failedConnectionWrite.index,
    onWriteReady := some (callback failedConnectionWrite env) },
  { state := SmtpState.ehloRead.index, onArrival := some requestReadInit,
    onReadReady := some (callback ehloRead env) },
  { state := SmtpState.ehloWrite.index, onWriteReady := some (callback ehloWrite env) },
  { state := SmtpState.mailFromRead.index, onArrival := some requestReadInit,
    onReadReady := some (callback mailFromRead env) },
  { state := SmtpState.mailFromWrite.index, onWriteReady := some (callback mailFromWrite env) },
  { state := SmtpState.rcptToRead.index, onArrival := some requestReadInit,
    onReadReady := some (callback rcptToRead env) },
  { state := SmtpState.rcptToWrite.index, onWriteReady := some (callback rcptToWrite env) },
  { state := SmtpState.dataRead.index, onArrival := some requestReadInit,
    onReadReady := some (callback dataRead env) },
  { state := SmtpState.dataWrite.index, onDeparture := some dataBufferInit,
    onWriteReady := some (callback dataWrite env) },
  { state := SmtpState.mailInfoRead.index, onReadReady := some (callback mailInfoRead env) },
  { state := SmtpState.mailInfoWrite.index, onDeparture := some (mailInfoReadClose env),
    onWriteReady := some (callback mailInfoWrite env) },
  { state := SmtpState.done.index },
  { state := SmtpState.error.index }]

/-- The connection leaves the selector, which frees it, and its descriptor is closed. Its client was counted
when it came, so that `--` stays among the numbers of an `int`. -/
def smtpDone (key : Key) : Result Key :=
  if key.registered then
    .ok { key with
      registered := false
      interest := .noop
      os := key.os.close key.fd
      globals := { key.globals with currentUsers := key.globals.currentUsers - 1 } }
  else .error (.abort .smtpDone)

def smtpRead (env : Env) (key : Key) : Result Key := do
  let (st, stm, key) ← stmHandlerRead (clientStatbl env) key.data.stm key
  let key := { key with data := { key.data with stm } }
  if st = SmtpState.error.index ∨ st = SmtpState.done.index then smtpDone key else .ok key

def smtpWrite (env : Env) (key : Key) : Result Key := do
  let (st, stm, key) ← stmHandlerWrite (clientStatbl env) key.data.stm key
  let key := { key with data := { key.data with stm } }
  if st = SmtpState.error.index ∨ st = SmtpState.done.index then smtpDone key else .ok key

/-- What `accept`, `selector_fd_set_nio`, `malloc` and `selector_register` give. -/
structure AcceptOutcome where
  client : Option Nat
  nio : Bool
  memory : Bool
  registers : Bool
deriving DecidableEq, Repr

/-- The memory of a `struct smtp`, cleared. -/
def blankSmtp (initial : Nat) (transformation : Bool) : Smtp :=
  let array := List.replicate 2048 0
  { stm := { initial, maxState := SmtpState.error.index, current := none }
    requestParser := requestParserInit
    dataParser := { dataBuffer := { raw := array, data := 0, limit := 0, read := 0, write := 0 }, state := .data }
    readBuffer := { raw := array, data := 0, limit := 0, read := 0, write := 0 }
    writeBuffer := { raw := array, data := 0, limit := 0, read := 0, write := 0 }
    transformation
    mailfrom := List.replicate 255 0
    rcptList := [] }

/-- `smtp_passive_accept`, with `program` the data of the passive socket. The failures that
leave no `struct smtp` destroy a null pointer. -/
def smtpPassiveAccept (env : Env) (outcome : AcceptOutcome) (program : Option (List UInt8))
    (g : Globals) (os : Os) : Result (Globals × Os × Option Key) := do
  let client ← demand .undefined outcome.client
  let os := { os with fds := client :: os.fds }
  if !outcome.nio || !outcome.memory then .error .undefined
  else
    let initial := if g.currentUsers < g.maxUser then SmtpState.greetingWrite
      else SmtpState.failedConnectionWrite
    let state := blankSmtp initial.index (g.transformations && program.isSome)
    let stm ← stmInit (clientStatbl env) state.stm
    let data := { state with
      stm
      requestParser := requestParserInit
      dataParser := dataParserInit state.dataParser
      readBuffer := bufferInit 2048 state.readBuffer.raw
      writeBuffer := bufferInit 2048 state.writeBuffer.raw }
    let currentUsers ← increment g.currentUsers
    let historicUsers ← increment g.historicUsers
    let globals := { g with program, currentUsers, historicUsers }
    if outcome.registers then
      .ok (globals, os, some
        { fd := client, registered := true, interest := .write, data, globals,
          os := { os with trace := [] }, log := [] })
    else .ok (globals, os.close client, none)

end Smtpd
