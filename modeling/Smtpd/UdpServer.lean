import Smtpd.Globals

namespace Smtpd

open Checked CString

inductive ClientState
  | init | waitUsername | waitPassword | authSuccess | authFailed
deriving DecidableEq, Repr

/-- An entry of the list of management clients. The address is the bytes of the
`sockaddr_storage` up to its length. -/
structure Client where
  clientAddr : List UInt8
  state : ClientState
deriving DecidableEq, Repr

structure UdpServer where
  clients : List Client
  globals : Globals
deriving DecidableEq, Repr

/-- What `sendto` is given: a text, or an array that was never written. -/
inductive Reply
  | text (bytes : List UInt8)
  | uninitialised
deriving DecidableEq, Repr

/-- What the socket gives when it is ready: `recvfrom` fails, or there is a datagram.
`memory` is false when `malloc` fails. -/
inductive UdpEvent
  | failure
  | datagram (clientAddr : List UInt8) (bytes : List UInt8) (memory : Bool)
deriving DecidableEq, Repr

def utf8 (s : String) : List UInt8 := s.toUTF8.data.toList

def bufferSize : Nat := 1024

def help : List UInt8 := utf8
  "HELP\n - Ingrese 'historico' para obtener el historico de usuarios conectados\n - Ingrese 'actual' para obtener los usuarios conectados ahora\n - Ingrese 'mail' para obtener la cantidad de mails enviados\n - Ingrese 'bytes' para obtener la cantidad de bytes transferidos\n - Ingrese 'status' para ver el estado de las transformaciones\n - Ingrese 'transon' para activar las transformaciones\n - Ingrese 'transoff' para desactivar las transformaciones\n - Ingrese 'cant' para obtener la maxima cantidad de usuarios\n"

def findClient (clients : List Client) (clientAddr : List UInt8) : Option Client :=
  clients.find? (fun c => c.clientAddr = clientAddr)

def addClient (clients : List Client) (clientAddr : List UInt8) (memory : Bool) : List Client :=
  if memory then { clientAddr, state := .init } :: clients else clients

/-- The list after `find_client` and, where that finds nothing, `add_client`. -/
def knownClients (clients : List Client) (clientAddr : List UInt8) (memory : Bool) : List Client :=
  match findClient clients clientAddr with
  | some _ => clients
  | none => addClient clients clientAddr memory

/-- `client->state = state` on the entry that `find_client` finds. -/
def setClientState (clientAddr : List UInt8) (state : ClientState) : List Client → List Client
  | [] => []
  | c :: cs => if c.clientAddr = clientAddr then { c with state } :: cs else c :: setClientState clientAddr state cs

/-- The new state of the client and the text sent. The `\0` is stored into the array
first, and the comparison goes over as many bytes as were received. -/
def handleAuthentication (state : ClientState) (buffer : List UInt8) (received : Nat) :
    Result (ClientState × List (List UInt8)) := do
  let n ← demand .undefined (strcspn LF buffer)
  let buffer := buffer.set n 0
  match state with
  | .waitUsername =>
    let same ← demand .undefined (strncasecmpEq received buffer (ascii "user"))
    if same then .ok (.waitPassword, [utf8 "Ingrese contraseña: "])
    else .ok (.waitUsername, [utf8 "Usuario inexistente. Ingrese usuario: "])
  | .waitPassword =>
    let same ← demand .undefined (strncasecmpEq received buffer (ascii "user"))
    if same then .ok (.authSuccess, [utf8 "Acceso concedido. Puede escribir los comandos.\n"])
    else .ok (.waitUsername, [utf8 "Contraseña incorrecta. Ingrese usuario: "])
  | state => .ok (state, [])

def isNumber (str : List UInt8) : Bool := str.all (fun c => 48 ≤ c ∧ c ≤ 57)

/-- `atoi` on digits. Numbers that do not fit an `int` are undefined. -/
def atoi (str : List UInt8) : Result Int :=
  let n : Nat := str.foldl (fun n c => 10 * n + (c.toNat - 48)) 0
  if n ≤ 2147483647 then .ok n else .error .undefined

def decimal (n : Int) : List UInt8 := utf8 (toString n)

/-- What `snprintf` leaves in `rta`. -/
def response (bytes : List UInt8) : Reply := .text (bytes.take (bufferSize - 1))

/-- The command of an authenticated client. -/
def udpCommand (g : Globals) (buffer : List UInt8) : Result (Globals × Reply) := do
  let is (command : String) := demand Fault.undefined (strcasecmpEq buffer (ascii command))
  if ← is "historico\n" then
    .ok (g, response (utf8 "Cantidad historica " ++ decimal (getHistoricUsers g) ++ utf8 "\n\n"))
  else if ← is "actual\n" then
    .ok (g, response (utf8 "Cantidad actual " ++ decimal (getCurrentUsers g) ++ utf8 "\n\n"))
  else if ← is "bytes\n" then
    .ok (g, response (utf8 "Bytes transferidos " ++ decimal (getCurrentBytes g) ++ utf8 "\n\n"))
  else if ← is "mail\n" then
    .ok (g, response (utf8 "Mails enviados " ++ decimal (getCurrentMails g) ++ utf8 "\n\n"))
  else if ← is "cant\n" then
    .ok (g, response (utf8 "Cantidad maxima de usuarios " ++ decimal (getCantMaxUsers g) ++ utf8 "\n\n"))
  else if ← is "status\n" then
    if getCurrentStatus g then .ok (g, response (utf8 "Las transformaciones estan activadas\n\n"))
    else .ok (g, response (utf8 "Las transformaciones estan desactivadas\n\n"))
  else if ← is "transon\n" then
    .ok (setNewStatus g true, response (utf8 "Transformaciones activadas\n\n"))
  else if ← is "transoff\n" then
    .ok (setNewStatus g false, response (utf8 "Transformaciones desactivadas\n\n"))
  else if ← is "help\n" then
    -- the limit of users is tested for inside the branch of the help
    if ← demand .undefined (strncasecmpEq 3 buffer (ascii "max")) then
      if buffer[3]? = some 32 then
        let rest := buffer.drop 4
        let n ← demand .undefined (strcspn LF rest)
        let numberStr := rest.take n
        if isNumber numberStr then
          let number ← atoi numberStr
          if 0 ≤ number then
            .ok (setMaxUsers g number,
              response (utf8 "Nuevo número máximo de usuarios: " ++ decimal number ++ utf8 "\n\n"))
          else .ok (g, response (utf8 "Error: Argumento inválido\n\n"))
        else .ok (g, response (utf8 "Error: Argumento inválido\n\n"))
      else .ok (g, response (utf8 "Comando no reconocido\n " ++ help))
    else .ok (g, response (utf8 "Comando no reconocido\n " ++ help))
  else .ok (g, .uninitialised)

/-- The handler of the socket: the new server, and what is sent back, in order. -/
def udpReadHandler (s : UdpServer) : UdpEvent → Result (UdpServer × List Reply)
  | .failure => .ok (s, [])
  | .datagram clientAddr bytes memory => do
    let received := bytes.take (bufferSize - 1)
    let buffer := received ++ [0]
    let clients := knownClients s.clients clientAddr memory
    let client ← demand .undefined (findClient clients clientAddr)
    match client.state with
    | .init =>
      .ok ({ s with clients := setClientState clientAddr .waitUsername clients },
        [.text (utf8 "Ingrese usuario: ")])
    | .waitUsername | .waitPassword =>
      let (state, sent) ← handleAuthentication client.state buffer received.length
      let texts := if state = .authSuccess then sent ++ [help] else sent
      .ok ({ s with clients := setClientState clientAddr state clients }, texts.map .text)
    | .authSuccess =>
      let (globals, rta) ← udpCommand s.globals buffer
      .ok ({ clients, globals }, [rta])
    | .authFailed => .ok ({ s with clients }, [])

/-- The bytes of a reply, up to where `strlen` finds their end. In an array that was never written nothing is defined. -/
def Reply.sent : Reply → Result (List UInt8)
  | .text bytes => .ok bytes
  | .uninitialised => .error .undefined

/-- The handler, and `sendto` for its replies. -/
def udpServe (s : UdpServer) (e : UdpEvent) : Result UdpServer := do
  let (s, replies) ← udpReadHandler s e
  let _ ← replies.mapM Reply.sent
  .ok s

end Smtpd
