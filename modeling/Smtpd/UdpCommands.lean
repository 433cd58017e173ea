import Smtpd.UdpAuthentication

namespace Smtpd

open Checked CString

/-- What a datagram is compared as: its bytes up to the first NUL, in lower case. -/
def datagramCommand (d : List UInt8) : List UInt8 := ((d.take (bufferSize - 1)).takeWhile (· ≠ 0)).map tolower

/-- What a command makes of the shared variables, and what it is answered with. -/
def managementAnswer (g : Globals) (command : List UInt8) : Globals × Reply :=
  if command = ascii "historico\n" then
    (g, response (utf8 "Cantidad historica " ++ decimal (getHistoricUsers g) ++ utf8 "\n\n"))
  else if command = ascii "actual\n" then
    (g, response (utf8 "Cantidad actual " ++ decimal (getCurrentUsers g) ++ utf8 "\n\n"))
  else if command = ascii "bytes\n" then
    (g, response (utf8 "Bytes transferidos " ++ decimal (getCurrentBytes g) ++ utf8 "\n\n"))
  else if command = ascii "mail\n" then
    (g, response (utf8 "Mails enviados " ++ decimal (getCurrentMails g) ++ utf8 "\n\n"))
  else if command = ascii "cant\n" then
    (g, response (utf8 "Cantidad maxima de usuarios " ++ decimal (getCantMaxUsers g) ++ utf8 "\n\n"))
  else if command = ascii "status\n" then
    if getCurrentStatus g then (g, response (utf8 "Las transformaciones estan activadas\n\n"))
    else (g, response (utf8 "Las transformaciones estan desactivadas\n\n"))
  else if command = ascii "transon\n" then
    (setNewStatus g true, response (utf8 "Transformaciones activadas\n\n"))
  else if command = ascii "transoff\n" then
    (setNewStatus g false, response (utf8 "Transformaciones desactivadas\n\n"))
  else if command = ascii "help\n" then (g, response (utf8 "Comando no reconocido\n " ++ help))
  else (g, .uninitialised)

section Command

variable {g : Globals} {buffer t command : List UInt8}

/-- A command is compared within the datagram. -/
theorem strcasecmp_eq (h : cstring buffer = some t) (hzero : (0 : UInt8) ∉ command)
    (hlower : command.map tolower = command) :
    demand Fault.undefined (strcasecmpEq buffer command) = .ok (decide (t.map tolower = command)) := by
  obtain ⟨same, hsame, hiff⟩ := strncasecmpEq_cstring (n := command.length + 1) hzero h
  have hequal : same = true ↔ t.map tolower = command := by
    rw [hiff, hlower]
    refine or_iff_left ?_
    rintro ⟨-, hle, -⟩
    omega
  rw [strcasecmpEq, hsame, demand_some]
  exact congrArg Except.ok (Bool.eq_iff_iff.mpr (by rw [hequal, decide_eq_true_eq]))

/-- One comparison of the chain. -/
theorem command_step {answer other : Result (Globals × Reply)} {a b : Globals × Reply} (h : cstring buffer = some t)
    (hzero : (0 : UInt8) ∉ command) (hlower : command.map tolower = command)
    (hanswer : t.map tolower = command → answer = .ok a) (hother : other = .ok b) :
    (demand Fault.undefined (strcasecmpEq buffer command) >>= fun same => if same = true then answer else other) =
      .ok (if t.map tolower = command then a else b) := by
  rw [strcasecmp_eq h hzero hlower, ok_bind]
  simp only [decide_eq_true_eq]
  split
  next heq => exact hanswer heq
  next => exact hother

/-- The limit of users is looked for in the text of the help only, where it is not. -/
theorem udpCommand_eq (h : cstring buffer = some t) : udpCommand g buffer = .ok (managementAnswer g (t.map tolower)) := by
  have hstep : ∀ {command : List UInt8} {answer : Globals × Reply} {x : Result (Globals × Reply)} {y : Globals × Reply},
      (0 : UInt8) ∉ command → command.map tolower = command → x = .ok y →
      (demand Fault.undefined (strcasecmpEq buffer command) >>= fun same => if same = true then .ok answer else x) =
        .ok (if t.map tolower = command then answer else y) :=
    fun hzero hlower hx => command_step h hzero hlower (fun _ => rfl) hx
  refine hstep (by decide) (by decide) (hstep (by decide) (by decide) (hstep (by decide) (by decide)
    (hstep (by decide) (by decide) (hstep (by decide) (by decide) (command_step h (by decide) (by decide) (fun _ => ?_)
    (hstep (by decide) (by decide) (hstep (by decide) (by decide) (command_step h (by decide) (by decide) (fun htext => ?_)
    rfl))))))))
  · split_ifs <;> rfl
  · have hmax : strncasecmpEq 3 buffer (ascii "max") = some false := by
      obtain ⟨same, hsame, hiff⟩ := strncasecmpEq_cstring (n := 3) (show (0 : UInt8) ∉ ascii "max" by decide) h
      rw [hsame]
      refine congrArg some (Bool.eq_false_iff.mpr fun ht => ?_)
      rcases hiff.mp ht with heq | ⟨-, -, heq⟩
      · rw [htext] at heq
        revert heq
        decide
      · rw [List.map_take, htext] at heq
        revert heq
        decide
    rw [hmax]
    rfl

/-- The answer to a datagram of a client that is authenticated. -/
theorem udpReadHandler_authSuccess {s : UdpServer} {a d : List UInt8} (hauth : s.stateOf a = .authSuccess)
    (memory : Bool) :
    udpReadHandler s (.datagram a d memory) =
      .ok ({ s with globals := (managementAnswer s.globals (datagramCommand d)).1 },
        [(managementAnswer s.globals (datagramCommand d)).2]) := by
  obtain ⟨c, hc, hstate⟩ : ∃ c, findClient s.clients a = some c ∧ c.state = .authSuccess := by
    unfold UdpServer.stateOf at hauth
    split at hauth
    next c hc => exact ⟨c, hc, hauth⟩
    next => cases hauth
  have hknown : knownClients s.clients a memory = s.clients := by rw [knownClients, hc]
  rw [udpReadHandler]
  dsimp only
  rw [hknown, hc, demand_some, ok_bind, hstate]
  dsimp only
  rw [udpCommand_eq (cstring_terminated _), ok_bind]
  rfl

end Command

end Smtpd
