import Smtpd.UdpNoninterference

namespace Smtpd

open Checked CString

/-- The commands that ask for a number or a status, or set one. -/
def answeredCommands : List (List UInt8) :=
  [ascii "historico\n", ascii "actual\n", ascii "bytes\n", ascii "mail\n", ascii "cant\n", ascii "status\n",
    ascii "transon\n", ascii "transoff\n"]

/-- `max <cant>` -/
def IsMax (command : List UInt8) : Prop :=
  ∃ number, number ≠ [] ∧ isNumber number = true ∧ command = ascii "max " ++ number ++ [LF]

def Documented (command : List UInt8) : Prop :=
  command ∈ answeredCommands ∨ command = ascii "help\n" ∨ IsMax command

/-- The answer to a command is written while it is handled, and says what the protocol has it say. -/
structure Answered (g : Globals) (command : List UInt8) (g' : Globals) (rta : Reply) : Prop where
  written : rta ≠ .uninitialised
  help : command = ascii "help\n" → ∃ rest, rta = .text (help ++ rest)
  unknown : ¬ Documented command → g' = g ∧ ∃ rest, rta = .text (utf8 "Comando no reconocido" ++ rest)

section Replies

variable {g : Globals} {s s' : UdpServer} {a d command : List UInt8}

theorem managementAnswer_written : (managementAnswer g command).2 ≠ .uninitialised ↔
    command ∈ answeredCommands ∨ command = ascii "help\n" := by
  unfold managementAnswer answeredCommands
  simp only [List.mem_cons, List.not_mem_nil, or_false]
  split_ifs <;> simp_all [response]

/-- What the help is answered with is the text for a command that is not known, and not that of the help. -/
theorem managementAnswer_help (rest : List UInt8) : (managementAnswer g (ascii "help\n")).2 ≠ .text (help ++ rest) := by
  have hanswer : (managementAnswer g (ascii "help\n")).2 = response (utf8 "Comando no reconocido\n " ++ help) := rfl
  rw [hanswer]
  intro h
  have hfirst : ((utf8 "Comando no reconocido\n " ++ help).take (bufferSize - 1)).head? = (help ++ rest).head? :=
    congrArg List.head? (Reply.text.inj h)
  have hanswered : ((utf8 "Comando no reconocido\n " ++ help).take (bufferSize - 1)).head? = some 67 := by decide +kernel
  have hhelp : help.head? = some 72 := by decide +kernel
  rw [hanswered, List.head?_append, hhelp] at hfirst
  cases hfirst

theorem managementAnswer_answered :
    Answered g command (managementAnswer g command).1 (managementAnswer g command).2 ↔ command ∈ answeredCommands := by
  constructor
  · intro h
    refine (managementAnswer_written.mp h.written).resolve_right ?_
    rintro rfl
    obtain ⟨rest, hrest⟩ := h.help rfl
    exact managementAnswer_help rest hrest
  · intro h
    refine ⟨managementAnswer_written.mpr (Or.inl h), ?_, fun hunknown => absurd (Or.inl h) hunknown⟩
    rintro rfl
    exact absurd h (by decide)

/-- A client that is authenticated is answered as the protocol says exactly if its datagram is one of the commands that
ask for a number or a status, or set one. -/
theorem managementReply_iff (hauth : s.stateOf a = .authSuccess) (d : List UInt8) (memory : Bool) :
    ∃ s' rta, udpReadHandler s (.datagram a d memory) = .ok (s', [rta]) ∧
      (Answered s.globals (datagramCommand d) s'.globals rta ↔ datagramCommand d ∈ answeredCommands) :=
  ⟨_, _, udpReadHandler_authSuccess hauth memory, managementAnswer_answered⟩

/-- A client that is authenticated sends a command that is known. -/
def UdpEvent.Known (s : UdpServer) : UdpEvent → Prop
  | .failure => True
  | .datagram a d _ => s.stateOf a = .authSuccess →
      datagramCommand d ∈ answeredCommands ∨ datagramCommand d = ascii "help\n"

instance (s : UdpServer) : DecidablePred (UdpEvent.Known s)
  | .failure => isTrue trivial
  | .datagram a d _ => inferInstanceAs (Decidable (s.stateOf a = .authSuccess →
      datagramCommand d ∈ answeredCommands ∨ datagramCommand d = ascii "help\n"))

theorem sent_texts (texts : List (List UInt8)) : (texts.map Reply.text).mapM Reply.sent = .ok texts := by
  induction texts with
  | nil => rfl
  | cons text texts ih =>
    rw [List.map_cons, List.mapM_cons, ih]
    rfl

/-- What is sent back was written, if the command is known. -/
theorem udpReadHandler_texts {e : UdpEvent} {replies : List Reply} (hknown : e.Known s)
    (h : udpReadHandler s e = .ok (s', replies)) : ∃ texts : List (List UInt8), replies = texts.map Reply.text := by
  cases e with
  | failure =>
    cases h
    exact ⟨[], rfl⟩
  | datagram a d memory =>
    obtain ⟨c, hc, h⟩ := bind_ok h
    have hstate : c.state = s.stateOf a := findClient_known (demand_ok hc)
    dsimp only at h
    split at h
    · cases h
      exact ⟨[utf8 "Ingrese usuario: "], rfl⟩
    · obtain ⟨r, -, h⟩ := bind_ok h
      cases h
      exact ⟨_, rfl⟩
    · obtain ⟨r, -, h⟩ := bind_ok h
      cases h
      exact ⟨_, rfl⟩
    next hauth =>
      obtain ⟨⟨globals, rta⟩, hcommand, h⟩ := bind_ok h
      cases h
      have hanswer := Except.ok.inj ((udpCommand_eq (cstring_terminated _)).symm.trans hcommand)
      have hrta : (managementAnswer s.globals (datagramCommand d)).2 = rta := congrArg Prod.snd hanswer
      have hwritten : rta ≠ .uninitialised := by
        rw [← hrta]
        exact managementAnswer_written.mpr (hknown (hstate.symm.trans hauth))
      cases rta with
      | text bytes => exact ⟨[bytes], rfl⟩
      | uninitialised => exact absurd rfl hwritten
    · cases h
      exact ⟨[], rfl⟩

/-- A datagram that is handled is answered, if its command is known. -/
theorem udpServe_of_known {e : UdpEvent} (hknown : e.Known s) (h : udpStep s e = .ok s') : udpServe s e = .ok s' := by
  obtain ⟨⟨t, replies⟩, hhandled, h⟩ := bind_ok h
  cases h
  obtain ⟨texts, rfl⟩ := udpReadHandler_texts hknown hhandled
  rw [udpServe, hhandled, ok_bind]
  dsimp only
  rw [sent_texts]
  rfl

abbrev authenticatedServer : UdpServer := { clients := [⟨ascii "10.0.0.7", .authSuccess⟩], globals := initialGlobals }

theorem managementReply_iff_cant :
    ∃ s' rta, udpReadHandler authenticatedServer (.datagram (ascii "10.0.0.7") (ascii "Cant\n") true) = .ok (s', [rta]) ∧
      Answered initialGlobals (ascii "cant\n") s'.globals rta := by
  obtain ⟨s', rta, hok, hiff⟩ := @managementReply_iff authenticatedServer (ascii "10.0.0.7") rfl (ascii "Cant\n") true
  exact ⟨s', rta, hok, hiff.mpr (by decide +kernel)⟩

theorem managementReply_broken :
    udpReadHandler authenticatedServer (.datagram (ascii "10.0.0.7") (ascii "hola\n") true) =
        .ok (authenticatedServer, [.uninitialised]) ∧
      ¬ Answered initialGlobals (datagramCommand (ascii "hola\n")) initialGlobals .uninitialised :=
  ⟨by decide +kernel, fun h => h.written rfl⟩

end Replies

end Smtpd
