import Smtpd.Connection
import Smtpd.ManagementReplies

namespace Smtpd

open Checked CString

/-- `max n`, the word in any case, and its LF. -/
structure MaxDatagram where
  word : List UInt8
  max : word.map tolower = ascii "max"
  number : Nat
  fits : number ≤ 2147483647

def MaxDatagram.bytes (m : MaxDatagram) : List UInt8 := m.word ++ ascii " " ++ decimal m.number ++ [LF]

/-- The limit of users is `n`: it is what is answered to any client that is authenticated, and what connections are
admitted by. -/
structure LimitSet (s : UdpServer) (n : Nat) : Prop where
  maxUser : s.globals.maxUser = n
  cant : ∀ {b d : List UInt8} {memory : Bool}, s.stateOf b = .authSuccess → datagramCommand d = ascii "cant\n" →
    ∃ s', udpReadHandler s (.datagram b d memory) =
      .ok (s', [response (utf8 "Cantidad maxima de usuarios " ++ decimal n ++ utf8 "\n\n")])
  admits : ∀ {env : Env} {outcome : AcceptOutcome} {program : Option (List UInt8)} {g g' : Globals} {os os' : Os} {key : Key},
    g.maxUser = s.globals.maxUser → smtpPassiveAccept env outcome program g os = .ok (g', os', some key) →
    (key.data.stm.initial = SmtpState.greetingWrite.index ↔ g.currentUsers < n)

/-- The datagram sets the limit, and every other datagram, and this one from a client that is not authenticated, leaves
the limit as it is. -/
structure SetsLimit (s : UdpServer) (a : List UInt8) (m : MaxDatagram) (memory : Bool) : Prop where
  sets : ∃ s' replies, udpReadHandler s (.datagram a m.bytes memory) = .ok (s', replies) ∧ LimitSet s' m.number
  keeps : ∀ {t t' : UdpServer} {b d : List UInt8} {memory' : Bool} {replies : List Reply},
    (t.stateOf b = .authSuccess → ∀ m' : MaxDatagram, d ≠ m'.bytes) →
    udpReadHandler t (.datagram b d memory') = .ok (t', replies) → t'.globals.maxUser = t.globals.maxUser

section Limit

variable {s s' : UdpServer} {a : List UInt8} {n : Nat}

theorem udpReadHandler_maxUser {ev : UdpEvent} {replies : List Reply} (h : udpReadHandler s ev = .ok (s', replies)) :
    s'.globals.maxUser = s.globals.maxUser := by
  obtain hsame | ⟨command, hanswer⟩ := udpReadHandler_globals h
  · rw [hsame]
  · rw [hanswer]
    unfold managementAnswer
    split_ifs <;> rfl

/-- A connection starts with the greeting exactly if there is room for one more user. -/
theorem smtpPassiveAccept_admits {env : Env} {outcome : AcceptOutcome} {program : Option (List UInt8)} {g g' : Globals}
    {os os' : Os} {key : Key} (h : smtpPassiveAccept env outcome program g os = .ok (g', os', some key)) :
    key.data.stm.initial = SmtpState.greetingWrite.index ↔ g.currentUsers < g.maxUser := by
  obtain ⟨client, -, -, ⟨-, -, key', hkey, hwelcomed⟩ | ⟨-, -, hnone⟩⟩ := smtpPassiveAccept_ok h
  · cases hkey
    rw [hwelcomed.initial, Globals.admission]
    split
    next hroom => exact iff_of_true rfl hroom
    next hfull => exact iff_of_false (by decide) hfull
  · cases hnone

theorem limitSet_iff : LimitSet s n ↔ s.globals.maxUser = n := by
  constructor
  · exact fun h => h.maxUser
  · intro hlimit
    refine ⟨hlimit, fun {b d memory} hauth hcant => ?_, fun hsame haccept => ?_⟩
    · have hanswer : managementAnswer s.globals (ascii "cant\n") =
          (s.globals, response (utf8 "Cantidad maxima de usuarios " ++ decimal s.globals.maxUser ++ utf8 "\n\n")) := rfl
      refine ⟨s, ?_⟩
      rw [udpReadHandler_authSuccess hauth memory, hcant, hanswer, hlimit]
    · rw [smtpPassiveAccept_admits haccept, hsame, hlimit]

/-- The command for the limit never comes to be read, so that it sets the limit only to what it is already. -/
theorem setsLimit_iff (hauth : s.stateOf a = .authSuccess) (m : MaxDatagram) (memory : Bool) :
    SetsLimit s a m memory ↔ s.globals.maxUser = m.number := by
  have hok := udpReadHandler_authSuccess (d := m.bytes) hauth memory
  have hsame := udpReadHandler_maxUser hok
  constructor
  · rintro ⟨⟨s', replies, hok', hlimit⟩, -⟩
    cases hok.symm.trans hok'
    exact hsame.symm.trans hlimit.maxUser
  · intro hlimit
    exact ⟨⟨_, _, hok, limitSet_iff.mpr (hsame.trans hlimit)⟩, fun _ h => udpReadHandler_maxUser h⟩

theorem setsLimit_iff_initial :
    SetsLimit authenticatedServer (ascii "10.0.0.7") ⟨ascii "Max", by decide, 500, by decide⟩ true :=
  (setsLimit_iff rfl _ true).mpr rfl

/-- The limit stays what it was, and the client gets what was never written. -/
theorem setsLimit_broken :
    udpReadHandler authenticatedServer (.datagram (ascii "10.0.0.7") (ascii "max 7\n") true) =
        .ok (authenticatedServer, [.uninitialised]) ∧
      ¬ SetsLimit authenticatedServer (ascii "10.0.0.7") ⟨ascii "max", by decide, 7, by decide⟩ true := by
  have hok : udpReadHandler authenticatedServer (.datagram (ascii "10.0.0.7") (ascii "max 7\n") true) =
      .ok (authenticatedServer, [.uninitialised]) := by decide +kernel
  refine ⟨hok, ?_⟩
  rintro ⟨⟨s', replies, hok', hlimit⟩, -⟩
  have hbytes : MaxDatagram.bytes ⟨ascii "max", by decide, 7, by decide⟩ = ascii "max 7\n" := by decide +kernel
  rw [hbytes] at hok'
  cases hok.symm.trans hok'
  exact absurd hlimit.maxUser (by decide)

end Limit

end Smtpd
