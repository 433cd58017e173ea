import Smtpd.Connection

namespace Smtpd

open Checked CString

/-- What of a connection decides how it answers. -/
structure Dialogue where
  state : SmtpState
  command : RequestCommand
  request : Request
  mailfrom : List UInt8
  rcpts : List (List UInt8)
  log : List Entry

def Key.dialogue (key : Key) (st : SmtpState) : Dialogue where
  state := st
  command := key.data.requestParser.command
  request := key.data.requestParser.request
  mailfrom := key.data.mailfrom
  rcpts := key.data.rcptList.map RcptNode.email
  log := key.log

def replyCode (reply : List UInt8) : List UInt8 := reply.take 3

/-- The recipients of a message are forgotten with its answer. -/
def Dialogue.leave (d : Dialogue) (next : SmtpState) : Dialogue :=
  { d with state := next, rcpts := if d.state = .mailInfoWrite then [] else d.rcpts }

/-- A state that reads a command starts with a new one. -/
def Dialogue.arrive (d : Dialogue) : Dialogue :=
  if d.state.readsRequest then
    { d with
      command := requestParserInit.command
      request := requestParserInit.request
      log := d.log ++ [.arrived d.state.index] }
  else d

def Dialogue.move (d : Dialogue) (next : SmtpState) : Dialogue :=
  if next = d.state then d else (d.leave next).arrive

/-- Where a dialogue goes on when an answer is sent. -/
def Dialogue.afterReply (d : Dialogue) : Option SmtpState :=
  match d.state with
  | .greetingWrite => some .ehloRead
  | .failedConnectionWrite => some .failedConnectionRead
  | .ehloWrite => some (if d.command = .ehlo ∨ d.command = .helo then .mailFromRead else .ehloRead)
  | .mailFromWrite => some (if d.command = .mail then .rcptToRead else .mailFromRead)
  | .rcptToWrite =>
    some (if d.command = .rcpt ∧ checkEmailDomain d.request.bytes = .ok true then .dataRead else .rcptToRead)
  | .dataWrite => some (if d.command = .data then .mailInfoRead else .dataRead)
  | .mailInfoWrite => some .mailFromRead
  | _ => none

/-- Where a command that is not taken is answered. -/
def Dialogue.refusal (d : Dialogue) (command : RequestCommand) (request : Request) : Option SmtpState :=
  match d.state with
  | .ehloRead => if command = .ehlo ∨ command = .helo then none else some .ehloWrite
  | .mailFromRead => if command = .mail then none else some .mailFromWrite
  | .rcptToRead =>
    if command = .data then some .mailFromWrite
    else if command = .rcpt ∧ checkEmailDomain request.bytes = .ok true then none
    else some .rcptToWrite
  | .dataRead => if command = .data ∨ command = .rcpt then none else some .dataWrite
  | _ => none

def Dialogue.answer (d : Dialogue) (command : RequestCommand) (request : Request)
    (reply : List UInt8) : Dialogue :=
  { d with command, request, log := d.log ++ [.answered d.state command request reply] }

/-- This recipient is taken in this state. -/
def Dialogue.Takes (d : Dialogue) (request : Request) : Prop :=
  d.state = .rcptToRead ∧ checkEmailDomain request.bytes = .ok true ∨ d.state = .dataRead

instance (d : Dialogue) (request : Request) : Decidable (d.Takes request) :=
  inferInstanceAs (Decidable (_ ∨ _))

/-- What an event does before the states are changed, where the client asks for a command
or for nothing. -/
inductive Dialogue.Does (d : Dialogue) :
    Option (RequestCommand × Request) → SmtpState → Dialogue → Prop
  | idle : Does d none d.state d
  | listened {command request} (reads : d.state.readsRequest = true) :
      Does d none d.state { d with command, request }
  | lost : Does d none .error d
  | sent {next} (after : d.afterReply = some next) : Does d none next d
  | quit {request reply} (reads : d.state.readsRequest = true) (code : replyCode reply = ascii "221") :
      Does d (some (.quit, request)) .done (d.answer .quit request reply)
  | turnedAway {command request} (state : d.state = .failedConnectionRead) :
      Does d (some (command, request)) .failedConnectionWrite { d with command, request }
  | refused {command request reply next} (refusal : d.refusal command request = some next)
      (code : replyCode reply ∈ [ascii "500", ascii "503", ascii "550"]) :
      Does d (some (command, request)) next (d.answer command request reply)
  | greeted {command request reply} (state : d.state = .ehloRead)
      (hello : command = .ehlo ∨ command = .helo) (code : replyCode reply = ascii "250") :
      Does d (some (command, request)) .ehloWrite (d.answer command request reply)
  | sender {request reply mailfrom address} (state : d.state = .mailFromRead)
      (given : cstring request.bytes = some address) (kept : cstring mailfrom = some address)
      (code : replyCode reply = ascii "250") :
      Does d (some (.mail, request)) .mailFromWrite { d.answer .mail request reply with mailfrom }
  | recipient {request reply email address}
      (takes : d.Takes request)
      (given : cstring request.bytes = some address)
      (kept : cstring email = some (address.take (maxEmailLength - 1)))
      (code : replyCode reply = ascii "250") :
      Does d (some (.rcpt, request)) .rcptToWrite
        { d.answer .rcpt request reply with rcpts := email :: d.rcpts }
  | data {request reply} (state : d.state = .dataRead) (code : replyCode reply = ascii "354") :
      Does d (some (.data, request)) .dataWrite
        { d.answer .data request reply with
          log := (d.answer .data request reply).log ++ [.mailsCreated d.rcpts d.mailfrom] }
  | stored {reply} (state : d.state = .mailInfoRead) :
      Does d none .mailInfoWrite { d with log := d.log ++ [.stored reply] }

/-- One event of a dialogue. -/
def Dialogue.Step (asked : Option (RequestCommand × Request)) (d d' : Dialogue) : Prop :=
  ∃ next d₁, d.Does asked next d₁ ∧ d' = d₁.move next

/-- The address of a recipient that is taken fits into its node. -/
def FitsNode (d : Dialogue) (asked : Option (RequestCommand × Request)) : Prop :=
  ∀ r ∈ asked, r.1 = .rcpt → d.Takes r.2 → ∀ address ∈ cstring r.2.bytes, address.length < maxEmailLength

instance (d : Dialogue) (asked : Option (RequestCommand × Request)) : Decidable (FitsNode d asked) :=
  inferInstanceAs (Decidable (∀ r ∈ asked, _))

theorem Dialogue.Does.state {d d₁ : Dialogue} {asked : Option (RequestCommand × Request)}
    {next : SmtpState} (h : d.Does asked next d₁) : d₁.state = d.state := by
  cases h <;> rfl

@[simp] theorem Dialogue.arrive_state (d : Dialogue) : d.arrive.state = d.state := by
  unfold Dialogue.arrive
  split_ifs <;> rfl

@[simp] theorem Dialogue.move_state (d : Dialogue) (next : SmtpState) :
    (d.move next).state = next := by
  unfold Dialogue.move
  split_ifs with h
  · exact h.symm
  · simp [Dialogue.leave]

theorem Dialogue.move_self (d : Dialogue) : d.move d.state = d := if_pos rfl

theorem Dialogue.arrive_log (d : Dialogue) :
    d.arrive.log = d.log ∨
      d.arrive.log = d.log ++ [.arrived d.state.index] ∧ d.state.readsRequest = true := by
  unfold Dialogue.arrive
  split_ifs with h
  · exact Or.inr ⟨rfl, h⟩
  · exact Or.inl rfl

theorem Dialogue.move_log (d : Dialogue) (next : SmtpState) :
    (d.move next).log = d.log ∨
      (d.move next).log = d.log ++ [.arrived next.index] ∧ next.readsRequest = true := by
  unfold Dialogue.move
  split_ifs
  · exact Or.inl rfl
  · exact (d.leave next).arrive_log

theorem Dialogue.move_mailfrom (d : Dialogue) (next : SmtpState) :
    (d.move next).mailfrom = d.mailfrom := by
  simp only [Dialogue.move, Dialogue.arrive]
  split_ifs <;> rfl

theorem Dialogue.move_rcpts (d : Dialogue) {next : SmtpState} (h : d.state ≠ .mailInfoWrite) :
    (d.move next).rcpts = d.rcpts := by
  simp only [Dialogue.move, Dialogue.arrive, Dialogue.leave, if_neg h]
  split_ifs <;> rfl

theorem Dialogue.move_rcpts_stored (d : Dialogue) {next : SmtpState} (h : d.state = .mailInfoWrite)
    (hn : next ≠ .mailInfoWrite) : (d.move next).rcpts = [] := by
  have hne : next ≠ d.state := h ▸ hn
  simp only [Dialogue.move, Dialogue.arrive, Dialogue.leave, if_neg hne, if_pos h]
  split_ifs <;> rfl

/-- A state that does not read a command keeps the last one. -/
theorem Dialogue.move_command (d : Dialogue) {next : SmtpState} (h : next.readsRequest = false) :
    (d.move next).command = d.command ∧ (d.move next).request = d.request := by
  simp only [Dialogue.move, Dialogue.arrive, Dialogue.leave, h, Bool.false_eq_true, if_false]
  split_ifs <;> exact ⟨rfl, rfl⟩

/-- How far a transaction has come: to a greeting, to `MAIL_FROM_READ`, to a sender, to a
recipient. -/
def SmtpState.stage (st : SmtpState) (command : RequestCommand) (request : Request) : Nat :=
  match st with
  | .ehloWrite => if command = .ehlo ∨ command = .helo then 1 else 0
  | .mailFromRead => 2
  | .mailFromWrite => if command = .mail then 3 else 2
  | .rcptToRead => 3
  | .rcptToWrite => if command = .rcpt ∧ checkEmailDomain request.bytes = .ok true then 4 else 3
  | .dataRead | .dataWrite | .mailInfoRead | .mailInfoWrite => 4
  | _ => 0

/-- The stage of a state that reads a command does not depend on the last one. -/
theorem stage_of_reads {next : SmtpState} (h : next.readsRequest = true) (c c' : RequestCommand) (r r' : Request) :
    next.stage c r = next.stage c' r' := by
  cases next <;> first | rfl | cases h

theorem move_stage (d : Dialogue) (next : SmtpState) :
    (d.move next).state.stage (d.move next).command (d.move next).request =
      next.stage d.command d.request := by
  rw [Dialogue.move_state]
  cases hr : next.readsRequest with
  | true => exact stage_of_reads hr _ _ _ _
  | false =>
    obtain ⟨hc, hq⟩ := d.move_command hr
    rw [hc, hq]

/-- An answer that is sent keeps the stage, or it ends a transaction that has not begun or that
is over. -/
theorem after_stage {d : Dialogue} {next : SmtpState} (h : d.afterReply = some next) :
    (next ≠ .mailFromRead ∧ d.state ≠ .mailInfoWrite ∧
      next.stage d.command d.request = d.state.stage d.command d.request) ∨
    (next = .mailFromRead ∧ d.state ≠ .mailFromRead ∧ 1 ≤ d.state.stage d.command d.request ∧
      (d.state.stage d.command d.request ≤ 2 ∨ d.state = .mailInfoWrite)) := by
  unfold Dialogue.afterReply at h
  split at h
  case h_8 => cases h
  all_goals
    rename_i hst
    rw [hst]
    cases h
    simp only [SmtpState.stage]
    try split_ifs
    all_goals simp

/-- A command that is not taken keeps the stage, except for `DATA` without a recipient. -/
theorem refusal_stage {d : Dialogue} {command : RequestCommand} {request : Request} {next : SmtpState}
    (h : d.refusal command request = some next) :
    next ≠ .mailFromRead ∧ d.state ≠ .mailInfoWrite ∧
      (next.stage command request = d.state.stage d.command d.request ∨
        d.state = .rcptToRead ∧ command = .data ∧ next = .mailFromWrite) := by
  unfold Dialogue.refusal at h
  split at h
  case h_5 => cases h
  all_goals
    rename_i hst
    rw [hst]
    split_ifs at h
    all_goals
      cases h
      simp_all [SmtpState.stage]

end Smtpd
