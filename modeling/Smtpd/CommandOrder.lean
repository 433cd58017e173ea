import Smtpd.DialogueRefinement
import Smtpd.Lib.History

namespace Smtpd

open Checked CString Runs History

/-- The command was answered with this code. -/
def Entry.AnsweredWith (code : List UInt8) (command : RequestCommand) : Entry → Prop
  | .answered _ c _ reply => c = command ∧ replyCode reply = code
  | _ => False

instance (code : List UInt8) (command : RequestCommand) :
    DecidablePred (Entry.AnsweredWith code command)
  | .answered _ c _ reply => inferInstanceAs (Decidable (c = command ∧ replyCode reply = code))
  | .arrived _ | .mailsCreated _ _ | .stored _ => isFalse id

/-- A recipient of the domain of the server was taken. -/
def Entry.TakesRcpt : Entry → Prop
  | .answered _ c request reply =>
    c = .rcpt ∧ replyCode reply = ascii "250" ∧ checkEmailDomain request.bytes = .ok true
  | _ => False

/-- `MAIL_FROM_READ` was entered. -/
def Entry.entersMail : Entry → Bool
  | .arrived n => n = SmtpState.mailFromRead.index
  | _ => false

def Greeted (log : List Entry) : Prop :=
  ∃ e ∈ log, e.AnsweredWith (ascii "250") .helo ∨ e.AnsweredWith (ascii "250") .ehlo

def EnteredMail (log : List Entry) : Prop := ∃ e ∈ log, e.entersMail = true

def SenderTaken (log : List Entry) : Prop :=
  ∃ e ∈ since Entry.entersMail log, e.AnsweredWith (ascii "250") .mail

def RcptTaken (log : List Entry) : Prop :=
  Ordered Entry.entersMail (Entry.AnsweredWith (ascii "250") .mail) Entry.TakesRcpt log

/-- `DATA` is answered with 354 behind everything that has to precede it. -/
def DataInOrder (log : List Entry) (e : Entry) : Prop :=
  e.AnsweredWith (ascii "354") .data → Greeted log ∧ EnteredMail log ∧ RcptTaken log

/-- What stands behind a stage. -/
structure Reached (stage : Nat) (log : List Entry) (rcpts : List (List UInt8)) : Prop where
  greeted : 1 ≤ stage → Greeted log
  entered : 2 ≤ stage → EnteredMail log
  sender : 3 ≤ stage → SenderTaken log
  rcpt : 4 ≤ stage → RcptTaken log ∧ rcpts ≠ []

structure Dialogue.InOrder (d : Dialogue) : Prop where
  log : Always DataInOrder d.log
  reached : Reached (d.state.stage d.command d.request) d.log d.rcpts

section Stages

variable {k m : Nat} {log : List Entry} {rcpts : List (List UInt8)} {e : Entry}

theorem reached_zero (log : List Entry) (rcpts : List (List UInt8)) : Reached 0 log rcpts := by
  constructor <;> intro h <;> omega

theorem Reached.mono (h : Reached k log rcpts) (hm : m ≤ k) : Reached m log rcpts :=
  ⟨fun hk => h.greeted (by omega), fun hk => h.entered (by omega), fun hk => h.sender (by omega),
    fun hk => h.rcpt (by omega)⟩

theorem Greeted.concat (h : Greeted log) (e : Entry) : Greeted (log ++ [e]) := by
  obtain ⟨g, hg, hcode⟩ := h
  exact ⟨g, by simp [hg], hcode⟩

theorem Reached.concat (h : Reached k log rcpts) (he : e.entersMail = false) :
    Reached k (log ++ [e]) rcpts := by
  refine ⟨fun hk => (h.greeted hk).concat e, fun hk => ?_, fun hk => ?_, fun hk => ?_⟩
  · obtain ⟨a, ha, hm⟩ := h.entered hk
    exact ⟨a, by simp [ha], hm⟩
  · obtain ⟨s, hs, hcode⟩ := h.sender hk
    exact ⟨s, mem_since_concat he hs, hcode⟩
  · exact ⟨(h.rcpt hk).1.concat he, (h.rcpt hk).2⟩

/-- Entering `MAIL_FROM_READ` starts a transaction. -/
theorem reached_entered (h : Reached 1 log rcpts) (rcpts' : List (List UInt8)) :
    Reached 2 (log ++ [.arrived SmtpState.mailFromRead.index]) rcpts' :=
  ⟨fun _ => (h.greeted le_rfl).concat _, fun _ => ⟨.arrived SmtpState.mailFromRead.index, by simp, rfl⟩,
    fun hk => by omega, fun hk => by omega⟩

theorem reached_sender (h : Reached 2 log rcpts) (he : e.AnsweredWith (ascii "250") .mail) :
    Reached 3 (log ++ [e]) rcpts := by
  have hnot : e.entersMail = false := by
    cases e with
    | answered => rfl
    | _ => exact he.elim
  have hkeep := h.concat hnot
  refine ⟨fun _ => hkeep.greeted (by omega), fun _ => hkeep.entered le_rfl, fun _ => ?_, fun hk => by omega⟩
  exact ⟨e, by simp [hnot], he⟩

theorem reached_rcpt (h : Reached 3 log rcpts) (he : e.TakesRcpt) (email : List UInt8) :
    Reached 4 (log ++ [e]) (email :: rcpts) := by
  have hnot : e.entersMail = false := by
    cases e with
    | answered => rfl
    | _ => exact he.elim
  have hkeep := h.concat hnot
  refine ⟨fun _ => hkeep.greeted (by omega), fun _ => hkeep.entered (by omega),
    fun _ => hkeep.sender le_rfl, fun _ => ⟨?_, by simp⟩⟩
  obtain ⟨s, hs, hcode⟩ := h.sender le_rfl
  exact ordered_concat hnot hcode hs he

theorem Reached.more_rcpts (h : Reached 3 log rcpts) (rcpts' : List (List UInt8)) :
    Reached 3 log rcpts' :=
  ⟨h.greeted, h.entered, h.sender, fun hk => by omega⟩

end Stages

section Moves

variable {d : Dialogue} {next : SmtpState}

theorem move_log_inOrder (h : Always DataInOrder d.log) : Always DataInOrder (d.move next).log := by
  rcases d.move_log next with hlog | ⟨hlog, -⟩
  · rwa [hlog]
  · rw [hlog]
    exact always_concat.mpr ⟨h, fun hn => hn.elim⟩

theorem entersMail_arrived (h : next ≠ .mailFromRead) :
    (Entry.arrived next.index).entersMail = false :=
  decide_eq_false fun hn => h (SmtpState.index_injective hn)

/-- Any state but `MAIL_FROM_READ` is entered with what has been reached. -/
theorem inOrder_move (hlog : Always DataInOrder d.log) (hn : next ≠ .mailFromRead)
    (hst : d.state ≠ .mailInfoWrite) (h : Reached (next.stage d.command d.request) d.log d.rcpts) :
    (d.move next).InOrder := by
  refine ⟨move_log_inOrder hlog, ?_⟩
  rw [move_stage, d.move_rcpts hst]
  rcases d.move_log next with hl | ⟨hl, -⟩
  · rwa [hl]
  · rw [hl]
    exact h.concat (entersMail_arrived hn)

theorem inOrder_enterMail (hlog : Always DataInOrder d.log) (hst : d.state ≠ .mailFromRead)
    (h : Reached 1 d.log d.rcpts) : (d.move .mailFromRead).InOrder := by
  refine ⟨move_log_inOrder hlog, ?_⟩
  rw [move_stage]
  have hmove : (d.move .mailFromRead).log = d.log ++ [.arrived SmtpState.mailFromRead.index] := by
    rw [Dialogue.move, if_neg (Ne.symm hst)]
    rfl
  rw [hmove]
  exact reached_entered h _

theorem inOrder_over (hlog : Always DataInOrder d.log) (hn : next = .error ∨ next = .done) :
    (d.move next).InOrder := by
  refine ⟨move_log_inOrder hlog, ?_⟩
  rw [move_stage]
  rcases hn with rfl | rfl <;> exact reached_zero _ _

end Moves

/-- An answer that is not 354 does not matter to the order. -/
theorem always_answered {log : List Entry} {st : SmtpState} {command : RequestCommand}
    {request : Request} {reply : List UInt8} (h : Always DataInOrder log)
    (hcode : replyCode reply ≠ ascii "354") :
    Always DataInOrder (log ++ [.answered st command request reply]) :=
  always_concat.mpr ⟨h, fun hn => absurd hn.2 hcode⟩

theorem inOrder_answer {d : Dialogue} {next : SmtpState} {command : RequestCommand}
    {request : Request} {reply : List UInt8} (hlog : Always DataInOrder d.log)
    (hcode : replyCode reply ≠ ascii "354") (hn : next ≠ .mailFromRead) (hst : d.state ≠ .mailInfoWrite)
    (h : Reached (next.stage command request) (d.answer command request reply).log d.rcpts) :
    ((d.answer command request reply).move next).InOrder :=
  inOrder_move (always_answered hlog hcode) hn hst h

theorem sent_inOrder {d : Dialogue} {next : SmtpState} (h : d.InOrder)
    (hafter : d.afterReply = some next) : (d.move next).InOrder := by
  rcases after_stage hafter with ⟨hn, hst, hsame⟩ | ⟨rfl, hst, hone, -⟩
  · exact inOrder_move h.log hn hst (hsame ▸ h.reached)
  · exact inOrder_enterMail h.log hst (h.reached.mono hone)

theorem refused_inOrder {d : Dialogue} {command : RequestCommand} {request : Request}
    {reply : List UInt8} {next : SmtpState} (h : d.InOrder) (hr : d.refusal command request = some next)
    (hcode : replyCode reply ≠ ascii "354") : ((d.answer command request reply).move next).InOrder := by
  obtain ⟨hn, hst, hstage⟩ := refusal_stage hr
  refine inOrder_answer h.log hcode hn hst (Reached.concat (h.reached.mono ?_) rfl)
  rcases hstage with hsame | ⟨hrcpt, rfl, rfl⟩
  · exact hsame.le
  · simp [SmtpState.stage, hrcpt]

/-- Every step keeps the order. -/
theorem step_inOrder {d d' : Dialogue} {asked : Option (RequestCommand × Request)} (h : d.InOrder)
    (hstep : Dialogue.Step asked d d') : d'.InOrder := by
  obtain ⟨next, d₁, hdoes, rfl⟩ := hstep
  obtain ⟨hlog, hreached⟩ := id h
  cases hdoes with
  | idle => rwa [Dialogue.move_self]
  | @listened command request reads =>
    rw [Dialogue.move_self { d with command, request }]
    exact ⟨hlog, by rwa [stage_of_reads reads command d.command request d.request]⟩
  | lost => exact inOrder_over hlog (Or.inl rfl)
  | sent after => exact sent_inOrder h after
  | quit reads code =>
    exact inOrder_over (always_answered hlog (by rw [code]; decide)) (Or.inr rfl)
  | turnedAway state =>
    exact inOrder_move hlog (by decide) (by simp [state]) (reached_zero _ _)
  | refused refusal code =>
    refine refused_inOrder h refusal fun hn => ?_
    rw [hn] at code
    revert code
    decide
  | @greeted command request reply state hello code =>
    refine inOrder_answer hlog (by rw [code]; decide) (by decide) (by simp [state]) ?_
    rw [SmtpState.stage, if_pos hello]
    refine ⟨fun _ => ⟨.answered d.state command request reply, by simp [Dialogue.answer], ?_⟩,
      fun hk => by omega, fun hk => by omega, fun hk => by omega⟩
    rcases hello with rfl | rfl
    · exact Or.inr ⟨rfl, code⟩
    · exact Or.inl ⟨rfl, code⟩
  | sender state given kept code =>
    rw [state] at hreached
    exact inOrder_move (always_answered hlog (by rw [code]; decide)) (by decide)
      (by simp [Dialogue.answer, state]) (reached_sender hreached ⟨rfl, code⟩)
  | @recipient request reply email address takes given kept code =>
    have hthree : Reached 3 d.log d.rcpts := by
      rcases takes with ⟨hst, -⟩ | hst <;> rw [hst] at hreached
      · exact hreached
      · exact hreached.mono (by simp [SmtpState.stage])
    refine inOrder_move (always_answered hlog (by rw [code]; decide)) (by decide) ?_ ?_
    · rcases takes with ⟨hst, -⟩ | hst <;> simp [Dialogue.answer, hst]
    · by_cases hcheck : checkEmailDomain request.bytes = .ok true
      · rw [SmtpState.stage, if_pos ⟨rfl, hcheck⟩]
        have htakes : (Entry.answered d.state .rcpt request reply).TakesRcpt := ⟨rfl, code, hcheck⟩
        exact reached_rcpt hthree htakes email
      · rw [SmtpState.stage, if_neg fun hn => hcheck hn.2]
        exact (hthree.concat rfl).more_rcpts _
  | data state code =>
    rw [state] at hreached
    refine inOrder_move ?_ (by decide) (by simp [Dialogue.answer, state]) ?_
    · refine always_concat.mpr ⟨always_concat.mpr ⟨hlog, fun _ => ?_⟩, fun hn => hn.elim⟩
      exact ⟨hreached.greeted (by simp [SmtpState.stage]), hreached.entered (by simp [SmtpState.stage]),
        (hreached.rcpt le_rfl).1⟩
    · exact (hreached.concat rfl).concat rfl
  | stored state =>
    rw [state] at hreached
    exact inOrder_move (always_concat.mpr ⟨hlog, fun hn => hn.elim⟩) (by decide) (by simp [state])
      (hreached.concat rfl)

/-- `DATA` is answered with 354 only behind a greeting that was answered with 250 and, since
`MAIL_FROM_READ` was entered for the last time, a sender and then a recipient of the domain that
were. From there on until the message is answered there are recipients. -/
theorem data_in_order {key key' : Key} {es : List Event} (ha : Accepted key)
    (h : run sessionStep key es = .ok key') :
    Always DataInOrder key'.log ∧
      (key'.state = .dataRead ∨ key'.state = .dataWrite ∨ key'.state = .mailInfoRead ∨
        key'.state = .mailInfoWrite → key'.data.rcptList ≠ []) := by
  obtain ⟨-, hI⟩ := dialogue_invariant (I := Dialogue.InOrder) (C := fun _ _ => True)
    (fun d hst _ hlog => by
      refine ⟨hlog ▸ always_nil _, ?_⟩
      rcases hst with hst | hst <;> rw [hst] <;> exact reached_zero _ _)
    (fun d asked d' hI _ hstep => step_inOrder hI hstep) ha
    (Meets.of_events fun _ _ _ => trivial) h
  refine ⟨hI.log, fun hst hnil => ?_⟩
  have hfour : Reached 4 key'.log (key'.data.rcptList.map RcptNode.email) := by
    have hr := hI.reached
    simp only [Key.dialogue] at hr
    rcases hst with hst | hst | hst | hst <;> rw [hst] at hr <;> exact hr
  exact (hfour.rcpt le_rfl).2 (by rw [hnil]; rfl)

def oneMail : List (List UInt8) :=
  [ascii "EHLO there\r\n", ascii "MAIL FROM:<a@example.com>\r\n", ascii "RCPT TO:<b@smtpd.com>\r\n",
    ascii "DATA\r\n"]

theorem data_in_order_one_mail : ∃ key', run sessionStep firstKey (script oneMail) = .ok key' ∧
    (∃ e ∈ key'.log, e.AnsweredWith (ascii "354") .data) ∧ Always DataInOrder key'.log ∧
      (key'.state = .dataRead ∨ key'.state = .dataWrite ∨ key'.state = .mailInfoRead ∨
        key'.state = .mailInfoWrite → key'.data.rcptList ≠ []) := by
  have hlog : ((run sessionStep firstKey (script oneMail)).toOption.any fun key =>
      key.log.any fun e => e.AnsweredWith (ascii "354") .data) = true := by
    decide +kernel
  obtain ⟨key', h⟩ : ∃ key', run sessionStep firstKey (script oneMail) = .ok key' :=
    ok_of_toOption (by decide +kernel)
  rw [h] at hlog
  exact ⟨key', h, by simpa [Except.toOption] using hlog, data_in_order accepted_first h⟩

end Smtpd
