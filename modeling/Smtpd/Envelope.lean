import Smtpd.DialogueRefinement
import Smtpd.Lib.History

namespace Smtpd

open Checked CString Runs History

/-- What the client was told to be the sender and the recipients of its message. -/
structure Envelope where
  sender : Option (List UInt8)
  recipients : List (List UInt8)

/-- A sender that is taken opens a new envelope, a recipient that is taken is added to it. -/
def Envelope.add (env : Envelope) : Entry → Envelope
  | .answered _ .mail request reply =>
    if replyCode reply = ascii "250" then ⟨cstring request.bytes, []⟩ else env
  | .answered _ .rcpt request reply =>
    if replyCode reply = ascii "250" then
      { env with recipients := env.recipients ++ (cstring request.bytes).toList }
    else env
  | _ => env

def envelope (log : List Entry) : Envelope := log.foldl Envelope.add ⟨none, []⟩

/-- The addresses in the list of recipients are those of the envelope, and so is the sender. -/
structure Envelope.Holds (env : Envelope) (emails : List (List UInt8)) (mailfrom : List UInt8) : Prop where
  sender : ∃ address ∈ env.sender, cstring mailfrom = some address
  rcpts : (emails.map cstring).Perm (env.recipients.map some)

instance (env : Envelope) (emails : List (List UInt8)) (mailfrom : List UInt8) :
    Decidable (env.Holds emails mailfrom) :=
  decidable_of_iff ((∃ address ∈ env.sender, cstring mailfrom = some address) ∧
    (emails.map cstring).Perm (env.recipients.map some))
    ⟨fun h => ⟨h.1, h.2⟩, fun h => ⟨h.sender, h.rcpts⟩⟩

/-- Files are made for the envelope. -/
def ForEnvelope (log : List Entry) : Entry → Prop
  | .mailsCreated emails mailfrom => (envelope log).Holds emails mailfrom
  | _ => True

instance (log : List Entry) : DecidablePred (ForEnvelope log)
  | .mailsCreated emails mailfrom => inferInstanceAs (Decidable ((envelope log).Holds emails mailfrom))
  | .answered .. | .arrived _ | .stored _ => isTrue trivial

/-- `DATA` in `RCPT_TO_READ`, which takes the transaction back, finds no recipients. -/
def BacksOutEmpty (d : Dialogue) (asked : Option (RequestCommand × Request)) : Prop :=
  ∀ r ∈ asked, r.1 = .data → d.state = .rcptToRead → d.rcpts = []

def KeepsEnvelope (d : Dialogue) (asked : Option (RequestCommand × Request)) : Prop :=
  FitsNode d asked ∧ BacksOutEmpty d asked

instance (d : Dialogue) (asked : Option (RequestCommand × Request)) : Decidable (KeepsEnvelope d asked) :=
  inferInstanceAs (Decidable (FitsNode d asked ∧ ∀ r ∈ asked, _))

/-- From the sender on the envelope is kept, before it there are no recipients. -/
structure Dialogue.Enveloped (d : Dialogue) : Prop where
  log : Always ForEnvelope d.log
  opened : 3 ≤ d.state.stage d.command d.request → (envelope d.log).Holds d.rcpts d.mailfrom
  empty : d.state.stage d.command d.request ≤ 2 → d.state ≠ .done → d.state ≠ .error → d.rcpts = []

@[simp] theorem envelope_concat (log : List Entry) (e : Entry) :
    envelope (log ++ [e]) = (envelope log).add e := by
  simp [envelope]

section Moves

variable {d : Dialogue} {next : SmtpState}

theorem move_envelope (d : Dialogue) (next : SmtpState) :
    envelope (d.move next).log = envelope d.log := by
  rcases d.move_log next with hlog | ⟨hlog, -⟩ <;> rw [hlog]
  rw [envelope_concat]
  rfl

theorem move_log_forEnvelope (h : Always ForEnvelope d.log) : Always ForEnvelope (d.move next).log := by
  rcases d.move_log next with hlog | ⟨hlog, -⟩ <;> rw [hlog]
  · exact h
  · exact always_concat.mpr ⟨h, trivial⟩

theorem enveloped_move (hlog : Always ForEnvelope d.log) (hst : d.state ≠ .mailInfoWrite)
    (opened : 3 ≤ next.stage d.command d.request → (envelope d.log).Holds d.rcpts d.mailfrom)
    (empty : next.stage d.command d.request ≤ 2 → next ≠ .done → next ≠ .error → d.rcpts = []) :
    (d.move next).Enveloped := by
  refine ⟨move_log_forEnvelope hlog, ?_, ?_⟩
  · rw [move_stage, move_envelope, d.move_rcpts hst, d.move_mailfrom]
    exact opened
  · rw [move_stage, d.move_rcpts hst, d.move_state]
    exact empty

/-- When a message is answered its recipients are forgotten. -/
theorem enveloped_move_stored (hlog : Always ForEnvelope d.log) (hst : d.state = .mailInfoWrite)
    (hn : next.stage d.command d.request ≤ 2) : (d.move next).Enveloped := by
  have hne : next ≠ .mailInfoWrite := by
    rintro rfl
    simp [SmtpState.stage] at hn
  refine ⟨move_log_forEnvelope hlog, ?_, fun _ _ _ => d.move_rcpts_stored hst hne⟩
  rw [move_stage]
  omega

theorem enveloped_over (hlog : Always ForEnvelope d.log) (hn : next = .error ∨ next = .done) :
    (d.move next).Enveloped := by
  have hzero : next.stage d.command d.request = 0 := by rcases hn with rfl | rfl <;> rfl
  by_cases hst : d.state = .mailInfoWrite
  · exact enveloped_move_stored hlog hst (by omega)
  · exact enveloped_move hlog hst (fun h3 => by omega)
      (fun _ hd he => absurd hn (not_or.mpr ⟨he, hd⟩))

theorem sent_enveloped (h : d.Enveloped) (hafter : d.afterReply = some next) : (d.move next).Enveloped := by
  have hlive : d.state ≠ .done ∧ d.state ≠ .error := by
    constructor <;> intro hst <;> simp [Dialogue.afterReply, hst] at hafter
  rcases after_stage hafter with ⟨-, hst, hsame⟩ | ⟨rfl, -, -, hbefore | hst⟩
  · exact enveloped_move h.log hst (fun h3 => h.opened (hsame ▸ h3))
      (fun h2 _ _ => h.empty (hsame ▸ h2) hlive.1 hlive.2)
  · by_cases hst : d.state = .mailInfoWrite
    · exact enveloped_move_stored h.log hst le_rfl
    · exact enveloped_move h.log hst (fun h3 => by simp [SmtpState.stage] at h3)
        (fun _ _ _ => h.empty hbefore hlive.1 hlive.2)
  · exact enveloped_move_stored h.log hst le_rfl

end Moves

/-- A command that is not taken, or is neither a sender nor a recipient, leaves the envelope alone. -/
theorem envelope_answer (d : Dialogue) {command : RequestCommand} {request : Request} {reply : List UInt8}
    (h : command ≠ .mail ∧ command ≠ .rcpt ∨ replyCode reply ≠ ascii "250") :
    envelope (d.answer command request reply).log = envelope d.log := by
  rw [Dialogue.answer, envelope_concat]
  cases command with
  | mail => exact if_neg (h.resolve_left fun hn => hn.1 rfl)
  | rcpt => exact if_neg (h.resolve_left fun hn => hn.2 rfl)
  | _ => rfl

theorem refused_enveloped {d : Dialogue} {command : RequestCommand} {request : Request}
    {reply : List UInt8} {next : SmtpState} (h : d.Enveloped) (hc : BacksOutEmpty d (some (command, request)))
    (hr : d.refusal command request = some next) (hcode : replyCode reply ≠ ascii "250") :
    ((d.answer command request reply).move next).Enveloped := by
  have hlive : d.state ≠ .done ∧ d.state ≠ .error := by
    constructor <;> intro hst <;> simp [Dialogue.refusal, hst] at hr
  have hlog : Always ForEnvelope (d.answer command request reply).log :=
    always_concat.mpr ⟨h.log, trivial⟩
  have hsame : envelope (d.answer command request reply).log = envelope d.log :=
    envelope_answer d (Or.inr hcode)
  obtain ⟨-, hst, hstage⟩ := refusal_stage hr
  rcases hstage with hstage | ⟨hrcpt, rfl, rfl⟩
  · refine enveloped_move hlog hst (fun h3 => ?_) (fun h2 _ _ => h.empty (hstage ▸ h2) hlive.1 hlive.2)
    rw [hsame]
    exact h.opened (hstage ▸ h3)
  · exact enveloped_move hlog hst (fun h3 => by simp [SmtpState.stage, Dialogue.answer] at h3)
      (fun _ _ _ => hc _ rfl rfl hrcpt)

theorem recipient_holds {d : Dialogue} {request : Request} {reply email address : List UInt8}
    (h : (envelope d.log).Holds d.rcpts d.mailfrom) (given : cstring request.bytes = some address)
    (kept : cstring email = some address) (code : replyCode reply = ascii "250") :
    (envelope (d.answer .rcpt request reply).log).Holds (email :: d.rcpts) d.mailfrom := by
  have hadd : envelope (d.answer .rcpt request reply).log =
      { envelope d.log with recipients := (envelope d.log).recipients ++ [address] } := by
    rw [Dialogue.answer, envelope_concat, Envelope.add, if_pos code, given]
    rfl
  rw [hadd]
  refine ⟨h.sender, ?_⟩
  rw [List.map_cons, kept, List.map_append, List.map_singleton]
  exact (h.rcpts.cons _).trans (List.perm_append_singleton _ _).symm

/-- Every step keeps the envelope. -/
theorem step_enveloped {d d' : Dialogue} {asked : Option (RequestCommand × Request)} (h : d.Enveloped)
    (hc : KeepsEnvelope d asked) (hstep : Dialogue.Step asked d d') : d'.Enveloped := by
  obtain ⟨next, d₁, hdoes, rfl⟩ := hstep
  obtain ⟨hlog, hopened, hempty⟩ := id h
  cases hdoes with
  | idle => rwa [Dialogue.move_self]
  | @listened command request reads =>
    rw [Dialogue.move_self { d with command, request }]
    have hstage := stage_of_reads reads command d.command request d.request
    exact ⟨hlog, fun h3 => hopened (hstage ▸ h3), fun h2 => hempty (hstage ▸ h2)⟩
  | lost => exact enveloped_over hlog (Or.inl rfl)
  | sent after => exact sent_enveloped h after
  | quit reads code => exact enveloped_over (always_concat.mpr ⟨hlog, trivial⟩) (Or.inr rfl)
  | turnedAway state =>
    rw [state] at hempty
    exact enveloped_move hlog (by simp [state]) (fun h3 => by simp [SmtpState.stage] at h3)
      (fun _ _ _ => hempty (by simp [SmtpState.stage]) (by decide) (by decide))
  | refused refusal code =>
    refine refused_enveloped h hc.2 refusal fun hn => ?_
    rw [hn] at code
    exact absurd code (by decide)
  | @greeted command request reply state hello code =>
    rw [state] at hempty
    refine enveloped_move (always_concat.mpr ⟨hlog, trivial⟩) (by simp [Dialogue.answer, state])
      (fun h3 => ?_) (fun _ _ _ => hempty (by simp [SmtpState.stage]) (by decide) (by decide))
    simp only [SmtpState.stage] at h3
    split_ifs at h3 <;> omega
  | @sender request reply mailfrom address state given kept code =>
    rw [state] at hempty
    have hnil : d.rcpts = [] := hempty le_rfl (by decide) (by decide)
    refine enveloped_move (always_concat.mpr ⟨hlog, trivial⟩) (by simp [Dialogue.answer, state])
      (fun _ => ?_) (fun _ _ _ => hnil)
    have hadd : envelope (d.answer .mail request reply).log = ⟨some address, []⟩ := by
      rw [Dialogue.answer, envelope_concat, Envelope.add, if_pos code, given]
    change (envelope (d.answer .mail request reply).log).Holds d.rcpts mailfrom
    rw [hadd, hnil]
    exact ⟨⟨address, rfl, kept⟩, .refl _⟩
  | @recipient request reply email address takes given kept code =>
    have hfit := hc.1 _ rfl rfl takes address given
    rw [List.take_of_length_le (by omega)] at kept
    have hthree : 3 ≤ d.state.stage d.command d.request := by
      rcases takes with ⟨hst, -⟩ | hst <;> rw [hst] <;> simp [SmtpState.stage]
    have hst : d.state ≠ .mailInfoWrite := by
      rcases takes with ⟨hst, -⟩ | hst <;> rw [hst] <;> decide
    refine enveloped_move (always_concat.mpr ⟨hlog, trivial⟩) hst
      (fun _ => recipient_holds (hopened hthree) given kept code) (fun h2 => ?_)
    simp only [SmtpState.stage] at h2
    split_ifs at h2 <;> omega
  | @data request reply state code =>
    rw [state] at hopened
    have hholds := hopened (by simp [SmtpState.stage])
    have hsame : envelope (d.answer .data request reply).log = envelope d.log :=
      envelope_answer d (Or.inl (by decide))
    have hlog' : Always ForEnvelope (d.answer .data request reply).log := always_concat.mpr ⟨hlog, trivial⟩
    refine enveloped_move (always_concat.mpr ⟨hlog', ?_⟩) (by simp [Dialogue.answer, state])
      (fun _ => ?_) (fun h2 => by simp [SmtpState.stage] at h2)
    · rw [ForEnvelope, hsame]
      exact hholds
    · rw [envelope_concat, hsame]
      exact hholds
  | stored state =>
    rw [state] at hopened
    refine enveloped_move (always_concat.mpr ⟨hlog, trivial⟩) (by simp [state]) (fun _ => ?_)
      (fun h2 => by simp [SmtpState.stage] at h2)
    rw [envelope_concat]
    exact hopened (by simp [SmtpState.stage])

/-- If every recipient that is taken fits into its node, and `DATA` never takes a transaction
back that has recipients, then files are made for what the client was told, and the list of
recipients is that of the envelope wherever `DATA` would be taken. -/
theorem mails_for_envelope {key key' : Key} {es : List Event} (ha : Accepted key)
    (meets : Meets sessionStep (fun key ev => key.Meets KeepsEnvelope ev) key es)
    (h : run sessionStep key es = .ok key') :
    Always ForEnvelope key'.log ∧ (key'.state = .dataRead →
      (envelope key'.log).Holds (key'.data.rcptList.map RcptNode.email) key'.data.mailfrom) := by
  obtain ⟨-, hI⟩ := dialogue_invariant (I := Dialogue.Enveloped)
    (fun d hst hrcpts hlog => by
      refine ⟨hlog ▸ always_nil _, fun h3 => ?_, fun _ _ _ => hrcpts⟩
      rcases hst with hst | hst <;> simp [hst, SmtpState.stage] at h3)
    (fun d asked d' hI hC hstep => step_enveloped hI hC hstep) ha meets h
  refine ⟨hI.log, fun hst => ?_⟩
  have hopened := hI.opened
  simp only [Key.dialogue, hst] at hopened
  exact hopened (by simp [SmtpState.stage])

theorem mails_for_envelope_two_rcpts :
    ∃ key', run sessionStep firstKey (script twoRcpts) = .ok key' ∧ Always ForEnvelope key'.log ∧
      (key'.state = .dataRead →
        (envelope key'.log).Holds (key'.data.rcptList.map RcptNode.email) key'.data.mailfrom) := by
  obtain ⟨key', h⟩ : ∃ key', run sessionStep firstKey (script twoRcpts) = .ok key' :=
    ok_of_toOption (by decide +kernel)
  exact ⟨key', h, mails_for_envelope accepted_first (Meets.of_check (by decide +kernel)) h⟩

/-- A recipient of another domain leads from `DATA_READ` back to `RCPT_TO_READ`, where `DATA` is
answered with 503, and the next transaction starts with the recipients of this one. -/
def leftRcpts : List (List UInt8) :=
  [ascii "EHLO there\r\n", ascii "MAIL FROM:<a@example.com>\r\n", ascii "RCPT TO:<b@smtpd.com>\r\n",
    ascii "RCPT TO:<c@example.org>\r\n", ascii "DATA\r\n", ascii "MAIL FROM:<d@example.com>\r\n",
    ascii "RCPT TO:<e@smtpd.com>\r\n", ascii "DATA\r\n"]

theorem mails_for_left_rcpts :
    ∃ key', run sessionStep firstKey (script leftRcpts) = .ok key' ∧ ¬ Always ForEnvelope key'.log := by
  have hlast : ((run sessionStep firstKey (script leftRcpts)).toOption.any fun key =>
      decide (∃ e ∈ key.log.getLast?, ¬ ForEnvelope key.log.dropLast e)) = true := by
    decide +kernel
  obtain ⟨key', h⟩ : ∃ key', run sessionStep firstKey (script leftRcpts) = .ok key' :=
    ok_of_toOption (by decide +kernel)
  rw [h] at hlast
  obtain ⟨e, he, hnot⟩ := of_decide_eq_true hlast
  refine ⟨key', h, fun hall => hnot (hall key'.log.dropLast e [] ?_)⟩
  exact (List.dropLast_append_getLast? e he).symm

end Smtpd
