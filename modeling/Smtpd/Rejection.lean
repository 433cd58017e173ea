import Smtpd.ReplyStream
import Smtpd.CommandOrder

namespace Smtpd

open Checked Runs

/-- Where a connection goes on after a command that it did not take: where it was, but for `DATA`
without a recipient. -/
def SmtpState.afterRefusal (st : SmtpState) (command : RequestCommand) : SmtpState :=
  if st = .rcptToRead ∧ command = .data then .mailFromRead else st

section Steps

variable {env : Env} {key key₁ key₂ key' : Key} {st next : SmtpState} {command : RequestCommand}
  {request : Request} {es : List Event}

theorem afterReply_refusal {d d' : Dialogue} (h : d.refusal command request = some next)
    (hstate : d'.state = next) (hcommand : d'.command = command) (hrequest : d'.request = request) :
    d'.afterReply = some (d.state.afterRefusal command) ∧ next ≠ .mailInfoWrite ∧ next.greeting = none := by
  unfold Dialogue.refusal at h
  split at h
  case h_5 => cases h
  all_goals
    rename_i hst
    rw [hst]
    split_ifs at h
    all_goals
      cases h
      simp_all [Dialogue.afterReply, SmtpState.afterRefusal, SmtpState.greeting]

theorem head_of_five {text : List UInt8} (h : ascii "5" <+: text) : text.head? = some 53 := by
  obtain ⟨rest, rfl⟩ := h
  rfl

/-- A command that is answered with 5xx is not taken, and nothing but its answer is new. -/
theorem Key.Passes.refused (hk : key.Agrees st) (h : key.Passes env st next key₁ key₂ key')
    (hasked : key.asked st (.ready .read env) = some (command, request))
    (hcode : ascii "5" <+: key'.data.writeBuffer.pending) (hlive : key'.registered = true) :
    (key.dialogue st).refusal command request = some next ∧ key'.data.requestParser.command = command ∧
      key'.data.requestParser.request = request ∧ key'.data.mailfrom = key.data.mailfrom ∧
      key'.data.rcptList = key.data.rcptList := by
  obtain ⟨-, hreads, hhand⟩ := asked_ready hasked
  have hreg := (changeState_turned (h.turn.turned hk h.registered) h.hooks).registered
  have hquiet := hk.quiet (interest_of_reads hreads)
  have hplain : st ≠ .dataWrite ∧ st ≠ .mailInfoWrite := by
    constructor <;> rintro rfl <;> cases hreads
  have hsettled := settle_eq hreg h.settled
  have hpending : key'.data.writeBuffer.pending = key₁.data.writeBuffer.pending := by
    rw [← (changeState_effect h.hooks).writeBuffer]
    rcases hsettled with ⟨-, rfl⟩ | ⟨-, rfl⟩ <;> rfl
  rw [hpending] at hcode
  have hturn := h.turn
  cases hturn with
  | lost _ hand => exact absurd hand hhand
  | listened _ _ fed waits => exact absurd (asked_command fed hasked).1 waits
  | @answered rb g received p _ _ _ _ takes fed done answer =>
    obtain ⟨-, hc, hr⟩ := asked_command fed hasked
    cases answer with
    | quit =>
      rcases hsettled with ⟨-, rfl⟩ | ⟨hgo, -⟩
      · cases hlive
      · exact absurd (Or.inr rfl) hgo
    | turnedAway =>
      have hnone : ascii "5" <+: ([] : List UInt8) := hquiet ▸ hcode
      simp [ascii] at hnone
    | @served text _ more key₀ wb serves sized pending =>
      have hwb : wb.pending = text := by
        have hnil : (key.asking rb g received p).data.writeBuffer.pending = [] := hquiet
        rw [pending, hnil, List.nil_append]
      have hfive : text.head? = some 53 := head_of_five (hwb ▸ hcode)
      cases serves with
      | greeted hello =>
        exfalso
        unfold RequestCommand.helloText at hfive
        split_ifs at hfive <;> exact absurd hfive (by decide)
      | refused stays refusal =>
        have hrefusal : (key.dialogue st).refusal command request = some next := by
          rw [← hc, ← hr]
          exact refusal
        have hread : next.readsRequest = false := readsRequest_of_write (refusal_interest refusal)
        have hgo := not_over_of_interest (refusal_interest refusal) (by decide)
        obtain rfl := changeState_same hplain.1 hplain.2 hread h.hooks
        rcases hsettled with ⟨hend, -⟩ | ⟨-, rfl⟩
        · exact absurd hend hgo
        · exact ⟨hrefusal, hc, hr, rfl, rfl⟩
      | sender => exact absurd hfive (by simp [ascii]; decide)
      | recipient => exact absurd hfive (by simp [ascii]; decide)
      | data => exact absurd hfive (by decide)
  | received state | stored state =>
    subst state
    cases hreads
  | unsent writes | sending writes | sent writes =>
    rw [interest_of_reads hreads] at writes
    cases writes

/-- While its answer is being sent a command that was not taken changes nothing, and with the last
byte the connection goes on. -/
structure Key.Answering (key : Key) (st next : SmtpState) (key' : Key) : Prop where
  mailfrom : key'.data.mailfrom = key.data.mailfrom
  rcptList : key'.data.rcptList = key.data.rcptList
  goes : key'.state = st ∧ key'.data.requestParser = key.data.requestParser ∧
      key'.data.writeBuffer.pending ≠ [] ∨
    key'.state = next ∧ key'.data.writeBuffer.pending = []

theorem sessionStep_answering {ev : Event} (hk : key₁.Agrees key₁.state) (hw : st.interest = .write)
    (hst : st ≠ .mailInfoWrite) (hafter : (key.dialogue st).afterReply = some next)
    (hwaits : key₁.data.writeBuffer.pending ≠ []) (ha : key₁.registered = true → key.Answering st next key₁)
    (h : sessionStep key₁ ev = .ok key₂) : key₂.registered = true → key.Answering st next key₂ := by
  rcases sessionStep_turn hk.sound hk.output h with
    ⟨op, env, rfl, -, rfl⟩ | ⟨globals, tree, fds, rfl, rfl⟩ | ⟨op, env, next', key₃, key₄, rfl, -, hp⟩
  · exact ha
  · intro hreg
    obtain ⟨hmail, hlist, hgoes⟩ := ha hreg
    exact ⟨hmail, hlist, hgoes⟩
  · intro hreg
    obtain ⟨hmail, hlist, ⟨hstate, hparser, -⟩ | ⟨-, hsent⟩⟩ := ha hp.registered
    · rw [hstate] at hk hp
      obtain ⟨wb, -, ⟨-, -, hlost, -⟩ | ⟨sent, -, hsending, -⟩⟩ := hp.writes hk hw
      · rw [hlost] at hreg
        cases hreg
      · have hnext : key₂.state = next' := settle_state hp.settled
        rcases hsending.goes with ⟨hrest, rfl, hparser', -, hlist'⟩ | ⟨hrest, hafter', -, -, hlist'⟩
        · exact ⟨hsending.mailfrom.trans hmail, hlist'.trans hlist,
            Or.inl ⟨hnext, hparser'.trans hparser, hrest⟩⟩
        · have hsame : (key₁.dialogue st).afterReply = (key.dialogue st).afterReply :=
            afterReply_congr rfl (congrArg RequestParser.command hparser) (congrArg RequestParser.request hparser)
          cases hafter'.symm.trans (hsame.trans hafter)
          exact ⟨hsending.mailfrom.trans hmail, (hlist' hst).trans hlist, Or.inr ⟨hnext, hrest⟩⟩
    · exact absurd hsent hwaits

theorem sessionStep_over {ev : Event} (hover : key.registered = false) (h : sessionStep key ev = .ok key') :
    key'.registered = false := by
  cases ev with
  | elsewhere =>
    cases h
    exact hover
  | ready op env =>
    have hsame : key = key' := by
      cases op <;> simpa [sessionStep, hover] using h
    exact hsame ▸ hover

/-- A connection that is over stays so. -/
theorem run_over (hover : key.registered = false) (h : run sessionStep key es = .ok key') :
    key'.registered = false :=
  run_always (I := fun _ key => key.registered = false) hover
    (fun _ _ _ _ _ hi hstep => sessionStep_over hi hstep) h

end Steps

/-- When the answer to a command that was answered with 5xx is sent, the connection is in the state
it was in, with its sender and its recipients, exactly if it was not `DATA` in `RCPT_TO_READ`. -/
theorem rejected_unchanged_iff {key₀ key key₁ key₂ : Key} {es ys : List Event} {ev : Event}
    {command : RequestCommand} {request : Request} (ha : Accepted key₀)
    (h : run sessionStep key₀ es = .ok key) (hasked : key.asked key.state ev = some (command, request))
    (hstep : sessionStep key ev = .ok key₁) (hcode : ascii "5" <+: key₁.data.writeBuffer.pending)
    (hwaits : Meets sessionStep (fun key _ => key.data.writeBuffer.pending ≠ []) key₁ ys)
    (hsend : run sessionStep key₁ ys = .ok key₂) (hsent : key₂.data.writeBuffer.pending = [])
    (hlive : key₂.registered = true) :
    (key₂.state = key.state ∧ key₂.data.mailfrom = key.data.mailfrom ∧ key₂.data.rcptList = key.data.rcptList) ↔
      ¬ (key.state = .rcptToRead ∧ command = .data) := by
  have hk := accepted_agrees ha h
  have hrun : run sessionStep key₀ (es ++ [ev]) = .ok key₁ := run_concat_ok.mpr ⟨key, h, hstep⟩
  have hk₁ := accepted_agrees ha hrun
  have hlive₁ : key₁.registered = true := by
    by_contra hno
    have hover := run_over (by simpa using hno) hsend
    rw [hlive] at hover
    cases hover
  obtain ⟨next, hrefusal, hnext, hcommand, hrequest, hmail, hlist⟩ : ∃ next,
      (key.dialogue key.state).refusal command request = some next ∧ key₁.state = next ∧
        key₁.data.requestParser.command = command ∧ key₁.data.requestParser.request = request ∧
        key₁.data.mailfrom = key.data.mailfrom ∧ key₁.data.rcptList = key.data.rcptList := by
    rcases sessionStep_turn hk.sound hk.output hstep with
      ⟨op, env, rfl, hno, rfl⟩ | ⟨globals, tree, fds, rfl, -⟩ | ⟨op, env, next, key₃, key₄, rfl, -, hp⟩
    · exact absurd (asked_heeds hasked) hno
    · cases hasked
    · obtain ⟨rfl, -⟩ := asked_ready hasked
      obtain ⟨hrefusal, hrest⟩ := hp.refused hk hasked hcode hlive₁
      exact ⟨next, hrefusal, settle_state hp.settled, hrest⟩
  have hsame : (key₁.dialogue next).command = command := hcommand
  obtain ⟨hafter, hst, -⟩ := afterReply_refusal hrefusal rfl hsame hrequest
  have hw := refusal_interest hrefusal
  have hanswering : key₂.Agrees key₂.state ∧ (key₂.registered = true →
      key₁.Answering next (key.state.afterRefusal command) key₂) := by
    refine run_invariant (I := fun _ key => key.Agrees key.state ∧ (key.registered = true →
      key₁.Answering next _ key)) ⟨hk₁, fun _ => ?_⟩ ?_ hwaits hsend
    · refine ⟨rfl, rfl, Or.inl ⟨hnext, rfl, ?_⟩⟩
      rintro hnil
      rw [hnil] at hcode
      simp [ascii] at hcode
    · rintro xs ev key₃ key₄ - ⟨hk₃, ha₃⟩ hwait hstep'
      exact ⟨sessionStep_agrees hk₃ hstep', sessionStep_answering hk₃ hw hst hafter hwait ha₃ hstep'⟩
  obtain ⟨hmail₂, hlist₂, ⟨-, -, hne⟩ | ⟨hstate, -⟩⟩ := hanswering.2 hlive
  · exact absurd hsent hne
  · rw [hstate, hmail₂, hlist₂, hmail, hlist]
    unfold SmtpState.afterRefusal
    split_ifs with hc
    · simp [hc]
    · simp [hc]

section Script

/-- A client that has given a sender. -/
def senderGiven : List (List UInt8) := [ascii "EHLO there\r\n", ascii "MAIL FROM:<a@example.com>\r\n"]

/-- A command and its answer. -/
def asks (line : List UInt8) : Event := .ready .read (readyEnv line)

theorem rejected_unchanged_iff_domain :
    ∃ key key₁ key₂, ∃ command : RequestCommand, run sessionStep firstKey (script senderGiven) = .ok key ∧
      sessionStep key (asks (ascii "RCPT TO:<b@example.com>\r\n")) = .ok key₁ ∧
      run sessionStep key₁ [.ready .write (readyEnv [])] = .ok key₂ ∧
      ((key₂.state = key.state ∧ key₂.data.mailfrom = key.data.mailfrom ∧ key₂.data.rcptList = key.data.rcptList) ↔
        ¬ (key.state = .rcptToRead ∧ command = .data)) := by
  have hany : ((run sessionStep firstKey (script senderGiven)).toOption.any fun key => decide
      ((key.asked key.state (asks (ascii "RCPT TO:<b@example.com>\r\n"))).isSome ∧
        ((sessionStep key (asks (ascii "RCPT TO:<b@example.com>\r\n"))).toOption.any fun key₁ => decide
          (ascii "5" <+: key₁.data.writeBuffer.pending ∧
            meetsAll sessionStep (fun key _ => key.data.writeBuffer.pending ≠ []) key₁ [.ready .write (readyEnv [])] ∧
            ((run sessionStep key₁ [.ready .write (readyEnv [])]).toOption.any fun key₂ => decide
              (key₂.data.writeBuffer.pending = [] ∧ key₂.registered = true)) = true)) = true)) = true := by
    decide +kernel
  obtain ⟨key, h, hasked, hany⟩ := ok_of_any hany
  obtain ⟨⟨command, request⟩, hasked⟩ := Option.isSome_iff_exists.mp hasked
  obtain ⟨key₁, hstep, hcode, hwaits, hany⟩ := ok_of_any hany
  obtain ⟨key₂, hsend, hsent, hlive⟩ := ok_of_any hany
  exact ⟨key, key₁, key₂, command, h, hstep, hsend, rejected_unchanged_iff accepted_first h hasked hstep hcode
    (Meets.of_check hwaits) hsend hsent hlive⟩

/-- `DATA` where recipients are expected takes the connection back to `MAIL_FROM_READ`. -/
theorem rejected_data_moves :
    Accepted firstKey ∧ ∃ key key₁ key₂ request, run sessionStep firstKey (script senderGiven) = .ok key ∧
      key.asked key.state (asks (ascii "DATA\r\n")) = some (.data, request) ∧
      sessionStep key (asks (ascii "DATA\r\n")) = .ok key₁ ∧ ascii "5" <+: key₁.data.writeBuffer.pending ∧
      Meets sessionStep (fun key _ => key.data.writeBuffer.pending ≠ []) key₁ [.ready .write (readyEnv [])] ∧
      run sessionStep key₁ [.ready .write (readyEnv [])] = .ok key₂ ∧ key₂.data.writeBuffer.pending = [] ∧
      key₂.registered = true ∧ key.state = .rcptToRead ∧ key₂.state = .mailFromRead := by
  have hany : ((run sessionStep firstKey (script senderGiven)).toOption.any fun key => decide
      (((key.asked key.state (asks (ascii "DATA\r\n"))).map Prod.fst = some .data ∧ key.state = .rcptToRead) ∧
        ((sessionStep key (asks (ascii "DATA\r\n"))).toOption.any fun key₁ => decide
          (ascii "5" <+: key₁.data.writeBuffer.pending ∧
            meetsAll sessionStep (fun key _ => key.data.writeBuffer.pending ≠ []) key₁ [.ready .write (readyEnv [])] ∧
            ((run sessionStep key₁ [.ready .write (readyEnv [])]).toOption.any fun key₂ => decide
              (key₂.data.writeBuffer.pending = [] ∧ key₂.registered = true ∧ key₂.state = .mailFromRead)) = true)) =
          true)) = true := by
    decide +kernel
  obtain ⟨key, h, ⟨hasked, hstate⟩, hany⟩ := ok_of_any hany
  obtain ⟨⟨command, request⟩, hasked, hdata⟩ := Option.map_eq_some_iff.mp hasked
  subst hdata
  obtain ⟨key₁, hstep, hcode, hwaits, hany⟩ := ok_of_any hany
  obtain ⟨key₂, hsend, hsent, hlive, hmoved⟩ := ok_of_any hany
  exact ⟨accepted_first, key, key₁, key₂, request, h, hasked, hstep, hcode, Meets.of_check hwaits, hsend, hsent,
    hlive, hstate, hmoved⟩

end Script

end Smtpd
