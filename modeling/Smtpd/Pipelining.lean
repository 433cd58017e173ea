import Smtpd.ReplyStream
import Smtpd.CommandOrder

namespace Smtpd

open Checked Incremental Runs

/-- What the parser leaves of the bytes at hand. -/
def Key.leftover (key : Key) (env : Env) : List UInt8 :=
  match requestParser.feedUntil (key.data.requestParser, false) (key.atHand env) with
  | .ok (_, rest) => rest
  | .error _ => []

/-- The bytes at hand complete a command other than `QUIT`, or a message, before the last of them. -/
def Key.Pipelines (key : Key) : Event → Prop
  | .ready .read env => key.Heeds .read ∧
      ((∃ r ∈ key.asked key.state (.ready .read env), r.1 ≠ .quit) ∧ key.leftover env ≠ [] ∨
        key.state = .mailInfoRead ∧
          ∃ n < (key.atHand env).length, dataRun key.data.dataParser.state ((key.atHand env).take n) = .done)
  | _ => False

instance (key : Key) : DecidablePred key.Pipelines
  | .ready .read _ => inferInstanceAs (Decidable (key.Heeds .read ∧ (_ ∨ _)))
  | .ready .write _ => isFalse id
  | .elsewhere .. => isFalse id

section Steps

variable {env : Env} {key key₁ key₂ key' : Key} {st next : SmtpState} {ev : Event} {es : List Event}

theorem asked_of_fed {p : RequestParser} {errored : Bool} {rest : List UInt8} (hheeds : key.Heeds .read)
    (hreads : st.readsRequest = true) (hany : key.atHand env ≠ [])
    (hfed : requestParser.feedUntil (key.data.requestParser, false) (key.atHand env) = .ok ((p, errored), rest))
    (hd : p.state = .done) : key.asked st (.ready .read env) = some (p.command, p.request) := by
  simp only [Key.asked, hfed]
  rw [if_pos ⟨hheeds.1, hheeds.2, hreads, hany⟩, if_pos hd]

/-- A turn leaves nothing unread, unless more is at hand than a command or a message. -/
theorem Key.Turn.unread (hat : key.At st) (hheeds : st.interest = .read → key.Heeds .read)
    (hempty : st.interest = .write → key.data.readBuffer.pending = []) (h : key.Turn env st next key₁)
    (hno : ¬ key.Pipelines (.ready .read env)) (hgo : ¬ (next = .error ∨ next = .done)) :
    key₁.data.readBuffer.pending = [] := by
  have hstate := hat.state_eq
  cases h with
  | lost => exact absurd (Or.inl rfl) hgo
  | listened reads takes fed waits =>
    obtain ⟨front, -, -, hrest⟩ := Parser.feedUntil_front fed
    exact hrest (decide_eq_false waits)
  | @answered rb g received p errored _ _ reads takes fed done answer =>
    have hr := hheeds (interest_of_reads reads)
    have hasked := asked_of_fed hr reads takes.any fed done
    have hleft : key.leftover env = rb.pending := by rw [Key.leftover, fed]
    have hnil : p.command ≠ .quit → rb.pending = [] := by
      intro hc
      by_contra hne
      refine hno ⟨hr, Or.inl ⟨⟨(p.command, p.request), ?_, hc⟩, hleft ▸ hne⟩⟩
      rw [hstate]
      exact hasked
    cases answer with
    | quit => exact absurd (Or.inr rfl) hgo
    | turnedAway _ command => exact hnil command
    | served serves =>
      obtain ⟨-, -, -, -, hrb, -⟩ := serves.same
      have hunread := hnil serves.not_quit
      rw [← hunread]
      exact congrArg Buffer.pending hrb
  | received state reads waits rest => exact rest
  | @stored g received front rb dp os wb state reads done =>
    by_contra hne
    have hlen : front.length < (key.atHand env).length := by
      rw [reads.input, List.length_append]
      have hpos := List.length_pos_of_ne_nil hne
      simp only at hpos
      omega
    refine hno ⟨hheeds (by rw [state]; rfl), Or.inr ⟨hstate.trans state, front.length, hlen, ?_⟩⟩
    rw [reads.input, List.take_left, ← reads.state, done]
  | unsent => exact absurd (Or.inl rfl) hgo
  | sending writes => exact hempty writes
  | sent writes => exact hempty writes

theorem sessionStep_unread (hk : key.Agrees key.state)
    (hu : key.registered = true → key.data.readBuffer.pending = []) (hno : ¬ key.Pipelines ev)
    (h : sessionStep key ev = .ok key') : key'.registered = true → key'.data.readBuffer.pending = [] := by
  rcases sessionStep_turn hk.sound hk.output h with
    ⟨op, env, rfl, -, rfl⟩ | ⟨globals, tree, fds, rfl, rfl⟩ | ⟨op, env, next, key₁, key₂, rfl, hheeds, hp⟩
  · exact hu
  · exact hu
  · intro hreg
    have hturned := changeState_turned (hp.turn.turned hk hp.registered) hp.hooks
    have hop : key.state.interest = op.interest := hp.waits.symm.trans hheeds.2
    rcases settle_eq hturned.registered hp.settled with ⟨-, rfl⟩ | ⟨hgo, rfl⟩
    · cases hreg
    · show key₂.data.readBuffer.pending = []
      rw [(changeState_effect hp.hooks).readBuffer]
      cases op with
      | read => exact hp.turn.unread hk.sound.machine (fun _ => hheeds) (fun _ => hu hp.registered) hno hgo
      | write =>
        have hquiet : ¬ key.Pipelines (.ready .read env) := by
          rintro ⟨hr, -⟩
          cases hheeds.2.symm.trans hr.2
        refine hp.turn.unread hk.sound.machine (fun hr => ?_) (fun _ => hu hp.registered) hquiet hgo
        cases hop.symm.trans hr

/-- As long as no command but `QUIT`, and no message, ends before the last byte that is at hand,
nothing is left unread where the connection waits for its client. -/
theorem nothing_stranded (ha : Accepted key) (meets : Meets sessionStep (fun key ev => ¬ key.Pipelines ev) key es)
    (h : run sessionStep key es = .ok key') (hread : key'.state.interest = .read) :
    key'.data.readBuffer.pending = [] := by
  have hrun : key'.registered = true → key'.data.readBuffer.pending = [] := by
    refine run_invariant (I := fun _ key => key.registered = true → key.data.readBuffer.pending = []) ?_ ?_ meets h
    · obtain ⟨client, st, g, os, hw⟩ := accepted_welcomed ha
      exact fun _ => hw.unread
    · intro xs ev key₁ key₂ hxs hu hno hstep
      exact sessionStep_unread (accepted_agrees ha hxs) hu hno hstep
  refine hrun ((accepted_agrees ha h).registered.mpr ?_)
  rw [hread]
  decide

theorem nothing_stranded_oneMail :
    ∃ key', run sessionStep firstKey (script oneMail) = .ok key' ∧ key'.state.interest = .read ∧
      key'.data.readBuffer.pending = [] := by
  have hfound : ((run sessionStep firstKey (script oneMail)).toOption.any fun key =>
      decide (key.state.interest = .read)) = true := by
    decide +kernel
  obtain ⟨key', h, hread⟩ := ok_of_any hfound
  exact ⟨key', h, hread, nothing_stranded accepted_first (Meets.of_check (by decide +kernel)) h hread⟩

/-- Two commands in one segment. -/
def twoCommands : List Event := script [ascii "EHLO there\r\nMAIL FROM:<a@example.com>\r\n"]

theorem stranded_twoCommands :
    Accepted firstKey ∧ ∃ key', run sessionStep firstKey twoCommands = .ok key' ∧
      key'.state.interest = .read ∧ key'.data.readBuffer.pending = ascii "MAIL FROM:<a@example.com>\r\n" := by
  have hfound : ((run sessionStep firstKey twoCommands).toOption.any fun key =>
      decide (key.state.interest = .read ∧
        key.data.readBuffer.pending = ascii "MAIL FROM:<a@example.com>\r\n")) = true := by
    decide +kernel
  exact ⟨accepted_first, ok_of_any hfound⟩

end Steps

end Smtpd
