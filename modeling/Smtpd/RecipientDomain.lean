import Smtpd.DialogueRefinement
import Smtpd.Lib.History

namespace Smtpd

open Checked CString Runs History

/-- An address that passes `check_email_domain`: its text from the first `@` on is the domain. -/
structure OfDomain (email : List UInt8) : Prop where
  checked : checkEmailDomain email = .ok true
  text : ∃ address ∈ cstring email, address.dropWhile (· ≠ 64) = ascii "@smtpd.com"

instance : DecidablePred OfDomain := fun email =>
  decidable_of_iff (checkEmailDomain email = .ok true ∧
    ∃ address ∈ cstring email, address.dropWhile (· ≠ 64) = ascii "@smtpd.com")
    ⟨fun h => ⟨h.1, h.2⟩, fun h => ⟨h.checked, h.text⟩⟩

theorem checkEmailDomain_eq {email address : List UInt8} (h : cstring email = some address) :
    checkEmailDomain email = .ok (decide (address.dropWhile (· ≠ 64) = ascii "@smtpd.com")) := by
  rcases strchr_cstring (c := 64) (by decide) h with ⟨hno, hs⟩ | ⟨rest, hs, hrest, -⟩
  · have hnil : address.dropWhile (· ≠ 64) = [] :=
      List.dropWhile_eq_nil_iff.mpr fun c hc => by
        have hne : c ≠ 64 := fun he => hno (he ▸ hc)
        simpa using hne
    rw [hnil]
    simp only [checkEmailDomain, hs, demand_some, ok_bind]
    rfl
  · simp only [checkEmailDomain, hs, demand_some, ok_bind]
    rw [strcmpEq_cstring (by decide) hrest]
    rfl

theorem ofDomain_iff {email address : List UInt8} (h : cstring email = some address) :
    OfDomain email ↔ checkEmailDomain email = .ok true := by
  refine ⟨OfDomain.checked, fun hc => ⟨hc, address, h, ?_⟩⟩
  rw [checkEmailDomain_eq h] at hc
  exact of_decide_eq_true (Except.ok.inj hc)

/-- Only recipients of the domain are answered with 250, and files are made only for them. -/
def RcptOfDomain (_ : List Entry) : Entry → Prop
  | .answered _ command request reply =>
    command = .rcpt → replyCode reply = ascii "250" → OfDomain request.bytes
  | .mailsCreated emails _ => ∀ email ∈ emails, OfDomain email
  | _ => True

instance (log : List Entry) : DecidablePred (RcptOfDomain log)
  | .answered _ command request reply => inferInstanceAs
    (Decidable (command = .rcpt → replyCode reply = ascii "250" → OfDomain request.bytes))
  | .mailsCreated emails _ => inferInstanceAs (Decidable (∀ email ∈ emails, OfDomain email))
  | .arrived _ | .stored _ => isTrue trivial

/-- A recipient that is given in `DATA_READ` would pass the check that is not made there. -/
def WouldPass (d : Dialogue) (asked : Option (RequestCommand × Request)) : Prop :=
  ∀ r ∈ asked, r.1 = .rcpt → d.state = .dataRead → checkEmailDomain r.2.bytes = .ok true

def GivesDomain (d : Dialogue) (asked : Option (RequestCommand × Request)) : Prop :=
  FitsNode d asked ∧ WouldPass d asked

instance (d : Dialogue) (asked : Option (RequestCommand × Request)) : Decidable (GivesDomain d asked) :=
  inferInstanceAs (Decidable (FitsNode d asked ∧ ∀ r ∈ asked, _))

structure Dialogue.DomainOnly (d : Dialogue) : Prop where
  rcpts : ∀ email ∈ d.rcpts, OfDomain email
  log : Always RcptOfDomain d.log

theorem domainOnly_move {d : Dialogue} (h : d.DomainOnly) (next : SmtpState) :
    (d.move next).DomainOnly := by
  constructor
  · by_cases hst : d.state = .mailInfoWrite
    · by_cases hn : next = .mailInfoWrite
      · rw [hn, ← hst, d.move_self]
        exact h.rcpts
      · simp [d.move_rcpts_stored hst hn]
    · rw [d.move_rcpts hst]
      exact h.rcpts
  · rcases d.move_log next with hlog | ⟨hlog, -⟩ <;> rw [hlog]
    · exact h.log
    · exact always_concat.mpr ⟨h.log, trivial⟩

theorem does_domainOnly {d d₁ : Dialogue} {asked : Option (RequestCommand × Request)} {next : SmtpState}
    (h : d.DomainOnly) (hc : GivesDomain d asked) (hdoes : d.Does asked next d₁) : d₁.DomainOnly := by
  obtain ⟨hrcpts, hlog⟩ := h
  cases hdoes with
  | @recipient request reply email address takes given kept code =>
    have hcheck : checkEmailDomain request.bytes = .ok true := by
      rcases takes with ⟨-, hk⟩ | hst
      · exact hk
      · exact hc.2 _ rfl rfl hst
    have hfit := hc.1 _ rfl rfl takes _ given
    rw [List.take_of_length_le (by omega)] at kept
    have hstored : OfDomain email := by
      rw [ofDomain_iff kept, checkEmailDomain_eq kept, ← checkEmailDomain_eq given]
      exact hcheck
    refine ⟨?_, always_concat.mpr ⟨hlog, fun _ _ => (ofDomain_iff given).mpr hcheck⟩⟩
    intro email he
    rcases List.mem_cons.mp he with rfl | he
    · exact hstored
    · exact hrcpts email he
  | data state code =>
    refine ⟨hrcpts, always_concat.mpr ⟨always_concat.mpr ⟨hlog, fun hn => ?_⟩, hrcpts⟩⟩
    cases hn
  | quit reads code => exact ⟨hrcpts, always_concat.mpr ⟨hlog, fun hn => by cases hn⟩⟩
  | refused refusal code =>
    refine ⟨hrcpts, always_concat.mpr ⟨hlog, fun _ hn => ?_⟩⟩
    rw [hn] at code
    exact absurd code (by decide)
  | greeted state hello code =>
    refine ⟨hrcpts, always_concat.mpr ⟨hlog, fun hn => ?_⟩⟩
    rcases hello with rfl | rfl <;> cases hn
  | sender state given kept code =>
    exact ⟨hrcpts, always_concat.mpr ⟨hlog, fun hn => by cases hn⟩⟩
  | stored state => exact ⟨hrcpts, always_concat.mpr ⟨hlog, trivial⟩⟩
  | _ => exact ⟨hrcpts, hlog⟩

/-- If no recipient of another domain is given in `DATA_READ` and none is cut short, there are
only recipients of the domain. -/
theorem rcpts_of_domain {key key' : Key} {es : List Event} (ha : Accepted key)
    (meets : Meets sessionStep (fun key ev => key.Meets GivesDomain ev) key es)
    (h : run sessionStep key es = .ok key') :
    (∀ node ∈ key'.data.rcptList, OfDomain node.email) ∧ Always RcptOfDomain key'.log := by
  obtain ⟨-, hI⟩ := dialogue_invariant (I := Dialogue.DomainOnly)
    (fun d _ hrcpts hlog => ⟨by simp [hrcpts], hlog ▸ always_nil _⟩)
    (fun d asked d' hI hC hstep => by
      obtain ⟨next, d₁, hdoes, rfl⟩ := hstep
      exact domainOnly_move (does_domainOnly hI hC hdoes) next) ha meets h
  refine ⟨fun node hn => hI.rcpts node.email ?_, hI.log⟩
  exact List.mem_map_of_mem hn

theorem rcpts_of_domain_two_rcpts :
    ∃ key', run sessionStep firstKey (script twoRcpts) = .ok key' ∧
      (∀ node ∈ key'.data.rcptList, OfDomain node.email) ∧ Always RcptOfDomain key'.log := by
  obtain ⟨key', h⟩ : ∃ key', run sessionStep firstKey (script twoRcpts) = .ok key' :=
    ok_of_toOption (by decide +kernel)
  exact ⟨key', h, rcpts_of_domain accepted_first (Meets.of_check (by decide +kernel)) h⟩

/-- The second recipient is taken without a look at its domain. -/
def foreignRcpt : List (List UInt8) :=
  [ascii "EHLO there\r\n", ascii "MAIL FROM:<a@example.com>\r\n", ascii "RCPT TO:<b@smtpd.com>\r\n",
    ascii "RCPT TO:<c@example.org>\r\n"]

theorem rcpts_of_foreign_domain :
    ∃ key', run sessionStep firstKey (script foreignRcpt) = .ok key' ∧
      (∃ node ∈ key'.data.rcptList, ¬ OfDomain node.email) ∧ ¬ Always RcptOfDomain key'.log := by
  have hfound : ((run sessionStep firstKey (script foreignRcpt)).toOption.any fun key =>
      decide ((∃ node ∈ key.data.rcptList, ¬ OfDomain node.email) ∧
        ∃ e ∈ key.log, ¬ RcptOfDomain [] e)) = true := by
    decide +kernel
  obtain ⟨key', h⟩ : ∃ key', run sessionStep firstKey (script foreignRcpt) = .ok key' :=
    ok_of_toOption (by decide +kernel)
  rw [h] at hfound
  obtain ⟨hnode, e, he, hforeign⟩ := of_decide_eq_true hfound
  refine ⟨key', h, hnode, fun hall => ?_⟩
  obtain ⟨pre, post, hsplit⟩ := List.append_of_mem he
  exact hforeign (hall pre e post hsplit)

end Smtpd
