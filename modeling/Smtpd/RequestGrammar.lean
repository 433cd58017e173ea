import Smtpd.RequestBounds

namespace Smtpd

open Checked CString Incremental

/-- The command of a line that a CR ends in a state. -/
def RequestState.ends : RequestState → RequestCommand
  | .verbData => .data
  | .verbQuit => .quit
  | .heloDomain => .helo
  | .ehloDomain => .ehlo
  | .mailFromSender => .mail
  | .rcptToRecipient => .rcpt
  | _ => .unknown

/-- The lines of a command. -/
def RequestCommand.Form (command : RequestCommand) (w : List UInt8) : Prop :=
  match command with
  | .ehlo => ∃ d, DomainLine ehloWord w d
  | .helo => ∃ d, DomainLine heloWord w d
  | .mail => ∃ a r, ArgClosed mailFromWord w a r
  | .rcpt => ∃ a, ArgClosed rcptToWord w a []
  | .data => Keyword dataWord w
  | .quit => Keyword quitWord w
  | .rset | .noop | .vrfy | .expn | .help | .unknown => False

/-- What a line has the parser capture. -/
def Argument (w a : List UInt8) : Prop :=
  DomainLine heloWord w a ∨ DomainLine ehloWord w a ∨
    ∃ v, v <+: w ∧ (ArgOpen mailFromWord v a ∨ ArgOpen rcptToWord v a)

theorem line_of_noCR {w : List UInt8} (hcr : CR ∉ w) :
    lineRun .verb w = .error ∨ (lineRun .verb w).Line w := by
  induction w using List.reverseRecOn with
  | nil => exact tracks_init.line
  | append_singleton w c ih =>
    have hw : CR ∉ w ∧ CR ≠ c := by simpa [not_or] using hcr
    exact line_concat (ih hw.1) (Or.inl (Ne.symm hw.2))

/-- The command that a state ends in is the one whose form the line has. -/
theorem ends_iff_form {w : List UInt8} (hcr : CR ∉ w) {command : RequestCommand}
    (hu : command ≠ .unknown) : (lineRun .verb w).ends = command ↔ command.Form w := by
  have hline := line_of_noCR hcr
  constructor
  · intro he
    generalize hst : lineRun .verb w = st at he hline
    have hl : st ≠ .error → st.Line w := fun hne => hline.resolve_left hne
    cases st <;> cases he <;> try exact absurd rfl hu
    · obtain ⟨kw, hkw, hw⟩ := hl (by simp)
      cases hkw
      exact hw
    · obtain ⟨kw, hkw, hw⟩ := hl (by simp)
      cases hkw
      exact hw
    · exact hl (by simp)
    · exact hl (by simp)
    · obtain ⟨a, r, ha, -⟩ := hl (by simp)
      exact ⟨a, r, ha⟩
    · exact hl (by simp)
  · intro hf
    cases command with
    | ehlo => rw [lineRun_of_line .ehloDomain hf]; rfl
    | helo => rw [lineRun_of_line .heloDomain hf]; rfl
    | mail =>
      obtain ⟨a, r, ha⟩ := hf
      have hr : CR ∉ r := by
        obtain ⟨v, rfl, -⟩ := ha
        exact fun hm => hcr (by simp [hm])
      rw [lineRun_of_line .mailFromSender ⟨a, r, ha, hr⟩]
      rfl
    | rcpt => rw [lineRun_of_line .rcptToRecipient hf]; rfl
    | data => rw [lineRun_of_line .verbData ⟨_, rfl, hf⟩]; rfl
    | quit => rw [lineRun_of_line .verbQuit ⟨_, rfl, hf⟩]; rfl
    | rset | noop | vrfy | expn | help | unknown => exact hf.elim

theorem feed_state {p q : RequestParser} {c : UInt8} (h : requestParserFeed p c = .ok q) :
    q.state = p.state.next c := by
  unfold requestParserFeed at h
  unfold RequestState.next
  cases hact : p.state.onByte c <;> rw [hact] at h
  case goto | finish | fail =>
    cases h
    rfl
  case arg | domain | newDomain =>
    obtain ⟨r, -, h⟩ := bind_ok h
    cases h
    rfl

theorem feedAll_state {p q : RequestParser} {errored e : Bool} {u : List UInt8}
    (h : requestParser.feedAll (p, errored) u = .ok (q, e)) : q.state = lineRun p.state u := by
  induction u generalizing p errored with
  | nil =>
    cases h
    rfl
  | cons c u ih =>
    obtain ⟨⟨r, e₁⟩, hr, h⟩ := bind_ok h
    obtain ⟨r', hfeed, hr⟩ := bind_ok hr
    cases hr
    rw [ih h, feed_state hfeed, lineRun_cons]

theorem onByte_CR (st : RequestState) : (st.onByte CR).stores = false ∧
    (st.next CR = .cr → st.onByte CR = .finish st.ends ∨
      st.onByte CR = .fail ∧ st.ends = .unknown) := by
  cases st <;> decide

/-- The CR LF that ends a line leaves the captures alone and settles the command. -/
theorem feedAll_lineEnd {p q : RequestParser} {errored e : Bool}
    (h : requestParser.feedAll (p, errored) lineEnd = .ok (q, e)) (hd : q.state = .done)
    (hp : p.state ≠ .cr ∧ p.state ≠ .done) :
    q.request = p.request ∧ q.command = p.state.ends := by
  obtain ⟨⟨r, e₁⟩, hr, h⟩ := bind_ok h
  obtain ⟨r', hfeed, hr⟩ := bind_ok hr
  cases hr
  obtain ⟨⟨s, e₂⟩, hs, h⟩ := bind_ok h
  obtain ⟨s', hfeed', hs⟩ := bind_ok hs
  cases hs
  cases h
  obtain ⟨hstores, hends⟩ := onByte_CR p.state
  have hcr : r.state = .cr := by
    have hst := feed_state hfeed'
    rw [hd] at hst
    have hdone : r.state ≠ .done := by
      rw [feed_state hfeed]
      exact next_ne_done hp.1 hp.2 CR
    by_contra hne
    exact next_ne_done hne hdone LF hst.symm
  rw [feed_cr hcr] at hfeed'
  cases hfeed'
  have hnext : p.state.next CR = .cr := by rw [← feed_state hfeed, hcr]
  rcases hends hnext with hact | ⟨hact, hunknown⟩
  · simp only [requestParserFeed, hact, Except.ok.injEq] at hfeed
    subst hfeed
    exact ⟨rfl, rfl⟩
  · simp only [requestParserFeed, hact, Except.ok.injEq] at hfeed
    subst hfeed
    exact ⟨rfl, hunknown.symm⟩

end Smtpd
