import Smtpd.RequestLine

namespace Smtpd

open CString

theorem Blanks.nil : Blanks [] := by simp [Blanks]

theorem Blanks.concat {b : List UInt8} {c : UInt8} (hb : Blanks b) (hc : isBlank c = true) :
    Blanks (b ++ [c]) := by
  intro x hx
  rcases List.mem_append.mp hx with hx | hx
  · exact hb x hx
  · rw [List.mem_singleton.mp hx]
    exact hc

theorem Keyword.concat {kw w : List UInt8} (h : Keyword kw w) (c : UInt8) :
    Keyword (kw ++ [tolower c]) (w ++ [c]) := by
  obtain ⟨b, t, rfl, hb, ht⟩ := h
  exact ⟨b, t ++ [c], by simp, hb, by simp [ht]⟩

theorem Keyword.blank {w : List UInt8} (h : Keyword [] w) {c : UInt8} (hc : isBlank c = true) :
    Keyword [] (w ++ [c]) := by
  obtain ⟨b, t, rfl, hb, ht⟩ := h
  have ht' : t = [] := by simpa using ht
  subst t
  exact ⟨b ++ [c], [], by simp, hb.concat hc, rfl⟩

theorem DomainSep.concat {kw w : List UInt8} (h : DomainSep kw w) {c : UInt8}
    (hc : isBlank c = true) : DomainSep kw (w ++ [c]) := by
  obtain ⟨v, s, rfl, hk, -, hs⟩ := h
  exact ⟨v, s ++ [c], by simp, hk, by simp, hs.concat hc⟩

theorem DomainSep.start {kw w : List UInt8} (h : DomainSep kw w) {c : UInt8}
    (hb : isBlank c = false) (hc : c ≠ CR) : DomainLine kw (w ++ [c]) [c] :=
  ⟨w, rfl, h, by simpa using Ne.symm hc, c, [], rfl, hb⟩

theorem DomainLine.concat {kw w d : List UInt8} (h : DomainLine kw w d) {c : UInt8} (hc : c ≠ CR) :
    DomainLine kw (w ++ [c]) (d ++ [c]) := by
  obtain ⟨v, rfl, hs, hcr, x, r, rfl, hx⟩ := h
  exact ⟨v, by simp, hs, by simpa [Ne.symm hc] using hcr, x, r ++ [c], by simp, hx⟩

theorem ArgSep.concat {kw w : List UInt8} (h : ArgSep kw w) {c : UInt8} (hc : isBlank c = true) :
    ArgSep kw (w ++ [c]) := by
  obtain ⟨v, s, rfl, hk, hs⟩ := h
  exact ⟨v, s ++ [c], by simp, hk, hs.concat hc⟩

theorem ArgSep.start {kw w : List UInt8} (h : ArgSep kw w) : ArgOpen kw (w ++ [LT]) [] :=
  ⟨w, rfl, h, by simp, by simp⟩

theorem ArgOpen.concat {kw w a : List UInt8} (h : ArgOpen kw w a) {c : UInt8} (hg : c ≠ GT)
    (hc : c ≠ CR) : ArgOpen kw (w ++ [c]) (a ++ [c]) := by
  obtain ⟨v, rfl, hs, hgt, hcr⟩ := h
  exact ⟨v, by simp, hs, by simpa [Ne.symm hg] using hgt, by simpa [Ne.symm hc] using hcr⟩

theorem ArgOpen.close {kw w a : List UInt8} (h : ArgOpen kw w a) : ArgClosed kw (w ++ [GT]) a [] :=
  ⟨w, rfl, h⟩

theorem ArgClosed.concat {kw w a r : List UInt8} (h : ArgClosed kw w a r) (c : UInt8) :
    ArgClosed kw (w ++ [c]) a (r ++ [c]) := by
  obtain ⟨v, rfl, hv⟩ := h
  exact ⟨v, by simp, hv⟩

theorem line_of_keyword {st : RequestState} {kw w : List UInt8} (hk : st.keyword = some kw)
    (h : Keyword kw w) : st.Line w := by
  cases st <;> first | exact ⟨kw, hk, h⟩ | cases hk

/-- What the switch does outside the states that read a keyword. -/
theorem next_heloSep (c : UInt8) : RequestState.heloSep.next c =
    if isBlank c then .heloSep else if c = CR then .error else .heloDomain := by
  show (if isBlank c then RequestAction.goto .heloSep else if c = CR then .goto .error
    else .newDomain .heloDomain).next c = _
  split_ifs <;> rfl

theorem next_ehloSep (c : UInt8) : RequestState.ehloSep.next c =
    if isBlank c then .ehloSep else if c = CR then .error else .ehloDomain := by
  show (if isBlank c then RequestAction.goto .ehloSep else if c = CR then .goto .error
    else .newDomain .ehloDomain).next c = _
  split_ifs <;> rfl

theorem next_heloDomain (c : UInt8) :
    RequestState.heloDomain.next c = if c = CR then .cr else .heloDomain := by
  show (if c = CR then RequestAction.finish .helo else .domain .heloDomain).next c = _
  split_ifs <;> rfl

theorem next_ehloDomain (c : UInt8) :
    RequestState.ehloDomain.next c = if c = CR then .cr else .ehloDomain := by
  show (if c = CR then RequestAction.finish .ehlo else .domain .ehloDomain).next c = _
  split_ifs <;> rfl

theorem next_mailFromSep (c : UInt8) : RequestState.mailFromSep.next c =
    if isBlank c then .mailFromSep else if c = LT then .mailFrom else if c = CR then .cr else .error := by
  show (if isBlank c then RequestAction.goto .mailFromSep else if c = LT then .goto .mailFrom else .fail).next c = _
  split_ifs with hb hl hc
  · rfl
  · rfl
  · exact if_pos hc
  · exact if_neg hc

theorem next_rcptToSep (c : UInt8) : RequestState.rcptToSep.next c =
    if isBlank c then .rcptToSep else if c = LT then .rcptTo else if c = CR then .cr else .error := by
  show (if isBlank c then RequestAction.goto .rcptToSep else if c = LT then .goto .rcptTo else .fail).next c = _
  split_ifs with hb hl hc
  · rfl
  · rfl
  · exact if_pos hc
  · exact if_neg hc

theorem next_mailFrom (c : UInt8) : RequestState.mailFrom.next c =
    if c = GT then .mailFromSender else if c = CR then .error else .mailFrom := by
  show (if c = GT then RequestAction.goto .mailFromSender else if c = CR then .goto .error
    else .arg .mailFrom).next c = _
  split_ifs <;> rfl

theorem next_rcptTo (c : UInt8) : RequestState.rcptTo.next c =
    if c = GT then .rcptToRecipient else if c = CR then .error else .rcptTo := by
  show (if c = GT then RequestAction.goto .rcptToRecipient else if c = CR then .goto .error
    else .arg .rcptTo).next c = _
  split_ifs <;> rfl

theorem next_mailFromSender (c : UInt8) :
    RequestState.mailFromSender.next c = if c = CR then .cr else .mailFromSender := by
  show (if c = CR then RequestAction.finish .mail else .goto .mailFromSender).next c = _
  split_ifs <;> rfl

theorem next_rcptToRecipient (c : UInt8) :
    RequestState.rcptToRecipient.next c = if c = CR then .cr else .error := by
  show (if c = CR then RequestAction.finish .rcpt else .goto .error).next c = _
  split_ifs <;> rfl

theorem next_error (c : UInt8) :
    RequestState.error.next c = if c = CR then .cr else .error := rfl

/-- Within a line each byte keeps the text and the state together, until the line fails
or a CR ends it. -/
theorem line_step {st : RequestState} {w : List UInt8} (h : st.Line w) (c : UInt8) :
    st.next c = .error ∨ st.next c = .cr ∨ (st.next c).Line (w ++ [c]) := by
  cases hk : st.keyword with
  | some kw =>
    have hw : Keyword kw w := by
      cases st <;> first
        | (obtain ⟨kw', hk', hw⟩ := h; cases hk.symm.trans hk'; exact hw)
        | cases hk
    rcases next_keyword st kw hk c with he | hc | hext | ⟨hb, hstay | hhelo | hehlo⟩ | ⟨hcol, hmail | hrcpt⟩
    · exact Or.inl he
    · exact Or.inr (Or.inl hc)
    · exact Or.inr (Or.inr (line_of_keyword hext (hw.concat c)))
    · obtain ⟨rfl, hn⟩ := hstay
      cases hk
      exact Or.inr (Or.inr (by rw [hn]; exact ⟨[], rfl, hw.blank hb⟩))
    · obtain ⟨rfl, hn⟩ := hhelo
      cases hk
      refine Or.inr (Or.inr ?_)
      rw [hn]
      exact ⟨w, [c], rfl, hw, by simp, Blanks.nil.concat hb⟩
    · obtain ⟨rfl, hn⟩ := hehlo
      cases hk
      refine Or.inr (Or.inr ?_)
      rw [hn]
      exact ⟨w, [c], rfl, hw, by simp, Blanks.nil.concat hb⟩
    · obtain ⟨rfl, hn⟩ := hmail
      cases hk
      have hcolon := hw.concat c
      rw [hcol] at hcolon
      refine Or.inr (Or.inr ?_)
      rw [hn]
      exact ⟨w ++ [c], [], by simp, hcolon, Blanks.nil⟩
    · obtain ⟨rfl, hn⟩ := hrcpt
      cases hk
      have hcolon := hw.concat c
      rw [hcol] at hcolon
      refine Or.inr (Or.inr ?_)
      rw [hn]
      exact ⟨w ++ [c], [], by simp, hcolon, Blanks.nil⟩
  | none =>
    cases st with
    | heloSep =>
      rw [next_heloSep]
      split_ifs with hb hc
      · exact Or.inr (Or.inr (DomainSep.concat h hb))
      · exact Or.inl rfl
      · exact Or.inr (Or.inr ⟨[c], DomainSep.start h (by simpa using hb) hc⟩)
    | ehloSep =>
      rw [next_ehloSep]
      split_ifs with hb hc
      · exact Or.inr (Or.inr (DomainSep.concat h hb))
      · exact Or.inl rfl
      · exact Or.inr (Or.inr ⟨[c], DomainSep.start h (by simpa using hb) hc⟩)
    | heloDomain =>
      obtain ⟨d, hd⟩ := h
      rw [next_heloDomain]
      split_ifs with hc
      · exact Or.inr (Or.inl rfl)
      · exact Or.inr (Or.inr ⟨d ++ [c], hd.concat hc⟩)
    | ehloDomain =>
      obtain ⟨d, hd⟩ := h
      rw [next_ehloDomain]
      split_ifs with hc
      · exact Or.inr (Or.inl rfl)
      · exact Or.inr (Or.inr ⟨d ++ [c], hd.concat hc⟩)
    | mailFromSep =>
      rw [next_mailFromSep]
      split_ifs with hb hl hc
      · exact Or.inr (Or.inr (ArgSep.concat h hb))
      · exact Or.inr (Or.inr ⟨[], by rw [hl]; exact ArgSep.start h⟩)
      · exact Or.inr (Or.inl rfl)
      · exact Or.inl rfl
    | rcptToSep =>
      rw [next_rcptToSep]
      split_ifs with hb hl hc
      · exact Or.inr (Or.inr (ArgSep.concat h hb))
      · exact Or.inr (Or.inr ⟨[], by rw [hl]; exact ArgSep.start h⟩)
      · exact Or.inr (Or.inl rfl)
      · exact Or.inl rfl
    | mailFrom =>
      obtain ⟨a, ha⟩ := h
      rw [next_mailFrom]
      split_ifs with hg hc
      · exact Or.inr (Or.inr ⟨a, [], by rw [hg]; exact ha.close, by simp⟩)
      · exact Or.inl rfl
      · exact Or.inr (Or.inr ⟨a ++ [c], ha.concat hg hc⟩)
    | rcptTo =>
      obtain ⟨a, ha⟩ := h
      rw [next_rcptTo]
      split_ifs with hg hc
      · exact Or.inr (Or.inr ⟨a, by rw [hg]; exact ha.close⟩)
      · exact Or.inl rfl
      · exact Or.inr (Or.inr ⟨a ++ [c], ha.concat hg hc⟩)
    | mailFromSender =>
      obtain ⟨a, r, ha, hr⟩ := h
      rw [next_mailFromSender]
      split_ifs with hc
      · exact Or.inr (Or.inl rfl)
      · exact Or.inr (Or.inr ⟨a, r ++ [c], ha.concat c, by simpa [Ne.symm hc] using hr⟩)
    | rcptToRecipient =>
      rw [next_rcptToRecipient]
      split_ifs with hc
      · exact Or.inr (Or.inl rfl)
      · exact Or.inl rfl
    | _ =>
      obtain ⟨kw, hkw, -⟩ := h
      cases hk.symm.trans hkw

theorem lineRun_keyword {st : RequestState} {kw w : List UInt8} (hrun : lineRun .verb kw = st)
    (h : Keyword kw w) : lineRun .verb w = st := by
  obtain ⟨b, t, rfl, hb, ht⟩ := h
  have hblank : lineRun .verb b = .verb := by
    clear hrun ht
    induction b with
    | nil => rfl
    | cons c b ih =>
      have hc : RequestState.verb.next c = .verb := by
        have hcb : c = SP ∨ c = TAB := by simpa [isBlank] using hb c (by simp)
        rcases hcb with rfl | rfl <;> rfl
      rw [lineRun_cons, hc]
      exact ih fun x hx => hb x (by simp [hx])
  rw [lineRun_append, hblank, ← lineRun_tolower, ht, hrun]

theorem lineRun_stay {st : RequestState} {xs : List UInt8} (h : ∀ c ∈ xs, st.next c = st) :
    lineRun st xs = st := by
  induction xs with
  | nil => rfl
  | cons c xs ih =>
    rw [lineRun_cons, h c (by simp)]
    exact ih fun x hx => h x (by simp [hx])

theorem lineRun_domainSep {sep : RequestState} {kw w : List UInt8}
    (hsep : ∀ c, isBlank c = true → (lineRun .verb kw).next c = sep)
    (hstay : ∀ c, isBlank c = true → sep.next c = sep) (h : DomainSep kw w) :
    lineRun .verb w = sep := by
  obtain ⟨v, s, rfl, hk, hne, hs⟩ := h
  obtain ⟨c, s, rfl⟩ := List.exists_cons_of_ne_nil hne
  rw [lineRun_append, lineRun_keyword rfl hk, lineRun_cons, hsep c (hs c (by simp))]
  exact lineRun_stay fun x hx => hstay x (hs x (by simp [hx]))

theorem lineRun_domain {sep dom : RequestState} {kw w d : List UInt8}
    (hsep : ∀ v, DomainSep kw v → lineRun .verb v = sep)
    (hstart : ∀ c, isBlank c = false → c ≠ CR → sep.next c = dom)
    (hstay : ∀ c, c ≠ CR → dom.next c = dom) (h : DomainLine kw w d) :
    lineRun .verb w = dom := by
  obtain ⟨v, rfl, hv, hcr, c, r, rfl, hc⟩ := h
  have hne : c ≠ CR := fun he => hcr (by simp [he])
  rw [lineRun_append, hsep v hv, lineRun_cons, hstart c hc hne]
  exact lineRun_stay fun x hx => hstay x fun he => hcr (by simp [← he, hx])

theorem lineRun_argSep {sep : RequestState} {kw w : List UInt8} (hrun : lineRun .verb kw = sep)
    (hstay : ∀ c, isBlank c = true → sep.next c = sep) (h : ArgSep kw w) :
    lineRun .verb w = sep := by
  obtain ⟨v, s, rfl, hk, hs⟩ := h
  rw [lineRun_append, lineRun_keyword hrun hk]
  exact lineRun_stay fun x hx => hstay x (hs x hx)

theorem lineRun_argOpen {sep arg : RequestState} {kw w a : List UInt8}
    (hsep : ∀ v, ArgSep kw v → lineRun .verb v = sep) (hstart : sep.next LT = arg)
    (hstay : ∀ c, c ≠ GT → c ≠ CR → arg.next c = arg) (h : ArgOpen kw w a) :
    lineRun .verb w = arg := by
  obtain ⟨v, rfl, hv, hg, hc⟩ := h
  rw [lineRun_append, hsep v hv, lineRun_cons, hstart]
  exact lineRun_stay fun x hx => hstay x (fun he => hg (by simp [← he, hx]))
    (fun he => hc (by simp [← he, hx]))

theorem lineRun_heloSep {w : List UInt8} (h : DomainSep heloWord w) : lineRun .verb w = .heloSep := by
  refine lineRun_domainSep (fun c hc => ?_) (fun c hc => by simp [next_heloSep, hc]) h
  have hverb : lineRun .verb heloWord = .verbHelo := rfl
  simp [hverb, RequestState.next, RequestState.onByte, hc, RequestAction.next]

theorem lineRun_ehloSep {w : List UInt8} (h : DomainSep ehloWord w) : lineRun .verb w = .ehloSep := by
  refine lineRun_domainSep (fun c hc => ?_) (fun c hc => by simp [next_ehloSep, hc]) h
  have hverb : lineRun .verb ehloWord = .verbEhlo := rfl
  simp [hverb, RequestState.next, RequestState.onByte, hc, RequestAction.next]

theorem lineRun_mailFromSep {w : List UInt8} (h : ArgSep mailFromWord w) :
    lineRun .verb w = .mailFromSep :=
  lineRun_argSep rfl (fun c hc => by simp [next_mailFromSep, hc]) h

theorem lineRun_rcptToSep {w : List UInt8} (h : ArgSep rcptToWord w) :
    lineRun .verb w = .rcptToSep :=
  lineRun_argSep rfl (fun c hc => by simp [next_rcptToSep, hc]) h

theorem lineRun_mailFrom {w a : List UInt8} (h : ArgOpen mailFromWord w a) :
    lineRun .verb w = .mailFrom :=
  lineRun_argOpen (fun _ => lineRun_mailFromSep) rfl
    (fun c hg hc => by simp [next_mailFrom, hg, hc]) h

theorem lineRun_rcptTo {w a : List UInt8} (h : ArgOpen rcptToWord w a) :
    lineRun .verb w = .rcptTo :=
  lineRun_argOpen (fun _ => lineRun_rcptToSep) rfl
    (fun c hg hc => by simp [next_rcptTo, hg, hc]) h

/-- The text of a line determines the state. -/
theorem lineRun_of_line (st : RequestState) {w : List UInt8} (h : st.Line w) :
    lineRun .verb w = st := by
  cases st with
  | heloSep => exact lineRun_heloSep h
  | ehloSep => exact lineRun_ehloSep h
  | heloDomain =>
    obtain ⟨d, hd⟩ := h
    exact lineRun_domain (fun _ => lineRun_heloSep) (fun c hb hc => by simp [next_heloSep, hb, hc])
      (fun c hc => by simp [next_heloDomain, hc]) hd
  | ehloDomain =>
    obtain ⟨d, hd⟩ := h
    exact lineRun_domain (fun _ => lineRun_ehloSep) (fun c hb hc => by simp [next_ehloSep, hb, hc])
      (fun c hc => by simp [next_ehloDomain, hc]) hd
  | mailFromSep => exact lineRun_mailFromSep h
  | rcptToSep => exact lineRun_rcptToSep h
  | mailFrom =>
    obtain ⟨a, ha⟩ := h
    exact lineRun_mailFrom ha
  | rcptTo =>
    obtain ⟨a, ha⟩ := h
    exact lineRun_rcptTo ha
  | mailFromSender =>
    obtain ⟨a, r, ⟨v, rfl, hv⟩, hr⟩ := h
    have hgt : RequestState.mailFrom.next GT = .mailFromSender := rfl
    rw [lineRun_append, lineRun_mailFrom hv, lineRun_cons, hgt]
    exact lineRun_stay fun x hx => by
      have hc : x ≠ CR := fun he => hr (by simpa [← he] using hx)
      simp [next_mailFromSender, hc]
  | rcptToRecipient =>
    obtain ⟨a, v, rfl, hv⟩ := h
    rw [lineRun_append, lineRun_rcptTo hv]
    rfl
  | cr | done | error =>
    obtain ⟨kw, hkw, -⟩ := h
    cases hkw
  | _ =>
    obtain ⟨kw, hkw, hw⟩ := h
    refine lineRun_keyword ?_ hw
    cases hkw
    rfl

/-- Inside a line no CR has ended it. -/
theorem line_not_ended {st : RequestState} {w : List UInt8} (h : st = .error ∨ st.Line w) : st ≠ .cr ∧ st ≠ .done := by
  constructor
  all_goals
    rintro rfl
    obtain herror | ⟨kw, hkw, -⟩ := h
    · cases herror
    · cases hkw

/-- A greeting of which nothing but blanks follows the verb yet. -/
def DomainGap (w : List UInt8) : Prop := DomainSep heloWord w ∨ DomainSep ehloWord w

def DomainText (w : List UInt8) : Prop :=
  (∃ d, DomainLine heloWord w d) ∨ ∃ d, DomainLine ehloWord w d

def ArgText (w : List UInt8) : Prop := (∃ a, ArgOpen mailFromWord w a) ∨ ∃ a, ArgOpen rcptToWord w a

/-- The unfinished lines on which a CR is taken as one more byte of a malformed line. -/
def OpenLine (w : List UInt8) : Prop := DomainGap w ∨ ArgText w

section Texts

variable {w : List UInt8} (h : lineRun .verb w = .error ∨ (lineRun .verb w).Line w)
include h

theorem domainGap_iff :
    DomainGap w ↔ lineRun .verb w = .heloSep ∨ lineRun .verb w = .ehloSep := by
  refine ⟨Or.imp lineRun_heloSep lineRun_ehloSep, ?_⟩
  rintro (hst | hst) <;> rw [hst] at h
  · exact Or.inl (h.resolve_left (by simp))
  · exact Or.inr (h.resolve_left (by simp))

theorem domainText_iff :
    DomainText w ↔ lineRun .verb w = .heloDomain ∨ lineRun .verb w = .ehloDomain := by
  constructor
  · rintro (hd | hd)
    · exact Or.inl (lineRun_of_line .heloDomain hd)
    · exact Or.inr (lineRun_of_line .ehloDomain hd)
  · rintro (hst | hst) <;> rw [hst] at h
    · exact Or.inl (h.resolve_left (by simp))
    · exact Or.inr (h.resolve_left (by simp))

theorem argText_iff :
    ArgText w ↔ lineRun .verb w = .mailFrom ∨ lineRun .verb w = .rcptTo := by
  constructor
  · rintro (ha | ha)
    · exact Or.inl (lineRun_of_line .mailFrom ha)
    · exact Or.inr (lineRun_of_line .rcptTo ha)
  · rintro (hst | hst) <;> rw [hst] at h
    · exact Or.inl (h.resolve_left (by simp))
    · exact Or.inr (h.resolve_left (by simp))

theorem openLine_iff :
    OpenLine w ↔ lineRun .verb w = .heloSep ∨ lineRun .verb w = .ehloSep ∨
      lineRun .verb w = .mailFrom ∨ lineRun .verb w = .rcptTo := by
  rw [OpenLine, domainGap_iff h, argText_iff h, or_assoc]

end Texts

/-- A CR ends the line, except on the four kinds of open lines, and inside a line only
a CR does. -/
theorem next_CR {st : RequestState} (hcr : st ≠ .cr) (hdone : st ≠ .done) :
    st.next CR = if st = .heloSep ∨ st = .ehloSep ∨ st = .mailFrom ∨ st = .rcptTo then .error else .cr := by
  cases st <;> first | rfl | contradiction

section Ends

variable {w : List UInt8} (h : lineRun .verb w = .error ∨ (lineRun .verb w).Line w)
include h

theorem lineRun_closed (ho : ¬ OpenLine w) : (lineRun .verb w).next CR = .cr := by
  obtain ⟨hcr, hdone⟩ := line_not_ended h
  rw [next_CR hcr hdone]
  exact if_neg (mt (openLine_iff h).mpr ho)

theorem lineRun_open (ho : OpenLine w) : (lineRun .verb w).next CR = .error := by
  obtain ⟨hcr, hdone⟩ := line_not_ended h
  rw [next_CR hcr hdone]
  exact if_pos ((openLine_iff h).mp ho)

end Ends

theorem next_eq_cr {st : RequestState} {c : UInt8} (h : st.next c = .cr) : c = CR := by
  by_contra hc
  revert h
  cases st <;> simp only [RequestState.next, RequestState.onByte, expect] <;>
    (try split_ifs) <;> simp_all [RequestAction.next]

theorem next_ne_done {st : RequestState} (hcr : st ≠ .cr) (hdone : st ≠ .done) (c : UInt8) :
    st.next c ≠ .done := by
  cases st <;> first | contradiction | skip
  all_goals
    simp only [RequestState.next, RequestState.onByte, expect]
    (try split_ifs) <;> simp only [RequestAction.next] <;> (try split_ifs) <;> simp

end Smtpd
