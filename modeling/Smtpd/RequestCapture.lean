import Smtpd.RequestGrammar

namespace Smtpd

open Checked CString Incremental

/-- The states before anything of a line is captured. -/
def RequestState.Plain (st : RequestState) : Prop :=
  st.keyword ≠ none ∨ st = .heloSep ∨ st = .ehloSep ∨ st = .mailFromSep ∨ st = .rcptToSep

theorem onByte_keyword_stores {st : RequestState} (h : st.keyword ≠ none) (c : UInt8) :
    (st.onByte c).stores = false := by
  cases st <;> first | exact absurd rfl h | skip
  all_goals
    simp only [RequestState.onByte, expect]
    (try split_ifs) <;> rfl

/-- What is captured stays captured: from the states behind a capture no line gets back. -/
theorem plain_of_next {st : RequestState} {w : List UInt8} {c : UInt8}
    (h : st = .error ∨ st.Line w) (hc : c ≠ CR) (hn : (st.next c).Plain) :
    st.Plain ∧ (st.onByte c).stores = false := by
  by_cases hk : st.keyword = none
  · cases st with
    | heloSep =>
      rw [next_heloSep] at hn
      refine ⟨by simp [RequestState.Plain], ?_⟩
      by_cases hb : isBlank c = true
      · simp [RequestState.onByte, RequestAction.stores, hb]
      · simp [hb, hc, RequestState.Plain, RequestState.keyword] at hn
    | ehloSep =>
      rw [next_ehloSep] at hn
      refine ⟨by simp [RequestState.Plain], ?_⟩
      by_cases hb : isBlank c = true
      · simp [RequestState.onByte, RequestAction.stores, hb]
      · simp [hb, hc, RequestState.Plain, RequestState.keyword] at hn
    | mailFromSep =>
      refine ⟨by simp [RequestState.Plain], ?_⟩
      simp only [RequestState.onByte]
      split_ifs <;> rfl
    | rcptToSep =>
      refine ⟨by simp [RequestState.Plain], ?_⟩
      simp only [RequestState.onByte]
      split_ifs <;> rfl
    | heloDomain => simp [next_heloDomain, hc, RequestState.Plain, RequestState.keyword] at hn
    | ehloDomain => simp [next_ehloDomain, hc, RequestState.Plain, RequestState.keyword] at hn
    | mailFrom =>
      rw [next_mailFrom] at hn
      split_ifs at hn <;> simp [RequestState.Plain, RequestState.keyword] at hn
    | rcptTo =>
      rw [next_rcptTo] at hn
      split_ifs at hn <;> simp [RequestState.Plain, RequestState.keyword] at hn
    | mailFromSender => simp [next_mailFromSender, hc, RequestState.Plain, RequestState.keyword] at hn
    | rcptToRecipient => simp [next_rcptToRecipient, hc, RequestState.Plain, RequestState.keyword] at hn
    | error => simp [next_error, hc, RequestState.Plain, RequestState.keyword] at hn
    | cr | done =>
      rcases h with h | ⟨kw, hkw, -⟩
      · cases h
      · cases hkw
    | _ => cases hk
  · exact ⟨Or.inl hk, onByte_keyword_stores hk c⟩

theorem feed_keeps {p q : RequestParser} {c : UInt8} (h : (p.state.onByte c).stores = false)
    (hf : requestParserFeed p c = .ok q) : q.request = p.request ∧ q.i = p.i := by
  obtain ⟨command, hok, -⟩ := feed_of_not_stored h
  cases hok.symm.trans hf
  exact ⟨rfl, rfl⟩

/-- Before anything is captured the request is as it was initialised. -/
theorem feedAll_plain {w : List UInt8} {p : RequestParser} {e : Bool} (hcr : CR ∉ w)
    (hp : (lineRun .verb w).Plain)
    (h : requestParser.feedAll (requestParserInit, false) w = .ok (p, e)) :
    p.request = requestParserInit.request ∧ p.i = 0 := by
  induction w using List.reverseRecOn generalizing p e with
  | nil =>
    cases h
    exact ⟨rfl, rfl⟩
  | append_singleton w c ih =>
    obtain ⟨hw, hc⟩ : CR ∉ w ∧ CR ≠ c := by simpa [not_or] using hcr
    rw [lineRun_concat] at hp
    obtain ⟨hplain, hstores⟩ := plain_of_next (line_of_noCR hw) (Ne.symm hc) hp
    obtain ⟨⟨q, e₁⟩, hq, h⟩ := Parser.feedAll_split h
    obtain ⟨⟨r, e₂⟩, hr, h⟩ := bind_ok h
    obtain ⟨r', hfeed, hr⟩ := bind_ok hr
    cases hr
    cases h
    obtain ⟨hreq, hi⟩ := ih hw hplain hq
    have hst : q.state = lineRun .verb w := feedAll_state hq
    rw [← hst] at hstores
    obtain ⟨hreq', hi'⟩ := feed_keeps hstores hfeed
    exact ⟨hreq'.trans hreq, hi'.trans hi⟩

theorem feed_arg {p : RequestParser} {c : UInt8} (hst : p.state = .mailFrom ∨ p.state = .rcptTo)
    (hg : c ≠ GT) (hc : c ≠ CR) :
    requestParserFeed p c = p.request.store (0 + p.i.toNat) c >>= fun request =>
      .ok { p with request, i := p.i + 1 } := by
  obtain ⟨request, state, command, i⟩ := p
  rcases hst with rfl | rfl <;> simp [requestParserFeed, RequestState.onByte, hg, hc]

theorem feed_domain {p : RequestParser} {c : UInt8}
    (hst : p.state = .heloDomain ∨ p.state = .ehloDomain) (hc : c ≠ CR) :
    requestParserFeed p c = p.request.store (32 + p.i.toNat) c >>= fun request =>
      .ok { p with request, i := p.i + 1 } := by
  obtain ⟨request, state, command, i⟩ := p
  rcases hst with rfl | rfl <;> simp [requestParserFeed, RequestState.onByte, hc]

/-- In a capturing state a text is written into the request as one piece. -/
theorem feedAll_capture (st : RequestState) (base : Nat) {a : List UInt8}
    (hcap : ∀ c ∈ a, ∀ p : RequestParser, p.state = st →
      requestParserFeed p c = p.request.store (base + p.i.toNat) c >>= fun request =>
        .ok { p with request, i := p.i + 1 })
    {p q : RequestParser} {errored e : Bool} (hst : p.state = st)
    (hmem : p.request.bytes.length = 64) (hfit : base + p.i.toNat + a.length ≤ 64)
    (h : requestParser.feedAll (p, errored) a = .ok (q, e)) :
    q.state = st ∧ q.i.toNat = p.i.toNat + a.length ∧
      q.request.bytes = overwrite p.request.bytes (base + p.i.toNat) a := by
  induction a using List.reverseRecOn generalizing q e with
  | nil =>
    cases h
    exact ⟨hst, rfl, (overwrite_nil _ _).symm⟩
  | append_singleton a c ih =>
    obtain ⟨⟨r, e₁⟩, hr, h⟩ := Parser.feedAll_split h
    obtain ⟨⟨s, e₂⟩, hs, h⟩ := bind_ok h
    obtain ⟨s', hfeed, hs⟩ := bind_ok hs
    cases hs
    cases h
    simp only [List.length_append, List.length_singleton] at hfit
    obtain ⟨hrst, hri, hrmem⟩ := ih (fun x hx => hcap x (by simp [hx])) (by omega) hr
    have hlt : base + r.i.toNat < 64 := by omega
    rw [hcap c (by simp) r hrst, Request.store, if_pos hlt] at hfeed
    cases hfeed
    refine ⟨hrst, ?_, ?_⟩
    · rw [List.length_append, List.length_singleton, index_succ hri (by omega)]
      omega
    · have hlen : base + p.i.toNat + a.length ≤ p.request.bytes.length := by omega
      have hlt' : base + r.i.toNat < r.request.bytes.length := by
        rw [hrmem, length_overwrite hlen]
        omega
      show r.request.bytes.set (base + r.i.toNat) c = _
      rw [← overwrite_singleton hlt', hrmem, hri, ← Nat.add_assoc, overwrite_append (by omega)]

theorem feedAll_concat_inv {p q : RequestParser × Bool} {u : List UInt8} {c : UInt8}
    (h : requestParser.feedAll p (u ++ [c]) = .ok q) :
    ∃ r e, requestParser.feedAll p u = .ok (r, e) ∧ requestParserFeed r c = .ok q.1 := by
  obtain ⟨⟨r, e⟩, hr, h⟩ := Parser.feedAll_split h
  obtain ⟨⟨s, e₁⟩, hs, h⟩ := bind_ok h
  obtain ⟨s', hfeed, hs⟩ := bind_ok hs
  cases hs
  cases h
  exact ⟨r, e, hr, hfeed⟩

abbrev zeros (n : Nat) : List UInt8 := List.replicate n 0

theorem arg_captured {w a : List UInt8} {q : RequestParser} {e : Bool} (hcr : CR ∉ w)
    (h : ArgOpen mailFromWord w a ∨ ArgOpen rcptToWord w a) (hlen : a.length ≤ 64)
    (hf : requestParser.feedAll (requestParserInit, false) w = .ok (q, e)) :
    (q.state = .mailFrom ∨ q.state = .rcptTo) ∧ q.request.bytes = overwrite (zeros 64) 0 a := by
  obtain ⟨v, hw, hv, hgt, hacr⟩ : ∃ v, w = v ++ LT :: a ∧
      (ArgSep mailFromWord v ∨ ArgSep rcptToWord v) ∧ GT ∉ a ∧ CR ∉ a := by
    rcases h with ⟨v, hw, hv, hgt, hacr⟩ | ⟨v, hw, hv, hgt, hacr⟩
    · exact ⟨v, hw, Or.inl hv, hgt, hacr⟩
    · exact ⟨v, hw, Or.inr hv, hgt, hacr⟩
  subst hw
  have hvcr : CR ∉ v := fun hm => hcr (by simp [hm])
  have hrun : lineRun .verb v = .mailFromSep ∨ lineRun .verb v = .rcptToSep :=
    hv.imp lineRun_mailFromSep lineRun_rcptToSep
  have hplain : (lineRun .verb v).Plain := by
    rcases hrun with hrun | hrun <;> simp [hrun, RequestState.Plain]
  rw [show v ++ LT :: a = (v ++ [LT]) ++ a by simp] at hf
  obtain ⟨⟨p, e₁⟩, hp, hf⟩ := Parser.feedAll_split hf
  obtain ⟨r, e₂, hr, hfeed⟩ := feedAll_concat_inv hp
  obtain ⟨hreq, hi⟩ := feedAll_plain hvcr hplain hr
  have hrst : r.state = lineRun .verb v := feedAll_state hr
  have hstores : (r.state.onByte LT).stores = false := by
    rw [hrst]
    rcases hrun with hrun | hrun <;> rw [hrun] <;> rfl
  obtain ⟨hpreq, hpi⟩ := feed_keeps hstores hfeed
  have hpst : p.state = .mailFrom ∨ p.state = .rcptTo := by
    rw [feed_state hfeed, hrst]
    exact hrun.imp (by rintro h; rw [h]; rfl) (by rintro h; rw [h]; rfl)
  have hpi0 : p.i.toNat = 0 := by rw [hpi, hi]; rfl
  obtain ⟨hqst, -, hmem⟩ := feedAll_capture p.state 0
    (fun c hc r hr => feed_arg (by rw [hr]; exact hpst) (fun he => hgt (he ▸ hc))
      (fun he => hacr (he ▸ hc)))
    rfl (by rw [hpreq, hreq]; rfl) (by omega) hf
  refine ⟨by rw [hqst]; exact hpst, ?_⟩
  rw [hmem, hpi0, hpreq, hreq]
  rfl

theorem domain_captured {w d : List UInt8} {q : RequestParser} {e : Bool} (hcr : CR ∉ w)
    (h : DomainLine heloWord w d ∨ DomainLine ehloWord w d) (hlen : d.length ≤ 32)
    (hf : requestParser.feedAll (requestParserInit, false) w = .ok (q, e)) :
    q.request.bytes = overwrite (zeros 64) 32 d := by
  obtain ⟨v, c, r, hw, hv, hb, hd⟩ : ∃ v c r, w = v ++ c :: r ∧
      (DomainSep heloWord v ∨ DomainSep ehloWord v) ∧ isBlank c = false ∧ d = c :: r := by
    rcases h with ⟨v, hw, hv, -, c, r, hd, hb⟩ | ⟨v, hw, hv, -, c, r, hd, hb⟩
    · exact ⟨v, c, r, by rw [hw, hd], Or.inl hv, hb, hd⟩
    · exact ⟨v, c, r, by rw [hw, hd], Or.inr hv, hb, hd⟩
  subst hw hd
  have hvcr : CR ∉ v := fun hm => hcr (by simp [hm])
  have hc : c ≠ CR := fun he => hcr (by simp [he])
  have hrcr : CR ∉ r := fun hm => hcr (by simp [hm])
  have hrun : lineRun .verb v = .heloSep ∨ lineRun .verb v = .ehloSep :=
    hv.imp lineRun_heloSep lineRun_ehloSep
  have hplain : (lineRun .verb v).Plain := by
    rcases hrun with hrun | hrun <;> simp [hrun, RequestState.Plain]
  rw [show v ++ c :: r = (v ++ [c]) ++ r by simp] at hf
  obtain ⟨⟨p, e₁⟩, hp, hf⟩ := Parser.feedAll_split hf
  obtain ⟨s, e₂, hs, hfeed⟩ := feedAll_concat_inv hp
  obtain ⟨hreq, -⟩ := feedAll_plain hvcr hplain hs
  have hsst : s.state = lineRun .verb v := feedAll_state hs
  -- the first byte of the domain resets the index
  have hp' : (p.state = .heloDomain ∨ p.state = .ehloDomain) ∧ p.i = 1 ∧
      p.request.bytes = overwrite (zeros 64) 32 [c] := by
    rcases hrun with hrun | hrun <;> rw [hrun] at hsst <;>
      simp [requestParserFeed, hsst, RequestState.onByte, hb, hc, Request.store] at hfeed <;>
      subst hfeed <;>
      exact ⟨by simp, rfl, by rw [overwrite_singleton (by simp), hreq]; rfl⟩
  obtain ⟨hpst, hpi, hpmem⟩ := hp'
  have hpi1 : p.i.toNat = 1 := by rw [hpi]; rfl
  simp only [List.length_cons] at hlen
  obtain ⟨-, -, hmem⟩ := feedAll_capture p.state 32
    (fun x hx t ht => feed_domain (by rw [ht]; exact hpst) (fun he => hrcr (he ▸ hx)))
    rfl (by rw [hpmem, length_overwrite] <;> simp) (by omega) hf
  rw [hmem, hpi1, hpmem]
  have hroom : 32 ≤ (zeros 64).length := by simp
  exact overwrite_append hroom

theorem feedAll_sender {p q : RequestParser} {errored e : Bool} {r : List UInt8}
    (hst : p.state = .mailFromSender) (hr : CR ∉ r)
    (h : requestParser.feedAll (p, errored) r = .ok (q, e)) : q.request = p.request := by
  induction r generalizing p errored with
  | nil =>
    cases h
    rfl
  | cons c r ih =>
    have hcr : c ≠ CR ∧ CR ∉ r := by simpa [not_or, eq_comm] using hr
    obtain ⟨⟨s, e₁⟩, hs, h⟩ := bind_ok h
    obtain ⟨s', hfeed, hs⟩ := bind_ok hs
    cases hs
    have hstores : (p.state.onByte c).stores = false := by
      simp [hst, RequestState.onByte, hcr.1, RequestAction.stores]
    have hnext : s.state = .mailFromSender := by
      rw [feed_state hfeed, hst, next_mailFromSender, if_neg hcr.1]
    rw [ih hnext hcr.2 h]
    exact (feed_keeps hstores hfeed).1

theorem closed_captured {w a r : List UInt8} {q : RequestParser} {e : Bool} (hcr : CR ∉ w)
    (h : ArgClosed mailFromWord w a r ∨ ArgClosed rcptToWord w a [] ∧ r = []) (hlen : a.length ≤ 64)
    (hf : requestParser.feedAll (requestParserInit, false) w = .ok (q, e)) :
    q.request.bytes = overwrite (zeros 64) 0 a := by
  obtain ⟨v, hw, hv, hr⟩ : ∃ v, w = v ++ GT :: r ∧
      (ArgOpen mailFromWord v a ∨ ArgOpen rcptToWord v a) ∧ (ArgOpen mailFromWord v a ∨ r = []) := by
    rcases h with ⟨v, hw, hv⟩ | ⟨⟨v, hw, hv⟩, rfl⟩
    · exact ⟨v, hw, Or.inl hv, Or.inl hv⟩
    · exact ⟨v, hw, Or.inr hv, Or.inr rfl⟩
  subst hw
  have hvcr : CR ∉ v := fun hm => hcr (by simp [hm])
  have hrcr : CR ∉ r := fun hm => hcr (by simp [hm])
  rw [show v ++ GT :: r = (v ++ [GT]) ++ r by simp] at hf
  obtain ⟨⟨p, e₁⟩, hp, hf⟩ := Parser.feedAll_split hf
  obtain ⟨s, e₂, hs, hfeed⟩ := feedAll_concat_inv hp
  obtain ⟨hst, hmem⟩ := arg_captured hvcr hv hlen hs
  have hstores : (s.state.onByte GT).stores = false := by
    rcases hst with hst | hst <;> rw [hst] <;> rfl
  rw [← hmem, ← (feed_keeps hstores hfeed).1]
  rcases hr with hmail | rfl
  · have hsst : s.state = .mailFrom := (feedAll_state hs).trans (lineRun_mailFrom hmail)
    have hpst : p.state = .mailFromSender := by
      rw [feed_state hfeed, hsst]
      rfl
    rw [feedAll_sender hpst hrcr hf]
  · cases hf
    rfl

/-- A line that ends is the command whose form it has, and unknown if it has none, and the
domain or the address on it is what the request holds. -/
theorem request_of_line {w : List UInt8} {p : RequestParser} {errored : Bool} (hcr : CR ∉ w)
    (hlen : ∀ a, Argument w a → a.length ≤ 31)
    (hf : requestParser.feedAll (requestParserInit, false) (w ++ lineEnd) = .ok (p, errored))
    (hd : p.state = .done) :
    (∀ command, command ≠ .unknown → (p.command = command ↔ command.Form w)) ∧
    (p.command = .unknown ↔ ∀ command : RequestCommand, ¬ command.Form w) ∧
    (∀ d, DomainLine heloWord w d ∨ DomainLine ehloWord w d →
      p.request.domain = d ++ zeros (32 - d.length)) ∧
    (∀ a r, ArgClosed mailFromWord w a r → p.request.arg = a ++ zeros (32 - a.length)) ∧
    (∀ a, ArgClosed rcptToWord w a [] → p.request.arg = a ++ zeros (32 - a.length)) := by
  obtain ⟨⟨q, e⟩, hq, hf⟩ := Parser.feedAll_split hf
  have hqst : q.state = lineRun .verb w := feedAll_state hq
  have hline := line_of_noCR hcr
  have hinline : q.state ≠ .cr ∧ q.state ≠ .done := by
    rw [hqst]
    exact line_not_ended hline
  obtain ⟨hreq, hcommand⟩ := feedAll_lineEnd hf hd hinline
  rw [hqst] at hcommand
  have harg : ∀ a r, ArgClosed mailFromWord w a r ∨ ArgClosed rcptToWord w a [] ∧ r = [] →
      p.request.arg = a ++ zeros (32 - a.length) := by
    intro a r harg
    have ha31 : a.length ≤ 31 := by
      rcases harg with ⟨v, hw, hv⟩ | ⟨⟨v, hw, hv⟩, -⟩
      · exact hlen a (Or.inr (Or.inr ⟨v, ⟨_, hw.symm⟩, Or.inl hv⟩))
      · exact hlen a (Or.inr (Or.inr ⟨v, ⟨_, hw.symm⟩, Or.inr hv⟩))
    have hpad : min (32 - a.length) (64 - a.length) = 32 - a.length := by omega
    have ha32 : a.length ≤ 32 := by omega
    rw [Request.arg, hreq, closed_captured hcr harg (by omega) hq, overwrite]
    simp [List.take_append, hpad, ha32]
  refine ⟨fun command hu => by rw [hcommand]; exact ends_iff_form hcr hu, ?_, ?_,
    fun a r h => harg a r (Or.inl h), fun a h => harg a [] (Or.inr ⟨h, rfl⟩)⟩
  · rw [hcommand]
    constructor
    · intro hu command hform
      have hne : command ≠ RequestCommand.unknown := by
        rintro rfl
        exact hform
      exact hne (hu ▸ ((ends_iff_form hcr hne).mpr hform).symm)
    · intro hnone
      by_contra hne
      exact hnone _ ((ends_iff_form hcr hne).mp rfl)
  · intro d hdom
    have hd31 : d.length ≤ 31 := hlen d (by tauto)
    rw [Request.domain, hreq, domain_captured hcr hdom (by omega) hq, overwrite]
    simp [List.drop_append, show 64 - (32 + d.length) = 32 - d.length by omega]

theorem Argument.length_le {w a : List UInt8} (h : Argument w a) : a.length ≤ w.length := by
  rcases h with ⟨v, rfl, -⟩ | ⟨v, rfl, -⟩ | ⟨v, ⟨t, rfl⟩, ⟨u, rfl, -⟩ | ⟨u, rfl, -⟩⟩ <;>
    simp only [List.length_append, List.length_cons] <;> omega

theorem request_of_line_mail :
    ∃ p, requestParser.feedAll (requestParserInit, false) (ascii "mail FROM:<a@b> SIZE=9" ++ lineEnd) = .ok (p, false) ∧
      p.state = .done ∧ p.command = .mail ∧ RequestCommand.Form .mail (ascii "mail FROM:<a@b> SIZE=9") ∧
      p.request.arg = ascii "a@b" ++ zeros 29 := by
  obtain ⟨p, hp⟩ : ∃ p : RequestParser,
      p = { request := ⟨ascii "a@b" ++ zeros 61⟩, state := .done, command := .mail, i := 3 } := ⟨_, rfl⟩
  have hfeed : requestParser.feedAll (requestParserInit, false) (ascii "mail FROM:<a@b> SIZE=9" ++ lineEnd) =
      .ok (p, false) := by
    rw [hp]
    decide +kernel
  have hdone : p.state = .done := by rw [hp]
  have hmail : p.command = .mail := by rw [hp]
  have hline := request_of_line (by decide) (fun a ha => ha.length_le.trans (by decide)) hfeed hdone
  have hclosed : ArgClosed mailFromWord (ascii "mail FROM:<a@b> SIZE=9") (ascii "a@b") (ascii " SIZE=9") :=
    ⟨ascii "mail FROM:<a@b", by decide, ascii "mail FROM:",
      by decide, ⟨ascii "mail FROM:", [], by decide, ⟨[], ascii "mail FROM:", rfl, Blanks.nil, by decide⟩, Blanks.nil⟩,
      by decide, by decide⟩
  exact ⟨p, hfeed, hdone, hmail, (hline.1 .mail (by decide)).mp hmail, hline.2.2.2.1 _ _ hclosed⟩

end Smtpd
