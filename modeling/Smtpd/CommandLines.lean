import Smtpd.CommandProgress

namespace Smtpd

open Checked CString Incremental

/-- What a line that is not over has the parser capture at its end. -/
def Captures (u a : List UInt8) : Prop :=
  (ArgOpen mailFromWord u a ∨ ArgOpen rcptToWord u a) ∨ DomainLine heloWord u a ∨ DomainLine ehloWord u a

/-- The states in which the last bytes of a line are captured. -/
def RequestState.Capturing (st : RequestState) : Prop :=
  (st = .mailFrom ∨ st = .rcptTo) ∨ st = .heloDomain ∨ st = .ehloDomain

/-- The index of the parser counts what is captured. -/
structure Counted (u : List UInt8) (p : RequestParser) : Prop where
  state : p.state = lineRun .verb u
  plain : p.state.Plain → p.i = 0
  text : p.state.Capturing → ∃ a, Captures u a ∧ p.i.toNat = a.length

section Counting

variable {u w a : List UInt8} {p q : RequestParser} {c : UInt8}

/-- Where a byte is stored. -/
theorem stores_cases {st : RequestState} (h : (st.onByte c).stores = true) :
    c ≠ CR ∧ ((st = .mailFrom ∨ st = .rcptTo) ∧ c ≠ GT ∧ st.onByte c = .arg st ∨
      (st = .heloDomain ∨ st = .ehloDomain) ∧ st.onByte c = .domain st ∨
      isBlank c = false ∧ (st = .heloSep ∧ st.onByte c = .newDomain .heloDomain ∨
        st = .ehloSep ∧ st.onByte c = .newDomain .ehloDomain)) := by
  cases st <;> simp only [RequestState.onByte, expect] at h ⊢ <;> (try split_ifs at h ⊢) <;> simp_all [RequestAction.stores]

/-- A capture begins behind the `<` of an address, if not with the first byte of a domain. -/
theorem capturing_not_stored {st : RequestState} (h : (st.onByte c).stores = false) (hc : c ≠ CR)
    (hn : (st.next c).Capturing) : c = LT ∧ (st = .mailFromSep ∨ st = .rcptToSep) := by
  cases st <;> simp only [RequestState.next, RequestState.onByte, expect] at h hn <;> (try split_ifs at h hn) <;>
    simp_all [RequestAction.stores, RequestAction.next, RequestState.Capturing]

theorem DomainLine.append {kw t : List UInt8} (h : DomainLine kw u a) (ht : CR ∉ t) :
    DomainLine kw (u ++ t) (a ++ t) := by
  obtain ⟨v, rfl, hv, hcr, x, r, rfl, hb⟩ := h
  refine ⟨v, List.append_assoc _ _ _, hv, ?_, x, r ++ t, rfl, hb⟩
  rw [List.mem_append, not_or]
  exact ⟨hcr, ht⟩

/-- What is captured of the beginning of a line is part of an argument of the line. -/
theorem Captures.argument (h : Captures u a) (hu : u <+: w) (hcr : CR ∉ w) :
    ∃ b, Argument w b ∧ a.length ≤ b.length := by
  rcases h with harg | hdomain
  · exact ⟨a, Or.inr (Or.inr ⟨u, hu, harg⟩), le_rfl⟩
  · obtain ⟨t, rfl⟩ := hu
    have ht : CR ∉ t := fun hm => hcr (List.mem_append_right _ hm)
    refine ⟨a ++ t, hdomain.elim (fun hd => Or.inl (hd.append ht)) fun hd => Or.inr (Or.inl (hd.append ht)), ?_⟩
    rw [List.length_append]
    omega

/-- A byte of a line is stored while there is room, and counted. -/
theorem feed_counted (hline : lineRun .verb u = .error ∨ (lineRun .verb u).Line u) (hp : Counted u p)
    (hi : p.i.toNat ≤ 31) (hc : c ≠ CR) :
    ∃ q, requestParserFeed p c = .ok q ∧ Counted (u ++ [c]) q ∧
      (q.i = p.i ∨ ∃ a, Captures (u ++ [c]) a ∧ q.i.toNat = a.length) := by
  have hrun : p.state.next c = lineRun .verb (u ++ [c]) := by rw [lineRun_concat, hp.state]
  have hsucc : (p.i + 1).toNat = p.i.toNat + 1 := index_succ rfl (by omega)
  have hnot : ∀ {st : RequestState}, st.Capturing → ¬ st.Plain := by
    rintro st ((rfl | rfl) | rfl | rfl) <;> simp [RequestState.Plain, RequestState.keyword]
  cases hs : (p.state.onByte c).stores with
  | false =>
    obtain ⟨command, hfeed, -⟩ := feed_of_not_stored hs
    refine ⟨_, hfeed, ⟨hrun, fun hplain => ?_, fun hcap => ?_⟩, Or.inl rfl⟩
    · rw [hp.state] at hplain
      have hbefore := (plain_of_next hline hc hplain).1
      rw [← hp.state] at hbefore
      exact hp.plain hbefore
    · obtain ⟨rfl, hst⟩ := capturing_not_stored hs hc hcap
      have hzero : p.i = 0 := hp.plain (by rcases hst with hst | hst <;> simp [hst, RequestState.Plain])
      have hl : (lineRun .verb u).Line u := hline.resolve_left fun he => by
        rw [hp.state, he] at hst
        simp at hst
      rw [hp.state] at hst
      refine ⟨[], Or.inl ?_, by rw [hzero]; rfl⟩
      rcases hst with hst | hst <;> rw [hst] at hl
      · exact Or.inl (ArgSep.start hl)
      · exact Or.inr (ArgSep.start hl)
  | true =>
    obtain ⟨-, ⟨hst, hg, hact⟩ | ⟨hst, hact⟩ | ⟨hb, hact⟩⟩ := stores_cases hs
    · obtain ⟨a, ha, hcount⟩ := hp.text (Or.inl hst)
      have hopen : ArgOpen mailFromWord u a ∨ ArgOpen rcptToWord u a := by
        refine ha.resolve_right fun hd => ?_
        have hdomain : lineRun .verb u = .heloDomain ∨ lineRun .verb u = .ehloDomain :=
          hd.imp (fun h => lineRun_of_line .heloDomain ⟨a, h⟩) fun h => lineRun_of_line .ehloDomain ⟨a, h⟩
        rw [hp.state] at hst
        rcases hst with hst | hst <;> rw [hst] at hdomain <;> simp at hdomain
      have hnext : Captures (u ++ [c]) (a ++ [c]) := Or.inl (hopen.imp (·.concat hg hc) (·.concat hg hc))
      have hlen : (p.i + 1).toNat = (a ++ [c]).length := by
        rw [hsucc, hcount, List.length_append, List.length_singleton]
      have hsame : p.state.next c = p.state := by
        rw [RequestState.next, hact]
        rfl
      refine ⟨{ p with request := ⟨p.request.bytes.set p.i.toNat c⟩, i := p.i + 1 }, ?_,
        ⟨hsame.symm.trans hrun, fun hplain => absurd hplain (hnot (Or.inl hst)), fun _ => ⟨_, hnext, hlen⟩⟩,
        Or.inr ⟨_, hnext, hlen⟩⟩
      simp only [requestParserFeed, hact, Request.store, if_pos (show p.i.toNat < 64 by omega)]
      rfl
    · obtain ⟨a, ha, hcount⟩ := hp.text (Or.inr hst)
      have hdomain : DomainLine heloWord u a ∨ DomainLine ehloWord u a := by
        refine ha.resolve_left fun hopen => ?_
        have harg : lineRun .verb u = .mailFrom ∨ lineRun .verb u = .rcptTo :=
          hopen.imp (fun h => lineRun_of_line .mailFrom ⟨a, h⟩) fun h => lineRun_of_line .rcptTo ⟨a, h⟩
        rw [hp.state] at hst
        rcases hst with hst | hst <;> rw [hst] at harg <;> simp at harg
      have hnext : Captures (u ++ [c]) (a ++ [c]) := Or.inr (hdomain.imp (·.concat hc) (·.concat hc))
      have hlen : (p.i + 1).toNat = (a ++ [c]).length := by
        rw [hsucc, hcount, List.length_append, List.length_singleton]
      have hsame : p.state.next c = p.state := by
        rw [RequestState.next, hact]
        rfl
      refine ⟨{ p with request := ⟨p.request.bytes.set (32 + p.i.toNat) c⟩, i := p.i + 1 }, ?_,
        ⟨hsame.symm.trans hrun, fun hplain => absurd hplain (hnot (Or.inr hst)), fun _ => ⟨_, hnext, hlen⟩⟩,
        Or.inr ⟨_, hnext, hlen⟩⟩
      simp only [requestParserFeed, hact, Request.store, if_pos (show 32 + p.i.toNat < 64 by omega)]
      rfl
    · have hl : (lineRun .verb u).Line u := hline.resolve_left fun he => by
        rw [hp.state, he] at hact
        simp at hact
      have hnext : Captures (u ++ [c]) [c] := by
        rw [hp.state] at hact
        refine Or.inr ?_
        rcases hact with ⟨hst, -⟩ | ⟨hst, -⟩ <;> rw [hst] at hl
        · exact Or.inl (DomainSep.start hl hb hc)
        · exact Or.inr (DomainSep.start hl hb hc)
      obtain ⟨next, hact, hcap⟩ : ∃ next, p.state.onByte c = .newDomain next ∧ next.Capturing := by
        rcases hact with ⟨-, hact⟩ | ⟨-, hact⟩
        · exact ⟨_, hact, Or.inr (Or.inl rfl)⟩
        · exact ⟨_, hact, Or.inr (Or.inr rfl)⟩
      have hgoes : p.state.next c = next := by
        rw [RequestState.next, hact]
        rfl
      refine ⟨{ p with request := ⟨p.request.bytes.set 32 c⟩, i := 1, state := next }, ?_,
        ⟨hgoes.symm.trans hrun, fun hplain => absurd hplain (hnot hcap), fun _ => ⟨[c], hnext, rfl⟩⟩,
        Or.inr ⟨[c], hnext, rfl⟩⟩
      simp only [requestParserFeed, hact, Request.store, if_pos (show 32 < 64 by omega)]
      rfl

end Counting

/-- A line that its CR LF ends, and of which no argument has more than 31 bytes. -/
structure CleanLine (w : List UInt8) : Prop where
  noCR : CR ∉ w
  closed : ¬ OpenLine w
  short : ∀ a, Argument w a → a.length ≤ 31

section Lines

variable {u w a : List UInt8} {p q : RequestParser}

theorem counted_init : Counted [] requestParserInit := by
  refine ⟨rfl, fun _ => rfl, ?_⟩
  rintro ((hst | hst) | hst | hst) <;> cases hst

/-- The parser is inside the line as long as it has not ended, and all that it captures fits. -/
theorem CleanLine.inside (hw : CleanLine w) (hu : u <+: w) :
    ∃ p e, requestParser.feedAll (requestParserInit, false) u = .ok (p, e) ∧ Counted u p ∧ p.i.toNat ≤ 31 ∧
      p.state ≠ .cr ∧ p.state ≠ .done ∧
      ∀ rest, argumentsFit requestParserInit (u ++ rest) = argumentsFit p rest := by
  induction u using List.reverseRecOn with
  | nil => exact ⟨requestParserInit, false, rfl, counted_init, by decide, by decide, by decide, fun _ => rfl⟩
  | append_singleton u c ih =>
    have hprefix : u <+: w := (List.prefix_append u [c]).trans hu
    obtain ⟨p, e, hp, hcount, hi, -, -, hrest⟩ := ih hprefix
    have hcr : CR ∉ u ++ [c] := fun hm => hw.noCR (hu.subset hm)
    obtain ⟨hu', hc⟩ : CR ∉ u ∧ CR ≠ c := by simpa [not_or] using hcr
    obtain ⟨q, hfeed, hcount', hindex⟩ := feed_counted (line_of_noCR hu') hcount hi (Ne.symm hc)
    have hi' : q.i.toNat ≤ 31 := by
      rcases hindex with he | ⟨a, ha, he⟩
      · rw [he]
        exact hi
      · obtain ⟨b, hb, hle⟩ := ha.argument hu hw.noCR
        have hshort := hw.short b hb
        omega
    have hstate : q.state ≠ .cr ∧ q.state ≠ .done := by
      rw [hcount'.state]
      exact line_not_ended (line_of_noCR hcr)
    obtain ⟨e', hok⟩ := requestParser_feed_ok e hfeed
    refine ⟨q, e', ?_, hcount', hi', hstate.1, hstate.2, fun rest => ?_⟩
    · rw [Parser.feedAll_concat, hp]
      exact hok
    · rw [List.append_assoc, hrest, List.singleton_append, argumentsFit_cons hfeed, if_neg hstate.2,
        decide_eq_true hi', Bool.true_and]

/-- What is captured of an address is a string, followed by zeros. -/
theorem cstring_captured (ha : a.length ≤ 31) : cstring (overwrite (zeros 64) 0 a) = some (a.takeWhile (· ≠ 0)) := by
  have hbytes : overwrite (zeros 64) 0 a = (a ++ zeros (63 - a.length)) ++ [0] := by
    have hzeros : zeros (64 - a.length) = zeros (63 - a.length) ++ [0] := by
      rw [zeros, show 64 - a.length = (63 - a.length) + 1 by omega, List.replicate_succ']
    rw [overwrite, List.take_zero, List.nil_append, Nat.zero_add, List.drop_replicate, List.append_assoc, ← hzeros]
  rw [hbytes, cstring_terminated, List.takeWhile_append]
  split_ifs
  · have hnone : (zeros (63 - a.length)).takeWhile (· ≠ 0) = [] := by
      rw [List.takeWhile_replicate]
      rfl
    rw [hnone, List.append_nil]
    exact congrArg some ((List.takeWhile_prefix _).eq_of_length ‹_›).symm
  · rfl

/-- A line is one command, and the parser begins the next one behind it. -/
theorem CleanLine.parsed (hw : CleanLine w) :
    ∃ p e, requestParser.feedUntil (requestParserInit, false) (w ++ lineEnd) = .ok ((p, e), []) ∧ p.state = .done ∧
      (∀ command, command ≠ .unknown → (p.command = command ↔ command.Form w)) ∧
      (∀ a r, ArgClosed mailFromWord w a r ∨ ArgClosed rcptToWord w a [] ∧ r = [] →
        cstring p.request.bytes = some (a.takeWhile (· ≠ 0))) ∧
      ∀ rest, argumentsFit requestParserInit (w ++ lineEnd ++ rest) = argumentsFit requestParserInit rest := by
  obtain ⟨p, e, hp, hcount, hi, hcr, hdone, hrest⟩ := hw.inside (List.prefix_refl w)
  have hline := line_of_noCR hw.noCR
  obtain ⟨hstores, -⟩ := onByte_CR p.state
  obtain ⟨command, hfeed, -⟩ := feed_of_not_stored hstores
  have hnext : p.state.next CR = .cr := by
    rw [hcount.state]
    exact lineRun_closed hline hw.closed
  rw [hnext] at hfeed
  obtain ⟨e₁, hok₁⟩ := requestParser_feed_ok e hfeed
  have hfeed' : requestParserFeed { p with command, state := .cr } LF = .ok { p with command, state := .done } :=
    feed_cr rfl LF
  obtain ⟨e₂, hok₂⟩ := requestParser_feed_ok e₁ hfeed'
  have hend : requestParser.feedAll (p, e) lineEnd = .ok ({ p with command, state := .done }, e₂) := by
    rw [Parser.feedAll_cons, hok₁, ok_bind, Parser.feedAll_cons, hok₂]
    rfl
  obtain ⟨hrequest, hcommand⟩ := feedAll_lineEnd hend rfl ⟨hcr, hdone⟩
  refine ⟨{ p with command, state := .done }, e₂, ?_, rfl, fun command' hu => ?_, fun a r harg => ?_, fun rest => ?_⟩
  · have hall : requestParser.feedAll (requestParserInit, false) (w ++ lineEnd) =
        .ok ({ p with command, state := .done }, e₂) := by
      rw [Parser.feedAll_append, hp]
      exact hend
    have hbefore : ∀ m < (w ++ lineEnd).length, ∃ r,
        requestParser.feedAll (requestParserInit, false) ((w ++ lineEnd).take m) = .ok r ∧ requestParser.done r = false := by
      intro m hm
      have hlen : (w ++ lineEnd).length = w.length + 2 := List.length_append
      by_cases hle : m ≤ w.length
      · obtain ⟨q, e', hq, -, -, -, hnot, -⟩ := hw.inside (List.take_prefix m w)
        rw [List.take_append_of_le_length hle]
        exact ⟨_, hq, requestDone_false_iff.mpr hnot⟩
      · obtain rfl : m = w.length + 1 := by omega
        have htake : (w ++ lineEnd).take (w.length + 1) = w ++ [CR] := List.take_length_add_append 1
        rw [htake, Parser.feedAll_concat, hp]
        exact ⟨_, hok₁, requestDone_false_iff.mpr (by simp)⟩
    have hfirst := Parser.feedUntil_of_first (requestDone_false_iff.mpr (by decide)) le_rfl
      (by rw [List.take_length]; exact hall) (requestDone_iff.mpr rfl) hbefore
    rw [List.drop_length] at hfirst
    exact hfirst
  · show command = command' ↔ _
    have hends : command = p.state.ends := hcommand
    rw [hends, hcount.state]
    exact ends_iff_form hw.noCR hu
  · have hshort : a.length ≤ 31 := by
      rcases harg with ⟨v, hv, ha⟩ | ⟨⟨v, hv, ha⟩, -⟩
      · exact hw.short a (Or.inr (Or.inr ⟨v, ⟨_, hv.symm⟩, Or.inl ha⟩))
      · exact hw.short a (Or.inr (Or.inr ⟨v, ⟨_, hv.symm⟩, Or.inr ha⟩))
    show cstring p.request.bytes = _
    rw [closed_captured hw.noCR harg (by omega) hp, cstring_captured hshort]
  · rw [List.append_assoc, hrest]
    show argumentsFit p (CR :: LF :: rest) = _
    rw [argumentsFit_cons hfeed, if_neg (by simp), argumentsFit_cons hfeed']
    simp [hi]

end Lines

end Smtpd
