import Smtpd.RequestCapture

namespace Smtpd

open Checked CString Incremental

/-- A line that has ended: its command, and what the two arrays hold as strings. -/
structure EndedLine where
  command : RequestCommand
  arg : Option (List UInt8)
  domain : Option (List UInt8)
deriving DecidableEq, Repr

/-- What is seen of the parser: its state, and the line that has ended. -/
def RequestParser.seen (p : RequestParser) : RequestState × Option EndedLine :=
  (p.state, if p.state = .done then some ⟨p.command, cstring p.request.bytes, cstring p.request.domain⟩ else none)

/-- What is seen of a parser after some bytes, or how it faults on them. -/
def seenAfter (p : RequestParser × Bool) (v : List UInt8) : Result (RequestState × Option EndedLine) :=
  (requestParser.feedAll p v).map fun q => q.1.seen

/-- No line of the stream has a byte of an address or of a domain. -/
def CapturesNothing (u : List UInt8) : Prop := ∃ w, Framed 64 u w ⟨zeros 64, 0⟩

/-- None of the bytes read from a state on is stored. -/
def storesNone : RequestState → List UInt8 → Bool
  | _, [] => true
  | st, c :: v => !(st.onByte c).stores && storesNone (st.next c) v

/-- Two parsers that differ at most in the command of a line that has not ended. -/
structure SameButCommand (p q : RequestParser) : Prop where
  request : q.request = p.request
  state : q.state = p.state
  i : q.i = p.i
  command : p.state = .cr ∨ p.state = .done → q.command = p.command

section Agreement

variable {p q : RequestParser}

theorem SameButCommand.seen (h : SameButCommand p q) : q.seen = p.seen := by
  unfold RequestParser.seen
  rw [h.state]
  split_ifs with hdone
  · rw [h.command (Or.inr hdone), h.request]
  · rfl

theorem RequestParser.arg_of_seen {st : RequestState} {line : EndedLine} (h : p.seen = (st, some line)) :
    cstring p.request.bytes = line.arg := by
  unfold RequestParser.seen at h
  split_ifs at h
  · cases h
    rfl
  · cases h

/-- The branches that end a line set the command, or they leave it as it is behind a line. -/
theorem next_ended {st : RequestState} {c : UInt8} (hn : st.next c = .cr ∨ st.next c = .done) :
    ((st = .cr ∨ st = .done) ∧ ∃ next, st.onByte c = .goto next) ∨
      (∃ command, st.onByte c = .finish command) ∨ st.onByte c = .fail := by
  by_cases hst : st = .cr ∨ st = .done
  · refine Or.inl ⟨hst, ?_⟩
    rcases hst with rfl | rfl
    · by_cases hc : c = LF
      · exact ⟨.done, if_pos hc⟩
      · exact ⟨.verb, if_neg hc⟩
    · exact ⟨.done, rfl⟩
  · obtain ⟨hcr, hdone⟩ := not_or.mp hst
    have hnext : st.next c = .cr := hn.resolve_right (next_ne_done hcr hdone c)
    have hc : c = CR := next_eq_cr hnext
    subst hc
    rcases (onByte_CR st).2 hnext with hfinish | ⟨hfail, -⟩
    · exact Or.inr (Or.inl ⟨_, hfinish⟩)
    · exact Or.inr (Or.inr hfail)

/-- One byte keeps two such parsers alike, or both of them fault. -/
theorem SameButCommand.feed (h : SameButCommand p q) (c : UInt8) :
    (∃ p' q', requestParserFeed p c = .ok p' ∧ requestParserFeed q c = .ok q' ∧ SameButCommand p' q') ∨
      ∃ f, requestParserFeed p c = .error f ∧ requestParserFeed q c = .error f := by
  obtain ⟨hrequest, hstate, hi, hcommand⟩ := h
  unfold requestParserFeed
  rw [hstate]
  cases hact : p.state.onByte c with
  | goto next =>
    refine Or.inl ⟨_, _, rfl, rfl, hrequest, rfl, hi, fun hn => ?_⟩
    have hnext : p.state.next c = next := by rw [RequestState.next, hact]; rfl
    rw [← hnext] at hn
    obtain ⟨hended, -⟩ | ⟨command, hother⟩ | hother := next_ended hn
    · exact hcommand hended
    all_goals cases hact.symm.trans hother
  | finish command => exact Or.inl ⟨_, _, rfl, rfl, hrequest, rfl, hi, fun _ => rfl⟩
  | fail => exact Or.inl ⟨_, _, rfl, rfl, hrequest, rfl, hi, fun _ => rfl⟩
  | arg next | domain next | newDomain next =>
    have hnext : p.state.next c = next := by rw [RequestState.next, hact]; rfl
    have hopen : ¬ (next = .cr ∨ next = .done) := by
      rw [← hnext]
      intro hn
      obtain ⟨-, n, hother⟩ | ⟨command, hother⟩ | hother := next_ended hn
      all_goals cases hact.symm.trans hother
    simp only [hrequest, hi]
    cases hs : p.request.store _ c with
    | error f => exact Or.inr ⟨f, rfl, rfl⟩
    | ok request => exact Or.inl ⟨_, _, rfl, rfl, rfl, rfl, rfl, fun hn => absurd hn hopen⟩

theorem seenAfter_cons (p : RequestParser) (e : Bool) (c : UInt8) (v : List UInt8) :
    seenAfter (p, e) (c :: v) =
      requestParserFeed p c >>= fun r => seenAfter (r, (requestIsDone r.state e).2) v := by
  unfold seenAfter
  rw [Parser.feedAll_cons]
  show ((requestParserFeed p c >>= fun r => _) >>= _).map _ = _
  cases requestParserFeed p c <;> rfl

theorem SameButCommand.seenAfter (h : SameButCommand p q) (e d : Bool) (v : List UInt8) :
    seenAfter (q, d) v = seenAfter (p, e) v := by
  induction v generalizing p q e d with
  | nil => exact congrArg Except.ok h.seen
  | cons c v ih =>
    rw [seenAfter_cons, seenAfter_cons]
    obtain ⟨p', q', hp, hq, h'⟩ | ⟨f, hp, hq⟩ := h.feed c
    · rw [hp, hq, ok_bind, ok_bind]
      exact ih h' _ _
    · rw [hp, hq]
      rfl

end Agreement

section Leftovers

variable {u w : List UInt8} {k : Captured} {p q : RequestParser} {e : Bool}

/-- Whatever is captured moves the index, and nothing moves it back to 0. -/
theorem Framed.untouched {n : Nat} (h : Framed n u w k) (hi : k.i = 0) : k = ⟨zeros 64, 0⟩ := by
  induction h with
  | start => rfl
  | byte _ _ hk ih =>
    cases hk with
    | arg | newDomain | domain => cases hi
    | skip => exact ih hi
  | restart _ _ _ ih => exact ih hi

/-- A stream after which the parser waits for a command breaks off inside a line. -/
theorem framed_of_verb (h : requestParser.feedAll (requestParserInit, false) u = .ok (q, e)) (hq : q.state = .verb) :
    ∃ w k, Framed 64 u w k ∧ Tracks w k q := by
  cases cut_cases 64 u with
  | inside hf =>
    obtain ⟨r, e', hr, ht⟩ := framed_run hf
    cases h.symm.trans hr
    exact ⟨_, _, hf, ht⟩
  | afterCR hs hf ho =>
    subst hs
    obtain ⟨r, e', hr, hst, -⟩ := framed_run_afterCR hf ho
    cases h.symm.trans hr
    rw [hq] at hst
    cases hst
  | ended hs hf ho =>
    rename_i v w k r
    obtain ⟨s, e', hr, hst, -⟩ := framed_run_afterCR hf ho
    have hcut : u = (v ++ [CR]) ++ LF :: r := by simp [hs]
    rw [hcut, Parser.feedAll_append, hr, ok_bind, Parser.feedAll_cons] at h
    obtain ⟨e'', hfeed⟩ := requestParser_feed_ok e' (feed_cr hst LF)
    rw [hfeed, ok_bind] at h
    rw [feedAll_done rfl h] at hq
    cases hq
  | overflow hs hf hc hno =>
    rename_i v w k c r
    obtain ⟨s, e', hr, ht⟩ := framed_run hf
    rw [hs, Parser.feedAll_append, hr, ok_bind, Parser.feedAll_cons,
      requestParser_feed_error (feed_overflow ht hno)] at h
    cases h

/-- Bytes of which none is stored leave the request and the index alone. -/
theorem feedAll_unstored {v : List UInt8} {d : Bool} (hv : storesNone p.state v = true)
    (h : requestParser.feedAll (p, d) v = .ok (q, e)) : q.request = p.request ∧ q.i = p.i := by
  induction v generalizing p d with
  | nil =>
    cases h
    exact ⟨rfl, rfl⟩
  | cons c v ih =>
    obtain ⟨hc, hv⟩ := Bool.and_eq_true_iff.mp hv
    obtain ⟨⟨r, d'⟩, hr, h⟩ := bind_ok h
    obtain ⟨r', hfeed, hr⟩ := bind_ok hr
    cases hr
    rw [← feed_state hfeed] at hv
    obtain ⟨hrequest, hi⟩ := ih hv h
    obtain ⟨hrequest', hi'⟩ := feed_keeps (by simpa using hc) hfeed
    exact ⟨hrequest.trans hrequest', hi.trans hi'⟩

/-- The line that asks for the sender `x`. -/
abbrev senderLine (x : UInt8) : List UInt8 := ascii "MAIL FROM:<" ++ x :: ascii ">\r\n"

theorem senderLine_stored (hst : p.state = .verb) {x : UInt8} (hgt : x ≠ GT) (hcr : x ≠ CR) {d : Bool}
    (h : requestParser.feedAll (p, d) (senderLine x) = .ok (q, e)) :
    q.request.bytes = p.request.bytes.set p.i.toNat x := by
  obtain ⟨⟨r, d₁⟩, hr, h⟩ := Parser.feedAll_split h
  obtain ⟨⟨s, d₂⟩, hs, h⟩ := bind_ok h
  obtain ⟨s', hfeed, hs⟩ := bind_ok hs
  cases hs
  have hrst : r.state = .mailFrom := by
    rw [feedAll_state hr, hst]
    rfl
  have hsst : s.state = .mailFrom := by
    rw [feed_state hfeed, hrst, next_mailFrom, if_neg hgt, if_neg hcr]
  obtain ⟨hrr, hri⟩ := feedAll_unstored (by rw [hst]; rfl) hr
  obtain ⟨hqr, -⟩ := feedAll_unstored (by rw [hsst]; rfl) h
  rw [feed_arg (Or.inl hrst) hgt hcr, Request.store] at hfeed
  obtain ⟨request, hstore, hfeed⟩ := bind_ok hfeed
  cases hfeed
  split_ifs at hstore
  cases hstore
  rw [hqr, hrr, hri, Nat.zero_add]

/-- An address that is stored behind the byte of an earlier one is not the one that was sent. -/
theorem sender_spoilt (hst : p.state = .verb) (hi : p.i.toNat ≠ 0) {x : UInt8} (hx : p.request.bytes[0]? ≠ some x)
    (hgt : x ≠ GT) (hcr : x ≠ CR) (command : RequestCommand) (domain : Option (List UInt8)) :
    seenAfter (p, e) (senderLine x) ≠ .ok (.done, some ⟨command, some [x], domain⟩) := by
  intro h
  unfold seenAfter at h
  cases hrun : requestParser.feedAll (p, e) (senderLine x) with
  | error f =>
    rw [hrun] at h
    cases h
  | ok q =>
    obtain ⟨q, d⟩ := q
    rw [hrun] at h
    have harg : cstring q.request.bytes = some [x] := RequestParser.arg_of_seen (Except.ok.inj h)
    obtain ⟨-, rest, hbytes⟩ := cstring_eq_some harg
    have hfirst : q.request.bytes[0]? = p.request.bytes[0]? := by
      rw [senderLine_stored hst hgt hcr hrun]
      exact List.getElem?_set_ne hi
    rw [hbytes] at hfirst
    exact hx hfirst.symm

theorem sender_fresh :
    seenAfter (requestParserInit, false) (senderLine 97) = .ok (.done, some ⟨.mail, some [97], some []⟩) ∧
    seenAfter (requestParserInit, false) (senderLine 98) = .ok (.done, some ⟨.mail, some [98], some []⟩) := by
  decide +kernel

/-- The parser that is back at the start of a line behaves like one just initialised, whatever it is fed,
exactly if no address and no domain has been read on the lines it gave up. -/
theorem abandoned_traceless_iff (h : requestParser.feedAll (requestParserInit, false) u = .ok (q, e))
    (hq : q.state = .verb) :
    (∀ v, seenAfter (requestParserInit, false) (u ++ v) = seenAfter (requestParserInit, false) v) ↔
      CapturesNothing u := by
  have hresume : ∀ v, seenAfter (requestParserInit, false) (u ++ v) = seenAfter (q, e) v := by
    intro v
    unfold seenAfter
    rw [Parser.feedAll_append, h, ok_bind]
  obtain ⟨w, k, hf, ht⟩ := framed_of_verb h hq
  constructor
  · intro hsame
    refine ⟨w, ?_⟩
    have hi : k.i = 0 := by
      by_contra hi
      have hqi : q.i.toNat ≠ 0 := by rwa [ht.index]
      by_cases hx : q.request.bytes[0]? = some 97
      · have hne : q.request.bytes[0]? ≠ some 98 := by simp [hx]
        apply sender_spoilt hq hqi hne (by decide) (by decide) .mail (some []) (e := e)
        rw [← hresume, hsame, sender_fresh.2]
      · apply sender_spoilt hq hqi hx (by decide) (by decide) .mail (some []) (e := e)
        rw [← hresume, hsame, sender_fresh.1]
    rw [← hf.untouched hi]
    exact hf
  · rintro ⟨w', hf'⟩ v
    obtain ⟨r, e', hr, ht'⟩ := framed_run hf'
    cases h.symm.trans hr
    have hlike : SameButCommand requestParserInit q := by
      refine ⟨?_, hq, ?_, fun hn => ?_⟩
      · exact congrArg Request.mk ht'.bytes
      · exact UInt8.toNat_inj.mp ht'.index
      · rcases hn with hn | hn <;> cases hn
    rw [hresume]
    exact hlike.seenAfter false e v

theorem abandoned_traceless_iff_unknown :
    ∃ q e, requestParser.feedAll (requestParserInit, false) (ascii "X\rY") = .ok (q, e) ∧
      ∀ v, seenAfter (requestParserInit, false) (ascii "X\rY" ++ v) = seenAfter (requestParserInit, false) v := by
  have hword : ¬ OpenLine (ascii "X") := by
    rw [openLine_iff (line_of_noCR (by decide))]
    decide
  have hnone : ¬ ArgText [] ∧ ¬ DomainGap [] ∧ ¬ DomainText [] := by
    rw [argText_iff tracks_init.line, domainGap_iff tracks_init.line, domainText_iff tracks_init.line]
    decide
  have hbyte : Framed 64 (ascii "X") (ascii "X") ⟨zeros 64, 0⟩ :=
    Framed.start.byte (Or.inl (by decide))
      (.skip (fun h => absurd h hnone.1) (fun h => absurd h hnone.2.1) (fun h => absurd h hnone.2.2))
  obtain ⟨r, hr, hq⟩ := ok_of_any (x := requestParser.feedAll (requestParserInit, false) (ascii "X\rY"))
    (P := fun r => r.1.state = .verb) (by decide +kernel)
  obtain ⟨q, e⟩ := r
  exact ⟨q, e, hr, (abandoned_traceless_iff hr hq).mpr ⟨[], hbyte.restart hword (by decide)⟩⟩

/-- The address of the line given up is in front of the one that is sent. -/
theorem abandoned_sender_kept :
    lineRun .verb (ascii "MAIL FROM:<abc>\r") = .cr ∧
      (seenAfter (requestParserInit, false) (ascii "MAIL FROM:<abc>\rX")).toOption = some (.verb, none) ∧
      seenAfter (requestParserInit, false) (ascii "MAIL FROM:<abc>\rX" ++ ascii "MAIL FROM:<d>\r\n") =
        .ok (.done, some ⟨.mail, some (ascii "abcd"), some []⟩) ∧
      seenAfter (requestParserInit, false) (ascii "MAIL FROM:<d>\r\n") =
        .ok (.done, some ⟨.mail, some (ascii "d"), some []⟩) := by
  decide +kernel

end Leftovers

end Smtpd
