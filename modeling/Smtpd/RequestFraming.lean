import Smtpd.RequestStream
import Smtpd.DataDetection

namespace Smtpd

open Checked Incremental Occurrence

abbrev lineEnd : List UInt8 := [CR, LF]

theorem requestParser_feed_ok {p q : RequestParser} {c : UInt8} (errored : Bool)
    (h : requestParserFeed p c = .ok q) :
    ∃ errored', requestParser.feed (p, errored) c = .ok (q, errored') := by
  refine ⟨(requestIsDone q.state errored).2, ?_⟩
  show (do let p ← requestParserFeed p c; .ok (p, (requestIsDone p.state errored).2)) = _
  rw [h]
  rfl

theorem requestParser_feed_error {p : RequestParser} {errored : Bool} {c : UInt8} {f : Fault}
    (h : requestParserFeed p c = .error f) : requestParser.feed (p, errored) c = .error f := by
  show (do let p ← requestParserFeed p c; .ok (p, (requestIsDone p.state errored).2)) = _
  rw [h]
  rfl

theorem requestDone_iff {p : RequestParser} {errored : Bool} :
    requestParser.done (p, errored) = true ↔ p.state = .done := by
  simp [requestParser, requestIsDone]

theorem requestDone_false_iff {p : RequestParser} {errored : Bool} :
    requestParser.done (p, errored) = false ↔ p.state ≠ .done := by
  simp [requestParser, requestIsDone]

/-- `request_done` is never left. -/
theorem requestParser_done_stays {p q : RequestParser × Bool} {c : UInt8}
    (h : requestParser.feed p c = .ok q) (hd : requestParser.done p = true) :
    requestParser.done q = true := by
  obtain ⟨p, errored⟩ := p
  have hst := requestDone_iff.mp hd
  have hfeed : requestParserFeed p c = .ok { p with state := .done } := by
    simp [requestParserFeed, hst, RequestState.onByte]
  obtain ⟨errored', hok⟩ := requestParser_feed_ok errored hfeed
  obtain rfl := Except.ok.inj (hok.symm.trans h)
  exact requestDone_iff.mpr rfl

theorem feed_lineEnd {w : List UInt8} {k : Captured} {p : RequestParser} (ht : Tracks w k p)
    (ho : ¬ OpenLine w) :
    ∃ q, requestParserFeed p CR = .ok q ∧ q.state = .cr ∧ q.request = p.request ∧ q.i = p.i := by
  have hskip : (p.state.onByte CR).stores = false := by
    rw [ht.state]
    exact onByte_skip ht.line (fun _ => Or.inr rfl) (fun _ => Or.inr rfl) (fun _ => rfl)
  obtain ⟨command, hfeed, -⟩ := feed_of_not_stored hskip
  refine ⟨_, hfeed, ?_, rfl, rfl⟩
  show p.state.next CR = .cr
  rw [ht.state]
  exact lineRun_closed ht.line ho

theorem feed_cr {q : RequestParser} (hq : q.state = .cr) (c : UInt8) :
    requestParserFeed q c = .ok { q with state := if c = LF then .done else .verb } := by
  simp only [requestParserFeed, hq, RequestState.onByte]
  split_ifs <;> rfl

/-- Up to where a framed stream leaves off the parser never faults, and it tracks the line. -/
theorem framed_run {u w : List UInt8} {k : Captured} (h : Framed 64 u w k) :
    ∃ p errored, requestParser.feedAll (requestParserInit, false) u = .ok (p, errored) ∧ Tracks w k p := by
  induction h with
  | start => exact ⟨requestParserInit, false, rfl, tracks_init⟩
  | byte _ hc hk ih =>
    obtain ⟨p, e, hp, ht⟩ := ih
    obtain ⟨q, hq, htq⟩ := feed_tracks ht hc hk
    obtain ⟨e', hok⟩ := requestParser_feed_ok e hq
    exact ⟨q, e', by rw [Parser.feedAll_concat, hp]; exact hok, htq⟩
  | restart _ ho hc ih =>
    rename_i c _
    obtain ⟨p, e, hp, ht⟩ := ih
    obtain ⟨q, hq, hst, hreq, hi⟩ := feed_lineEnd ht ho
    obtain ⟨e₁, hok₁⟩ := requestParser_feed_ok e hq
    obtain ⟨e₂, hok₂⟩ := requestParser_feed_ok e₁ (feed_cr hst c)
    rw [if_neg hc] at hok₂
    refine ⟨{ q with state := .verb }, e₂, ?_, ?_⟩
    · rw [Parser.feedAll_append, hp]
      simp only [ok_bind, Parser.feedAll_cons, hok₁, hok₂, Parser.feedAll_nil]
    · exact ⟨rfl, tracks_init.line, by rw [← ht.bytes, ← hreq], by rw [← ht.index, ← hi], ht.bound⟩

theorem Tracks.not_done {w : List UInt8} {k : Captured} {p : RequestParser} (ht : Tracks w k p) :
    p.state ≠ .done := by
  rw [ht.state]
  exact (line_not_ended ht.line).2

theorem framed_run_afterCR {v w : List UInt8} {k : Captured} (h : Framed 64 v w k)
    (ho : ¬ OpenLine w) :
    ∃ q errored, requestParser.feedAll (requestParserInit, false) (v ++ [CR]) = .ok (q, errored) ∧
      q.state = .cr ∧ q.request.bytes = k.mem := by
  obtain ⟨p, e, hp, ht⟩ := framed_run h
  obtain ⟨q, hq, hst, hreq, -⟩ := feed_lineEnd ht ho
  obtain ⟨e', hok⟩ := requestParser_feed_ok e hq
  exact ⟨q, e', by rw [Parser.feedAll_concat, hp]; exact hok, hst, by rw [hreq, ht.bytes]⟩

theorem requestReport_inside {s w : List UInt8} {k : Captured} (h : Framed 64 s w k) :
    requestParser.reportAt (requestParserInit, false) s = .ok none := by
  obtain ⟨p, e, hp, ht⟩ := framed_run h
  exact Parser.reportAt_none_of requestParser_done_stays hp (requestDone_false_iff.mpr ht.not_done)

theorem requestReport_afterCR {v w : List UInt8} {k : Captured} (h : Framed 64 v w k)
    (ho : ¬ OpenLine w) :
    requestParser.reportAt (requestParserInit, false) (v ++ [CR]) = .ok none := by
  obtain ⟨q, e, hq, hst, -⟩ := framed_run_afterCR h ho
  exact Parser.reportAt_none_of requestParser_done_stays hq (requestDone_false_iff.mpr (by simp [hst]))

/-- A line that is not open ends with its CR LF. -/
theorem requestReport_ended {v w r : List UInt8} {k : Captured} (h : Framed 64 v w k)
    (ho : ¬ OpenLine w) :
    requestParser.reportAt (requestParserInit, false) (v ++ CR :: LF :: r) = .ok (some (v.length + 2)) := by
  obtain ⟨q, e, hq, hst, -⟩ := framed_run_afterCR h ho
  obtain ⟨e', hok⟩ := requestParser_feed_ok e (feed_cr hst LF)
  have hreport : requestParser.reportAt (requestParserInit, false) ((v ++ [CR]) ++ LF :: r) =
      .ok (some ((v ++ [CR]).length + 1)) :=
    Parser.reportAt_some_of requestParser_done_stays hq (requestDone_false_iff.mpr (by simp [hst])) hok
      (requestDone_iff.mpr rfl)
  simpa using hreport

theorem requestReport_overflow {v w r : List UInt8} {k : Captured} {c : UInt8} (h : Framed 64 v w k)
    (hno : ∀ k', ¬ Capture 64 w c k k') :
    requestParser.reportAt (requestParserInit, false) (v ++ c :: r) = .error .undefined := by
  obtain ⟨p, e, hp, ht⟩ := framed_run h
  exact Parser.reportAt_error_of requestParser_done_stays hp
    (requestDone_false_iff.mpr ht.not_done) (requestParser_feed_error (feed_overflow ht hno))

/-- The first CR LF of the stream comes on a line that is not open, and up to there, or to
the end of a stream without one, the captures fit into the request. -/
def EndsOnLine (s : List UInt8) : Prop :=
  (∀ front rest, s = front ++ CR :: LF :: rest → firstEnd lineEnd s = some (front.length + 2) →
    ∃ w k, Framed 64 front w k ∧ ¬ OpenLine w) ∧
  (firstEnd lineEnd s = none →
    (∃ w k, Framed 64 s w k) ∨ ∃ v w k, s = v ++ [CR] ∧ Framed 64 v w k ∧ ¬ OpenLine w)

theorem requestReport_iff (s : List UInt8) :
    requestParser.reportAt (requestParserInit, false) s = .ok (firstEnd lineEnd s) ↔ EndsOnLine s := by
  constructor
  · intro h
    cases cut_cases 64 s with
    | inside hf =>
      have hnone := Except.ok.inj (h.symm.trans (requestReport_inside hf))
      exact ⟨fun _ _ _ he => by simp [hnone] at he, fun _ => Or.inl ⟨_, _, hf⟩⟩
    | afterCR hs hf ho =>
      rw [hs] at h
      have hnone := Except.ok.inj (h.symm.trans (requestReport_afterCR hf ho))
      rw [← hs] at hnone
      exact ⟨fun _ _ _ he => by simp [hnone] at he, fun _ => Or.inr ⟨_, _, _, hs, hf, ho⟩⟩
    | ended hs hf ho =>
      rename_i v w k r
      rw [hs] at h
      have hsome := Except.ok.inj (h.symm.trans (requestReport_ended hf ho))
      rw [← hs] at hsome
      refine ⟨fun front rest hfront he => ?_, fun he => by simp [hsome] at he⟩
      have hlen : front.length = v.length := by
        have := Option.some.inj (he.symm.trans hsome)
        omega
      have hv := List.append_inj_left (hfront.symm.trans hs) hlen
      exact hv ▸ ⟨w, k, hf, ho⟩
    | overflow hs hf _ hno =>
      rw [hs, requestReport_overflow hf hno] at h
      cases h
  · rintro ⟨hsome, hnone⟩
    cases he : firstEnd lineEnd s with
    | none =>
      rcases hnone he with ⟨w, k, hf⟩ | ⟨v, w, k, hs, hf, ho⟩
      · exact requestReport_inside hf
      · rw [hs]
        exact requestReport_afterCR hf ho
    | some n =>
      obtain ⟨front, rest, hs, hn⟩ := firstEnd_split he
      have hs' : s = front ++ CR :: LF :: rest := by simpa using hs
      obtain ⟨w, k, hf, ho⟩ := hsome front rest hs' (by rw [he, hn]; rfl)
      rw [hn, hs']
      exact requestReport_ended hf ho

/-- `request_consume`, called on the pieces of a stream, reports the end of the request on the
LF of the first CR LF, and only there, exactly if that CR ends a line of the parser's. -/
theorem requestCalls_exact_iff (bs : List Buffer) (hv : ∀ b ∈ bs, b.Valid) :
    consumeCalls requestParser bs (requestParserInit, false) =
        .ok (firstEnd lineEnd (bs.flatMap Buffer.pending)) ↔
      EndsOnLine (bs.flatMap Buffer.pending) := by
  rw [consumeCalls_eq (by rfl) hv]
  exact requestReport_iff _

theorem requestCalls_exact_quit :
    consumeCalls requestParser [fixbuf (ascii "QU"), fixbuf (ascii "IT\r\n")] (requestParserInit, false) =
        .ok (firstEnd lineEnd (ascii "QUIT\r\n")) ↔ EndsOnLine (ascii "QUIT\r\n") :=
  requestCalls_exact_iff [fixbuf (ascii "QU"), fixbuf (ascii "IT\r\n")]
    (by intro b hb; simp only [List.mem_cons, List.not_mem_nil, or_false] at hb
        rcases hb with rfl | rfl <;> exact fixbuf_valid _)

/-- A sender without its `>` swallows the end of its line, and the command on the next line
is lost with it. -/
theorem requestCalls_swallow_line :
    consumeCalls requestParser [fixbuf (ascii "MAIL FROM:<a\r\nQUIT\r\n")] (requestParserInit, false) =
        .ok (some 20) ∧
      firstEnd lineEnd (ascii "MAIL FROM:<a\r\nQUIT\r\n") = some 14 := by
  decide +kernel

end Smtpd
