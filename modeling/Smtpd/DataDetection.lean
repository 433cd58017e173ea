import Smtpd.DataUnits
import Smtpd.Lib.Occurrence
import Mathlib.Data.Nat.Find

namespace Smtpd

open Checked Incremental Occurrence

/-- Feeding never fails, the control part of the parser runs on its own, and what it writes
gets into the buffer as far as there is room. -/
theorem dataFeedAll_ok {p : DataParser} (hv : p.dataBuffer.Valid) (u : List UInt8) :
    ∃ q, dataParser.feedAll p u = .ok q ∧ q.state = dataRun p.state u ∧ q.dataBuffer.Valid ∧
      p.dataBuffer.SameArray q.dataBuffer ∧ q.dataBuffer.read = p.dataBuffer.read ∧
      q.dataBuffer.pending =
        p.dataBuffer.pending ++ (dataWritten p.state u).take p.dataBuffer.room := by
  induction u generalizing p with
  | nil => exact ⟨p, rfl, rfl, hv, .refl _, rfl, by simp [dataWritten]⟩
  | cons c u ih =>
    obtain ⟨b, hb, hvb, hpend, hsame, hread, hroom⟩ := bufferWrites_spec hv (p.state.step c).2
    have hfeed : dataParser.feed p c = .ok { dataBuffer := b, state := (p.state.step c).1 } := by
      change dataParserFeed p c = _
      simp [dataParserFeed_eq, DataParser.emit, hb]
    obtain ⟨q, hq, hst, hvq, hsameq, hreadq, hpendq⟩ :=
      ih (p := { dataBuffer := b, state := (p.state.step c).1 }) hvb
    refine ⟨q, by rw [Parser.feedAll_cons, hfeed]; exact hq, hst, hvq, hsame.trans hsameq,
      hreadq.trans hread, ?_⟩
    rw [hpendq, hpend, hroom, dataWritten, List.take_append, List.append_assoc]

theorem dataFeedAll_done_iff {p : DataParser} (hv : p.dataBuffer.Valid) (u : List UInt8) (d : Bool) :
    (∃ q, dataParser.feedAll p u = .ok q ∧ dataParser.done q = d) ↔
      dataIsDone (dataRun p.state u) = d := by
  obtain ⟨q, hq, hst, -, -, -, -⟩ := dataFeedAll_ok hv u
  constructor
  · rintro ⟨r, hr, hd⟩
    obtain rfl : q = r := Except.ok.inj (hq.symm.trans hr)
    rw [← hst]
    exact hd
  · intro h
    exact ⟨q, hq, by rw [← h, ← hst]; rfl⟩

theorem dataIsDone_eq_true {st : DataState} : dataIsDone st = true ↔ st = .done := by
  simp [dataIsDone]

theorem dataIsDone_eq_false {st : DataState} : dataIsDone st = false ↔ st ≠ .done := by
  simp [dataIsDone]

theorem dataReport_some_iff {p : DataParser} (hv : p.dataBuffer.Valid) (hp : p.state = .data)
    {s : List UInt8} {n : Nat} :
    dataParser.reportAt p s = .ok (some n) ↔
      n ≤ s.length ∧ dataRun .data (s.take n) = .done ∧ ∀ m < n, dataRun .data (s.take m) ≠ .done := by
  have hd : dataParser.done p = false := dataIsDone_eq_false.mpr (by simp [hp])
  rw [Parser.reportAt_some_iff hd, dataFeedAll_done_iff hv, dataIsDone_eq_true, hp]
  refine and_congr_right fun _ => and_congr_right fun _ => forall_congr' fun m => forall_congr' fun _ => ?_
  rw [dataFeedAll_done_iff hv, dataIsDone_eq_false, hp]

theorem dataReport_none_iff {p : DataParser} (hv : p.dataBuffer.Valid) (hp : p.state = .data)
    {s : List UInt8} :
    dataParser.reportAt p s = .ok none ↔ ∀ m ≤ s.length, dataRun .data (s.take m) ≠ .done := by
  have hd : dataParser.done p = false := dataIsDone_eq_false.mpr (by simp [hp])
  rw [Parser.reportAt_none_iff hd]
  refine forall_congr' fun m => forall_congr' fun _ => ?_
  rw [dataFeedAll_done_iff hv, dataIsDone_eq_false, hp]

/-- A delimiter in front of which the body is cut into units is found where it ends. -/
theorem dataRun_delimiter {f : List UInt8} (hf : DataUnits f) :
    dataRun .data (f ++ delimiter) = .done ∧
      ∀ m < f.length + 5, dataRun .data ((f ++ delimiter).take m) ≠ .done := by
  have hdata := dataRun_of_units hf
  have hend : ∀ k, dataRun .data ((f ++ delimiter).take (f.length + k)) =
      dataRun .data (delimiter.take k) := by
    intro k
    rw [List.take_length_add_append, dataRun_append, hdata]
  refine ⟨by rw [dataRun_append, hdata]; rfl, ?_⟩
  intro m hm hd
  by_cases hle : m ≤ f.length
  · have hcut : (f ++ delimiter).take m ++ f.drop m = f := by
      rw [List.take_append_of_le_length hle, List.take_append_drop]
    have := congrArg (dataRun .data) hcut
    rw [dataRun_append, hd, dataRun_done, hdata] at this
    cases this
  · obtain ⟨k, rfl⟩ := Nat.exists_eq_add_of_lt (Nat.lt_of_not_le hle)
    rw [Nat.add_assoc, hend] at hd
    have hk : k < 4 := by omega
    rcases (show k = 0 ∨ k = 1 ∨ k = 2 ∨ k = 3 by omega) with rfl | rfl | rfl | rfl <;> cases hd

/-- Where the parser reports the end of the message the delimiter has just been read. -/
theorem dataRun_done_split {s : List UInt8} {n : Nat} (hn : n ≤ s.length)
    (hd : dataRun .data (s.take n) = .done) (before : ∀ m < n, dataRun .data (s.take m) ≠ .done) :
    ∃ f, DataUnits f ∧ s.take n = f ++ delimiter := by
  cases n with
  | zero => cases hd
  | succ n =>
    have hcut : s.take (n + 1) = s.take n ++ [s[n]] := by
      rw [List.take_succ_eq_append_getElem]
    rw [hcut] at hd ⊢
    exact dataRun_done_units (before n (by omega)) hd

/-- The first delimiter of the stream, if there is one, comes after complete units. -/
def EndsOnUnits (s : List UInt8) : Prop :=
  ∀ front rest, s = front ++ delimiter ++ rest →
    firstEnd delimiter s = some (front.length + delimiter.length) → DataUnits front

theorem dataReport_iff {p : DataParser} (hv : p.dataBuffer.Valid) (hp : p.state = .data)
    (s : List UInt8) :
    dataParser.reportAt p s = .ok (firstEnd delimiter s) ↔ EndsOnUnits s := by
  have hsuffix : ∀ n, n ≤ s.length → dataRun .data (s.take n) = .done →
      (∀ m < n, dataRun .data (s.take m) ≠ .done) → delimiter <:+ s.take n := by
    intro n hn hd before
    obtain ⟨f, -, hf⟩ := dataRun_done_split hn hd before
    exact ⟨f, hf.symm⟩
  cases he : firstEnd delimiter s with
  | none =>
    have hnone := firstEnd_eq_none_iff.mp he
    rw [dataReport_none_iff hv hp]
    refine iff_of_true ?_ (fun front rest _ h => by rw [he] at h; cases h)
    intro m hm hd
    have hex : ∃ n, n ≤ s.length ∧ dataRun .data (s.take n) = .done := ⟨m, hm, hd⟩
    have hfind := Nat.find_spec hex
    refine hnone _ hfind.1 (hsuffix _ hfind.1 hfind.2 ?_)
    intro k hk hdk
    exact Nat.find_min hex hk ⟨by omega, hdk⟩
  | some n =>
    obtain ⟨hn, -, hfirst⟩ := firstEnd_eq_some_iff.mp he
    rw [dataReport_some_iff hv hp]
    constructor
    · rintro ⟨-, hd, before⟩ front rest hs hlen
      obtain ⟨f, hf, hcut⟩ := dataRun_done_split hn hd before
      have hnl : n = front.length + delimiter.length := Option.some.inj (he.symm.trans hlen)
      have hfront : s.take n = front ++ delimiter := by
        rw [hs, hnl, ← List.length_append, List.take_left]
      have : f = front := List.append_cancel_right (hcut.symm.trans hfront)
      exact this ▸ hf
    · intro hunits
      obtain ⟨front, rest, hs, hnl⟩ := firstEnd_split he
      have hf := hunits front rest hs (by rw [he, hnl])
      obtain ⟨hd, before⟩ := dataRun_delimiter hf
      have hfront : s.take n = front ++ delimiter := by
        rw [hs, hnl, ← List.length_append, List.take_left]
      refine ⟨hn, by rw [hfront]; exact hd, ?_⟩
      intro m hm
      have hlt : m < front.length + 5 := by simpa [hnl] using hm
      have hm' : s.take m = (front ++ delimiter).take m := by
        rw [← hfront, List.take_take, Nat.min_eq_left (by omega)]
      rw [hm']
      exact before m hlt

/-- A buffer over an array that is filled with the given bytes. -/
def fixbuf (bytes : List UInt8) : Buffer :=
  { raw := bytes, data := 0, limit := bytes.length, read := 0, write := bytes.length }

theorem fixbuf_valid (bytes : List UInt8) : (fixbuf bytes).Valid :=
  ⟨le_rfl, Nat.zero_le _, le_rfl, le_rfl, fun _ => rfl⟩

/-- `data_consume`, called on the pieces of a stream, reports the end of the message on the
last byte of the first delimiter, and only there, exactly if complete units precede it. -/
theorem dataCalls_exact_iff (p : DataParser) (bs : List Buffer)
    (hraw : 2048 ≤ p.dataBuffer.raw.length) (hv : ∀ b ∈ bs, b.Valid) :
    consumeCalls dataParser bs (dataParserInit p) =
        .ok (firstEnd delimiter (bs.flatMap Buffer.pending)) ↔
      EndsOnUnits (bs.flatMap Buffer.pending) := by
  have hinit : (dataParserInit p).dataBuffer.Valid := (bufferInit_valid hraw).1
  rw [consumeCalls_eq (by rfl) hv]
  exact dataReport_iff hinit rfl _

/-- A parser as it is in memory that was cleared. -/
def blankDataParser : DataParser :=
  { dataBuffer := bufferInit 2048 (List.replicate 2048 0), state := .data }

theorem dataCalls_exact_lone_dot :
    consumeCalls dataParser [fixbuf (ascii "hi\r\n"), fixbuf (ascii ".\r\n")] (dataParserInit blankDataParser) =
        .ok (firstEnd delimiter (ascii "hi\r\n.\r\n")) ↔ EndsOnUnits (ascii "hi\r\n.\r\n") :=
  dataCalls_exact_iff blankDataParser [fixbuf (ascii "hi\r\n"), fixbuf (ascii ".\r\n")]
    List.length_replicate.ge
    (by intro b hb; simp only [List.mem_cons, List.not_mem_nil, or_false] at hb
        rcases hb with rfl | rfl <;> exact fixbuf_valid _)

/-- After a line break the CR of the delimiter only breaks the pending match off, so a
message that ends with an empty line is never seen to end. -/
theorem dataCalls_misses_blank_line :
    consumeCalls dataParser [fixbuf (ascii "hi\r\n\r\n.\r\n")] (dataParserInit blankDataParser) = .ok none ∧
      firstEnd delimiter (ascii "hi\r\n\r\n.\r\n") = some 9 := by
  decide +kernel

end Smtpd
