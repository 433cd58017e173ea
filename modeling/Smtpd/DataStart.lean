import Smtpd.DataDetection

namespace Smtpd

open Checked Incremental

/-- Where the control part of the parser reports the end of the message. -/
def DataState.report (st : DataState) : List UInt8 → Option Nat
  | [] => none
  | c :: w => if (st.step c).1 = .done then some 1 else ((st.step c).1.report w).map (· + 1)

/-- A dot on a line of its own comes first, or after lines of nothing but CRs. `cr` says that a CR
was read last. -/
def dotFirst (cr : Bool) : List UInt8 → Bool
  | [] => false
  | c :: w =>
    if c = CR then dotFirst true w
    else if cr then decide (c = LF) && dotFirst false w
    else decide (c = DOT) && [CR, LF].isPrefixOf w

section Starts

variable {p q : DataParser} {st : DataState}

theorem reportAt_control (hv : p.dataBuffer.Valid) (hopen : p.state ≠ .done) (w : List UInt8) :
    dataParser.reportAt p w = .ok (p.state.report w) := by
  have hd : dataParser.done p = false := dataIsDone_eq_false.mpr hopen
  induction w generalizing p with
  | nil => simp [Parser.reportAt, Parser.feedUntil, hd, DataState.report]
  | cons c w ih =>
    obtain ⟨q, hq, hst, hvq, -⟩ := dataFeedAll_ok hv [c]
    have hstep : q.state = (p.state.step c).1 := hst
    obtain ⟨r, hfeed, hr⟩ := bind_ok hq
    cases hr
    have hsplit : dataParser.feedUntil p [c] = .ok (q, []) := by
      simp [Parser.feedUntil, hfeed]
    have happ := Parser.reportAt_append hd [c] w
    rw [List.singleton_append, hsplit, ok_bind] at happ
    rw [happ, DataState.report, ← hstep]
    by_cases hdone : q.state = .done
    · have hyes : dataParser.done q = true := dataIsDone_eq_true.mpr hdone
      simp [hyes, hdone]
    · have hno : dataParser.done q = false := dataIsDone_eq_false.mpr hdone
      have hcount : (fun n => [c].length + n) = fun n => n + 1 := by
        funext n
        exact Nat.add_comm 1 n
      rw [if_neg (by simp [hno]), if_neg hdone, ih hvq hdone hno, ok_bind, hcount]

theorem step_data_of_ne {c : UInt8} (h : c ≠ CR) : (DataState.data.step c).1 = .data := by
  simp [DataState.step, h]

theorem map_succ_inj {m n : Option Nat} : m.map (· + 1) = n.map (· + 1) ↔ m = n := by
  refine ⟨fun h => ?_, fun h => by rw [h]⟩
  exact Option.map_injective (fun a b hab => Nat.succ.inj hab) h

theorem report_cons (st : DataState) (c : UInt8) (w : List UInt8) :
    st.report (c :: w) = if (st.step c).1 = .done then some 1 else ((st.step c).1.report w).map (· + 1) := rfl

theorem report_cons_open {st st' : DataState} {c : UInt8} (h : (st.step c).1 = st') (hopen : st' ≠ .done) (w : List UInt8) :
    st.report (c :: w) = (st'.report w).map (· + 1) := by
  subst h
  exact if_neg hopen

/-- No report comes before the first byte. -/
theorem report_ne_zero (st : DataState) (w : List UInt8) : st.report w ≠ some 0 := by
  cases w with
  | nil => exact fun h => by cases h
  | cons c w =>
    rw [report_cons]
    split_ifs
    · exact fun h => by cases h
    · intro h
      obtain ⟨n, -, hn⟩ := Option.map_eq_some_iff.mp h
      omega

/-- Behind a dot the two starts differ only if the dot ends its line. -/
theorem report_dot (w : List UInt8) :
    DataState.crlfdot.report w = DataState.data.report w ↔ [CR, LF].isPrefixOf w = false := by
  cases w with
  | nil => exact iff_of_true rfl rfl
  | cons c w =>
    by_cases hc : c = CR
    · subst hc
      have hone : DataState.crlfdot.report (CR :: w) = (DataState.crlfdotcr.report w).map (· + 1) :=
        report_cons_open rfl (by decide) w
      have hother : DataState.data.report (CR :: w) = (DataState.cr.report w).map (· + 1) :=
        report_cons_open rfl (by decide) w
      rw [hone, hother, map_succ_inj]
      cases w with
      | nil => exact iff_of_true rfl rfl
      | cons d w =>
        by_cases hd : d = LF
        · subst hd
          have hdone : DataState.crlfdotcr.report (LF :: w) = some 1 := rfl
          have hopen : DataState.cr.report (LF :: w) = (DataState.crlf.report w).map (· + 1) :=
            report_cons_open rfl (by decide) w
          rw [hdone, hopen]
          refine iff_of_false ?_ (by simp)
          intro h
          obtain ⟨n, hn, hzero⟩ := Option.map_eq_some_iff.mp h.symm
          have hz : n = 0 := by omega
          exact report_ne_zero .crlf w (hz ▸ hn)
        · have hstep : (DataState.crlfdotcr.step d).1 = .data := by simp [DataState.step, hd]
          have hstep' : (DataState.cr.step d).1 = .data := by simp [DataState.step, hd]
          rw [report_cons_open hstep (by decide), report_cons_open hstep' (by decide)]
          refine iff_of_true rfl ?_
          simp [List.isPrefixOf, Ne.symm hd]
    · have hstep : (DataState.crlfdot.step c).1 = .data := by simp [DataState.step, hc]
      rw [report_cons_open hstep (by decide), report_cons_open (step_data_of_ne hc) (by decide)]
      refine iff_of_true rfl ?_
      simp [List.isPrefixOf, Ne.symm hc]

/-- Two starts, after a CR or not: one takes what was read for the beginning of the delimiter, the other
for the body. Each further CR changes their parts. -/
theorem report_start (w : List UInt8) :
    (DataState.cr.report w = DataState.data.report w ↔ dotFirst true w = false) ∧
      (DataState.crlf.report w = DataState.data.report w ↔ dotFirst false w = false) := by
  induction w with
  | nil => exact ⟨iff_of_true rfl rfl, iff_of_true rfl rfl⟩
  | cons c w ih =>
    obtain ⟨hcr, hcrlf⟩ := ih
    by_cases hc : c = CR
    · subst hc
      have hdata : DataState.data.report (CR :: w) = (DataState.cr.report w).map (· + 1) :=
        report_cons_open rfl (by decide) w
      have hbroken : DataState.cr.report (CR :: w) = (DataState.data.report w).map (· + 1) :=
        report_cons_open rfl (by decide) w
      have hbroken' : DataState.crlf.report (CR :: w) = (DataState.data.report w).map (· + 1) :=
        report_cons_open rfl (by decide) w
      have hrest : ∀ cr, dotFirst cr (CR :: w) = dotFirst true w := fun cr => if_pos rfl
      rw [hdata, hbroken, hbroken', map_succ_inj, hrest, hrest, eq_comm, hcr]
      exact ⟨Iff.rfl, Iff.rfl⟩
    · have hdata := report_cons_open (step_data_of_ne hc) (by decide) w
      have hafter : dotFirst true (c :: w) = (decide (c = LF) && dotFirst false w) := if_neg hc
      have hstart : dotFirst false (c :: w) = (decide (c = DOT) && [CR, LF].isPrefixOf w) := if_neg hc
      rw [hdata, hafter, hstart]
      constructor
      · by_cases hlf : c = LF
        · subst hlf
          have hopen : DataState.cr.report (LF :: w) = (DataState.crlf.report w).map (· + 1) :=
            report_cons_open rfl (by decide) w
          rw [hopen, map_succ_inj, hcrlf]
          simp
        · have hstep : (DataState.cr.step c).1 = .data := by simp [DataState.step, hlf]
          rw [report_cons_open hstep (by decide)]
          simp [hlf]
      · by_cases hdot : c = DOT
        · subst hdot
          have hopen : DataState.crlf.report (DOT :: w) = (DataState.crlfdot.report w).map (· + 1) :=
            report_cons_open rfl (by decide) w
          rw [hopen, map_succ_inj, report_dot]
          simp
        · have hstep : (DataState.crlf.step c).1 = .data := by simp [DataState.step, hdot]
          rw [report_cons_open hstep (by decide)]
          simp [hdot]

theorem dotFirst_of_dot {w : List UInt8} (h : [DOT, CR, LF] <+: w) : dotFirst false w = true := by
  obtain ⟨rest, rfl⟩ := h
  rfl

/-- A parser just initialised reports the end of the message where one that has read a line break does,
exactly for the streams in which no dot stands on a line of its own before anything but blank lines. -/
theorem data_start_iff (hraw : 2048 ≤ p.dataBuffer.raw.length) (hv : q.dataBuffer.Valid) (hq : q.state = .crlf)
    (w : List UInt8) :
    (dataParser.reportAt (dataParserInit p) w = dataParser.reportAt q w ∧
      ([DOT, CR, LF] <+: w → dataParser.reportAt (dataParserInit p) w = .ok (some 3))) ↔
    dotFirst false w = false := by
  have hinit : (dataParserInit p).dataBuffer.Valid := (bufferInit_valid hraw).1
  have hreport : dataParser.reportAt (dataParserInit p) w = .ok (DataState.data.report w) :=
    reportAt_control hinit (by simp [dataParserInit]) w
  have hreport' : dataParser.reportAt q w = .ok (DataState.crlf.report w) := by
    rw [← hq]
    exact reportAt_control hv (by simp [hq]) w
  rw [hreport, hreport', ← (report_start w).2]
  constructor
  · rintro ⟨hsame, -⟩
    exact (Except.ok.inj hsame).symm
  · intro hsame
    refine ⟨by rw [hsame], fun hdot => ?_⟩
    have hnot := (report_start w).2.mp hsame
    rw [dotFirst_of_dot hdot] at hnot
    cases hnot

theorem data_start_iff_hello :
    dataParser.reportAt (dataParserInit blankDataParser) (ascii "hello\r\n.\r\n") =
      dataParser.reportAt { blankDataParser with state := .crlf } (ascii "hello\r\n.\r\n") := by
  have hblank : blankDataParser.dataBuffer.Valid := (bufferInit_valid List.length_replicate.ge).1
  have hiff := data_start_iff (p := blankDataParser) (q := { blankDataParser with state := .crlf })
    List.length_replicate.ge hblank rfl (ascii "hello\r\n.\r\n")
  exact (hiff.mpr (by decide)).1

/-- An empty message, which never ends. -/
theorem data_start_lone_dot :
    dataParser.reportAt (dataParserInit blankDataParser) (ascii ".\r\n") = .ok none ∧
      dataParser.reportAt { blankDataParser with state := .crlf } (ascii ".\r\n") = .ok (some 3) := by
  decide +kernel

end Starts

end Smtpd
