import Smtpd.RequestCapture

namespace Smtpd

open Checked CString Incremental

/-- What a call of `request_consume` tells its caller: everything but the captures. -/
structure Outline where
  state : RequestState
  command : RequestCommand
  errored : Bool
deriving DecidableEq, Repr

def RequestAction.command (before : RequestCommand) : RequestAction → RequestCommand
  | .finish command => command
  | .fail => .unknown
  | .goto _ | .arg _ | .domain _ | .newDomain _ => before

def Outline.next (t : Outline) (c : UInt8) : Outline :=
  { state := t.state.next c
    command := (t.state.onByte c).command t.command
    errored := t.errored || t.state.next c = .error }

def Outline.run (t : Outline) (u : List UInt8) : Outline := u.foldl Outline.next t

/-- The outline of a parser and of the flag that it is fed with. -/
def outline (p : RequestParser × Bool) : Outline := { state := p.1.state, command := p.1.command, errored := p.2 }

/-- A parser that has been initialised, and a flag that is not raised. -/
def freshOutline : Outline := outline (requestParserInit, false)

/-- The lines of a stream as the parser cuts it: those that a CR has cut off without its LF, and what has been read of
the line behind them. -/
inductive Lines : List UInt8 → List (List UInt8) → List UInt8 → Prop
  | start : Lines [] [] []
  | byte {u ls w c} : Lines u ls w → (c ≠ CR ∨ OpenLine w) → Lines (u ++ [c]) ls (w ++ [c])
  | restart {u ls w c} : Lines u ls w → ¬ OpenLine w → c ≠ LF → Lines (u ++ [CR, c]) (w :: ls) []

/-- The request of a stream ends on the line `w`, and the lines `ls` have been cut off before it. -/
def Ends (s : List UInt8) (ls : List (List UInt8)) (w : List UInt8) : Prop :=
  ∃ v r, s = v ++ CR :: LF :: r ∧ Lines v ls w ∧ ¬ OpenLine w

/-- A whole line of some command. -/
def CommandLine (w : List UInt8) : Prop := CR ∉ w ∧ ∃ command : RequestCommand, command.Form w

/-- What can still become one. -/
def CommandStart (w : List UInt8) : Prop := ∃ r, CommandLine (w ++ r)

/-- The line on which the request ends is a command exactly if it and all lines that were cut off before it could have
become commands. -/
def FlagFits (s : List UInt8) : Prop :=
  ∃ ls w, Ends s ls w ∧ (CommandLine w ↔ ∀ l ∈ w :: ls, CommandStart l)

section Outlines

variable {p q : RequestParser × Bool} {t : Outline} {u : List UInt8} {c : UInt8}

theorem Outline.run_append (t : Outline) (u v : List UInt8) : t.run (u ++ v) = (t.run u).run v := List.foldl_append

theorem outline_feed (h : requestParser.feed p c = .ok q) : outline q = (outline p).next c := by
  obtain ⟨p, errored⟩ := p
  obtain ⟨r, hfeed, h⟩ := bind_ok h
  cases h
  have hstate := feed_state hfeed
  have hcommand : r.command = (p.state.onByte c).command p.command := by
    unfold requestParserFeed at hfeed
    cases hact : p.state.onByte c <;> rw [hact] at hfeed
    case goto | finish | fail =>
      cases hfeed
      rfl
    case arg | domain | newDomain =>
      obtain ⟨request, -, hfeed⟩ := bind_ok hfeed
      cases hfeed
      rfl
  show Outline.mk r.state r.command (errored || r.state = .error) = _
  rw [hstate, hcommand]
  rfl

/-- The captures have no part in what the parser tells. -/
theorem outline_feedAll (h : requestParser.feedAll p u = .ok q) : outline q = (outline p).run u := by
  induction u generalizing p with
  | nil =>
    cases h
    rfl
  | cons c u ih =>
    obtain ⟨r, hr, h⟩ := bind_ok h
    rw [ih h, outline_feed hr]
    rfl

theorem outline_done (h : t.state = .done) (u : List UInt8) : t.run u = t := by
  induction u with
  | nil => rfl
  | cons c u ih =>
    have hnext : t.next c = t := by
      obtain ⟨state, command, errored⟩ := t
      cases h
      simp [Outline.next, RequestState.next, RequestState.onByte, RequestAction.next, RequestAction.command]
    show (t.next c).run u = t
    rw [hnext]
    exact ih

/-- The CR that ends a line tells its command, and leaves the flag as it is. -/
theorem outline_CR (h : t.state.next CR = .cr) :
    t.next CR = { state := .cr, command := t.state.ends, errored := t.errored } := by
  have hcommand : (t.state.onByte CR).command t.command = t.state.ends := by
    obtain hfinish | ⟨hfail, hunknown⟩ := (onByte_CR t.state).2 h
    · rw [hfinish]
      rfl
    · rw [hfail, hunknown]
      rfl
  rw [Outline.next, h, hcommand]
  simp

theorem outline_lineEnd (h : t.state.next CR = .cr) :
    t.run lineEnd = { state := .done, command := t.state.ends, errored := t.errored } := by
  show (t.next CR).next LF = _
  rw [outline_CR h]
  simp [Outline.next, RequestState.next, RequestState.onByte, RequestAction.next, RequestAction.command]

theorem outline_restart (h : t.state.next CR = .cr) (hc : c ≠ LF) :
    t.run [CR, c] = { state := .verb, command := t.state.ends, errored := t.errored } := by
  show (t.next CR).next c = _
  rw [outline_CR h]
  simp [Outline.next, RequestState.next, RequestState.onByte, RequestAction.next, RequestAction.command, hc]

end Outlines

section Cut

variable {s u v w r l : List UInt8} {ls : List (List UInt8)}

/-- A line that is not a beginning of a command any more stays so until a CR ends it. -/
theorem lineRun_concat_error (he : lineRun .verb w = .error) {c : UInt8} (hc : c ≠ CR ∨ OpenLine w) :
    lineRun .verb (w ++ [c]) = .error := by
  have hopen : ¬ OpenLine w := by
    rw [openLine_iff (Or.inl he), he]
    simp
  rw [lineRun_concat, he, next_error, if_neg (hc.resolve_right hopen)]

/-- A CR stays inside a line only if the line fails with it. -/
theorem Lines.noCR (h : Lines u ls w) : ∀ l ∈ w :: ls, lineRun .verb l = .error ∨ CR ∉ l := by
  induction h with
  | start => simp
  | byte _ hc ih =>
    rename_i u ls w c _
    intro l hl
    obtain rfl | hl := List.mem_cons.mp hl
    · obtain he | hcr := ih w (List.mem_cons_self ..)
      · exact Or.inl (lineRun_concat_error he hc)
      · by_cases hne : c = CR
        · subst hne
          have hopen : OpenLine w := hc.resolve_left (not_not.mpr rfl)
          refine Or.inl ?_
          rw [lineRun_concat]
          exact lineRun_open (line_of_noCR hcr) hopen
        · exact Or.inr (by simpa [not_or] using ⟨hcr, Ne.symm hne⟩)
    · exact ih l (List.mem_cons_of_mem _ hl)
  | restart _ _ _ ih =>
    intro l hl
    obtain rfl | hl := List.mem_cons.mp hl
    · exact Or.inr (List.not_mem_nil)
    · exact ih l hl

theorem Lines.line (h : Lines u ls w) : lineRun .verb w = .error ∨ (lineRun .verb w).Line w :=
  (h.noCR w (List.mem_cons_self ..)).elim Or.inl line_of_noCR

theorem Framed.lines {n : Nat} {k : Captured} (h : Framed n u w k) : ∃ ls, Lines u ls w := by
  induction h with
  | start => exact ⟨[], .start⟩
  | byte _ hc _ ih =>
    obtain ⟨ls, h⟩ := ih
    exact ⟨ls, h.byte hc⟩
  | restart _ ho hc ih =>
    obtain ⟨ls, h⟩ := ih
    exact ⟨_ :: ls, h.restart ho hc⟩

theorem Outline.next_errored (t : Outline) (c : UInt8) :
    (t.next c).errored = true ↔ t.errored = true ∨ t.state.next c = .error := by
  simp [Outline.next]

/-- After some lines the parser stands where the last one leads, and the flag is raised if one of them has failed. -/
theorem Lines.run_fresh (h : Lines u ls w) :
    (freshOutline.run u).state = lineRun .verb w ∧
      ((freshOutline.run u).errored = true ↔ ∃ l ∈ w :: ls, lineRun .verb l = .error) := by
  induction h with
  | start => exact ⟨rfl, by simp [Outline.run, freshOutline, outline]⟩
  | byte _ hc ih =>
    rename_i u ls w c _
    obtain ⟨hstate, hflag⟩ := ih
    rw [Outline.run_append]
    have hnext : (freshOutline.run u).state.next c = lineRun .verb (w ++ [c]) := by
      rw [hstate, lineRun_concat]
    refine ⟨hnext, (Outline.next_errored _ c).trans ?_⟩
    rw [hflag, hnext]
    -- a failed line stays one with the byte
    simp only [List.exists_mem_cons_iff]
    constructor
    · rintro ((he | hls) | he)
      · exact Or.inl (lineRun_concat_error he hc)
      · exact Or.inr hls
      · exact Or.inl he
    · rintro (he | hls)
      · exact Or.inr he
      · exact Or.inl (Or.inr hls)
  | restart hlines ho hc ih =>
    rename_i u ls w c
    obtain ⟨hstate, hflag⟩ := ih
    rw [Outline.run_append]
    have hcr : (freshOutline.run u).state.next CR = .cr := by
      rw [hstate]
      exact lineRun_closed hlines.line ho
    rw [outline_restart hcr hc]
    refine ⟨rfl, hflag.trans ?_⟩
    -- the new line has not failed yet
    simp

/-- What completes a line in each of the states inside one. -/
def completions : List (List UInt8) :=
  [ascii "helo a", ascii "ehlo a", ascii "mail from:<>", ascii "rcpt to:<>", dataWord, quitWord].flatMap List.tails

theorem completes {st : RequestState} (hcr : st ≠ .cr) (hdone : st ≠ .done) (herror : st ≠ .error) :
    ∃ r ∈ completions, CR ∉ r ∧ (lineRun st r).ends ≠ .unknown := by
  cases st <;> first | contradiction | decide +kernel

theorem lineRun_error (hr : CR ∉ r) : lineRun .error r = .error := by
  refine lineRun_stay fun c hc => ?_
  rw [next_error, if_neg]
  rintro rfl
  exact hr hc

theorem commandLine_iff (h : lineRun .verb w = .error ∨ CR ∉ w) :
    CommandLine w ↔ (lineRun .verb w).ends ≠ .unknown := by
  constructor
  · rintro ⟨hcr, command, hform⟩
    have hne : command ≠ .unknown := by
      rintro rfl
      exact hform
    rw [(ends_iff_form hcr hne).mpr hform]
    exact hne
  · intro hne
    have hcr : CR ∉ w := h.resolve_left fun he => hne (by rw [he]; rfl)
    exact ⟨hcr, _, (ends_iff_form hcr hne).mp rfl⟩

theorem commandStart_iff (h : lineRun .verb w = .error ∨ CR ∉ w) :
    CommandStart w ↔ lineRun .verb w ≠ .error := by
  constructor
  · rintro ⟨r, hline⟩ he
    have hr : CR ∉ r := fun hmem => hline.1 (List.mem_append_right _ hmem)
    apply (commandLine_iff (Or.inr hline.1)).mp hline
    rw [lineRun_append, he, lineRun_error hr]
    rfl
  · intro hne
    have hcr : CR ∉ w := h.resolve_left hne
    obtain ⟨hended, hdone⟩ := line_not_ended (line_of_noCR hcr)
    obtain ⟨r, -, hr, hends⟩ := completes hended hdone hne
    have hcr' : CR ∉ w ++ r := by simpa [not_or] using ⟨hcr, hr⟩
    refine ⟨r, (commandLine_iff (Or.inr hcr')).mpr ?_⟩
    rwa [lineRun_append]

/-- What is told of a request: the command of the line on which it ends, and whether one of the lines has failed. -/
theorem Ends.told (h : Ends s ls w) : ∃ command errored,
    freshOutline.run s = { state := .done, command, errored } ∧ (command = .unknown ↔ ¬ CommandLine w) ∧
      (errored = true ↔ ¬ ∀ l ∈ w :: ls, CommandStart l) := by
  obtain ⟨v, r, rfl, hlines, ho⟩ := h
  obtain ⟨hstate, hflag⟩ := hlines.run_fresh
  have hcr : (freshOutline.run v).state.next CR = .cr := by
    rw [hstate]
    exact lineRun_closed hlines.line ho
  have hend := outline_lineEnd hcr
  have hrun : freshOutline.run (v ++ CR :: LF :: r) =
      { state := .done, command := (lineRun .verb w).ends, errored := (freshOutline.run v).errored } := by
    rw [show v ++ CR :: LF :: r = v ++ (lineEnd ++ r) from rfl, Outline.run_append, Outline.run_append, hend,
      outline_done rfl, hstate]
  refine ⟨_, _, hrun, ?_, ?_⟩
  · rw [commandLine_iff (hlines.noCR w (List.mem_cons_self ..)), not_not]
  · simp only [hflag, not_forall, exists_prop]
    refine exists_congr fun l => and_congr_right fun hl => ?_
    rw [commandStart_iff (hlines.noCR l hl), not_not]

end Cut

section Consume

variable {b b' : Buffer} {p : RequestParser} {errored : Bool}

/-- Where the parser is done, the stream has a line on which its request ends. -/
theorem ends_of_done {s rest : List UInt8} (h : requestParser.feedUntil (requestParserInit, false) s =
      .ok ((p, errored), rest)) (hdone : p.state = .done) : ∃ ls w, Ends s ls w := by
  have hreport : requestParser.reportAt (requestParserInit, false) s = .ok (some (s.length - rest.length)) := by
    rw [Parser.reportAt, h, ok_bind]
    dsimp only
    rw [if_pos (requestDone_iff.mpr hdone)]
  cases cut_cases 64 s with
  | inside hf => cases (requestReport_inside hf).symm.trans hreport
  | afterCR hs hf ho =>
    rw [hs] at hreport
    cases (requestReport_afterCR hf ho).symm.trans hreport
  | ended hs hf ho =>
    obtain ⟨ls, hlines⟩ := hf.lines
    exact ⟨ls, _, _, _, hs, hlines, ho⟩
  | overflow hs hf _ hno =>
    rw [hs] at hreport
    cases (requestReport_overflow hf hno).symm.trans hreport

/-- A request that ends within one call is reported as unknown exactly with the flag raised, exactly if the flag fits
its lines. -/
theorem requestErrored_iff (hv : b.Valid) (h : requestConsume b requestParserInit false = .ok (b', p, errored))
    (hdone : p.state = .done) : (errored = true ↔ p.command = .unknown) ↔ FlagFits b.pending := by
  obtain ⟨hu, -, -⟩ := consume_inv hv h
  obtain ⟨front, hfront, hall, -⟩ := Parser.feedUntil_front hu
  have hrun : freshOutline.run b.pending = outline (p, errored) := by
    rw [hfront, Outline.run_append, freshOutline, ← outline_feedAll hall]
    exact outline_done hdone _
  have hfits : ∀ {ls w}, Ends b.pending ls w →
      ((errored = true ↔ p.command = .unknown) ↔ (CommandLine w ↔ ∀ l ∈ w :: ls, CommandStart l)) := by
    intro ls w hends
    obtain ⟨command, flag, htold, hcommand, hflag⟩ := hends.told
    have hreported := hrun.symm.trans htold
    rw [show errored = flag from congrArg Outline.errored hreported,
      show p.command = command from congrArg Outline.command hreported, hcommand, hflag, not_iff_not]
    exact iff_comm
  constructor
  · intro hflag
    obtain ⟨ls, w, hends⟩ := ends_of_done hu hdone
    exact ⟨ls, w, hends, (hfits hends).mp hflag⟩
  · rintro ⟨ls, w, hends, hcondition⟩
    exact (hfits hends).mpr hcondition

theorem requestErrored_iff_quit : FlagFits (fixbuf (ascii "QUIT\r\n")).pending := by
  have hany : (requestConsume (fixbuf (ascii "QUIT\r\n")) requestParserInit false).toOption.any (fun r =>
      decide (r.2.1.state = .done ∧ (r.2.2 = true ↔ r.2.1.command = .unknown))) = true := by decide +kernel
  obtain ⟨⟨b', p, errored⟩, h, hdone, htold⟩ := ok_of_any hany
  exact (requestErrored_iff (fixbuf_valid _) h hdone).mp htold

/-- A line that its CR cuts off within a keyword is no command, and the flag is not raised for it. -/
theorem requestErrored_broken :
    ∃ b' p errored, requestConsume (fixbuf (ascii "MAIL\r\n")) requestParserInit false = .ok (b', p, errored) ∧
      p.state = .done ∧ ¬ (errored = true ↔ p.command = .unknown) := by
  have hany : (requestConsume (fixbuf (ascii "MAIL\r\n")) requestParserInit false).toOption.any (fun r =>
      decide (r.2.1.state = .done ∧ ¬ (r.2.2 = true ↔ r.2.1.command = .unknown))) = true := by decide +kernel
  obtain ⟨⟨b', p, errored⟩, h, hdone, htold⟩ := ok_of_any hany
  exact ⟨b', p, errored, h, hdone, htold⟩

end Consume

end Smtpd
