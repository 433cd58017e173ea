import Smtpd.Request

namespace Smtpd

open CString

def Blanks (b : List UInt8) : Prop := ∀ c ∈ b, isBlank c = true

/-- Blanks and then a keyword, in any case. -/
def Keyword (kw w : List UInt8) : Prop := ∃ b t, w = b ++ t ∧ Blanks b ∧ t.map tolower = kw

def DomainSep (kw w : List UInt8) : Prop :=
  ∃ v s, w = v ++ s ∧ Keyword kw v ∧ s ≠ [] ∧ Blanks s

def DomainLine (kw w d : List UInt8) : Prop :=
  ∃ v, w = v ++ d ∧ DomainSep kw v ∧ CR ∉ d ∧ ∃ c r, d = c :: r ∧ isBlank c = false

def ArgSep (kw w : List UInt8) : Prop := ∃ v s, w = v ++ s ∧ Keyword kw v ∧ Blanks s

def ArgOpen (kw w a : List UInt8) : Prop :=
  ∃ v, w = v ++ LT :: a ∧ ArgSep kw v ∧ GT ∉ a ∧ CR ∉ a

def ArgClosed (kw w a r : List UInt8) : Prop := ∃ v, w = v ++ GT :: r ∧ ArgOpen kw v a

abbrev heloWord : List UInt8 := ascii "helo"
abbrev ehloWord : List UInt8 := ascii "ehlo"
abbrev mailFromWord : List UInt8 := ascii "mail from:"
abbrev rcptToWord : List UInt8 := ascii "rcpt to:"
abbrev dataWord : List UInt8 := ascii "data"
abbrev quitWord : List UInt8 := ascii "quit"

/-- The letters read on a line, in lower case, in the states that read a keyword. -/
def RequestState.keyword : RequestState → Option (List UInt8)
  | .verb => some []
  | .verbE => some (ascii "e")
  | .verbEh => some (ascii "eh")
  | .verbEhl => some (ascii "ehl")
  | .verbEhlo => some ehloWord
  | .verbH => some (ascii "h")
  | .verbHe => some (ascii "he")
  | .verbHel => some (ascii "hel")
  | .verbHelo => some heloWord
  | .verbM => some (ascii "m")
  | .verbMa => some (ascii "ma")
  | .verbMai => some (ascii "mai")
  | .verbMail => some (ascii "mail")
  | .verbMail_ => some (ascii "mail ")
  | .verbMailF => some (ascii "mail f")
  | .verbMailFr => some (ascii "mail fr")
  | .verbMailFro => some (ascii "mail fro")
  | .verbMailFrom => some (ascii "mail from")
  | .verbR => some (ascii "r")
  | .verbRc => some (ascii "rc")
  | .verbRcp => some (ascii "rcp")
  | .verbRcpt => some (ascii "rcpt")
  | .verbRcpt_ => some (ascii "rcpt ")
  | .verbRcptT => some (ascii "rcpt t")
  | .verbRcptTo => some (ascii "rcpt to")
  | .verbD => some (ascii "d")
  | .verbDa => some (ascii "da")
  | .verbDat => some (ascii "dat")
  | .verbData => some dataWord
  | .verbQ => some (ascii "q")
  | .verbQu => some (ascii "qu")
  | .verbQui => some (ascii "qui")
  | .verbQuit => some quitWord
  | _ => none

/-- The texts of a line that lead to a state. The states after the line, and the state
of malformed lines, have none. -/
def RequestState.Line (st : RequestState) (w : List UInt8) : Prop :=
  match st with
  | .heloSep => DomainSep heloWord w
  | .heloDomain => ∃ d, DomainLine heloWord w d
  | .ehloSep => DomainSep ehloWord w
  | .ehloDomain => ∃ d, DomainLine ehloWord w d
  | .mailFromSep => ArgSep mailFromWord w
  | .mailFrom => ∃ a, ArgOpen mailFromWord w a
  | .mailFromSender => ∃ a r, ArgClosed mailFromWord w a r ∧ CR ∉ r
  | .rcptToSep => ArgSep rcptToWord w
  | .rcptTo => ∃ a, ArgOpen rcptToWord w a
  | .rcptToRecipient => ∃ a, ArgClosed rcptToWord w a []
  | st => ∃ kw, st.keyword = some kw ∧ Keyword kw w

def RequestAction.next (c : UInt8) : RequestAction → RequestState
  | .goto next => next
  | .finish _ => .cr
  | .fail => if c = CR then .cr else .error
  | .arg next => next
  | .domain next => next
  | .newDomain next => next

def RequestState.next (st : RequestState) (c : UInt8) : RequestState := (st.onByte c).next c

def lineRun (st : RequestState) (w : List UInt8) : RequestState := w.foldl RequestState.next st

@[simp] theorem lineRun_nil (st : RequestState) : lineRun st [] = st := rfl

@[simp] theorem lineRun_cons (st : RequestState) (c : UInt8) (w : List UInt8) :
    lineRun st (c :: w) = lineRun (st.next c) w := rfl

theorem lineRun_append (st : RequestState) (v w : List UInt8) :
    lineRun st (v ++ w) = lineRun (lineRun st v) w := by
  simp [lineRun]

theorem lineRun_concat (st : RequestState) (w : List UInt8) (c : UInt8) :
    lineRun st (w ++ [c]) = (lineRun st w).next c := by
  simp [lineRun]

theorem expect_tolower {lower upper : Char} (h : CasePair lower.toUInt8 upper.toUInt8) (c : UInt8)
    (next : RequestState) : expect (tolower c) lower upper next = expect c lower upper next := by
  simp only [expect, h.tolower_iff]

theorem isBlank_tolower (c : UInt8) : isBlank (tolower c) = isBlank c := by
  have hSP := tolower_eq_iff (x := SP) (by decide) c
  have hTAB := tolower_eq_iff (x := TAB) (by decide) c
  simp only [isBlank, hSP, hTAB]

/-- The switch does not tell the cases of a letter apart. -/
theorem onByte_tolower (st : RequestState) (c : UInt8) : st.onByte (tolower c) = st.onByte c := by
  have hCR := tolower_eq_iff (x := CR) (by decide) c
  have hLF := tolower_eq_iff (x := LF) (by decide) c
  have hLT := tolower_eq_iff (x := LT) (by decide) c
  have hGT := tolower_eq_iff (x := GT) (by decide) c
  cases st with
  | verb =>
    have hletter : ∀ lower upper : Char, CasePair lower.toUInt8 upper.toUInt8 →
        ((tolower c = lower.toUInt8 ∨ tolower c = upper.toUInt8) ↔ (c = lower.toUInt8 ∨ c = upper.toUInt8)) :=
      fun _ _ h => h.tolower_iff c
    simp only [RequestState.onByte, hletter 'h' 'H' (by decide), hletter 'e' 'E' (by decide),
      hletter 'm' 'M' (by decide), hletter 'r' 'R' (by decide), hletter 'd' 'D' (by decide),
      hletter 'q' 'Q' (by decide), isBlank_tolower]
  | _ =>
    -- most states wait for one letter; the others look for marks that have no case
    first
      | exact expect_tolower (by decide) c _
      | simp only [RequestState.onByte, isBlank_tolower, hCR, hLF, hLT, hGT]

theorem next_tolower (st : RequestState) (c : UInt8) : st.next (tolower c) = st.next c := by
  have hCR := tolower_eq_iff (x := CR) (by decide) c
  rw [RequestState.next, onByte_tolower, RequestState.next]
  cases st.onByte c <;> simp only [RequestAction.next, hCR]

theorem lineRun_tolower (st : RequestState) (w : List UInt8) :
    lineRun st (w.map tolower) = lineRun st w := by
  induction w generalizing st with
  | nil => rfl
  | cons c w ih => rw [List.map_cons, lineRun_cons, next_tolower, ih, lineRun_cons]

theorem fail_next (c : UInt8) : RequestAction.fail.next c = .error ∨ RequestAction.fail.next c = .cr := by
  show (if c = CR then RequestState.cr else .error) = .error ∨ (if c = CR then RequestState.cr else .error) = .cr
  split_ifs
  · exact Or.inr rfl
  · exact Or.inl rfl

theorem expect_keyword {P : Prop} {st next : RequestState} {kw : List UInt8} {lower upper : Char} {c : UInt8}
    (hst : st.onByte c = expect c lower upper next) (h : CasePair lower.toUInt8 upper.toUInt8)
    (hk : next.keyword = some (kw ++ [lower.toUInt8])) :
    st.next c = .error ∨ st.next c = .cr ∨ (st.next c).keyword = some (kw ++ [tolower c]) ∨ P := by
  rw [RequestState.next, hst, expect]
  split_ifs with hc
  · rw [(h.tolower_eq c).mpr hc]
    exact Or.inr (Or.inr (Or.inl hk))
  · exact (fail_next c).imp_right Or.inl

/-- In a state that reads a keyword the line fails, or the byte extends the keyword, or
it is one of the blanks and colons that follow a complete one. -/
theorem next_keyword (st : RequestState) (kw : List UInt8) (h : st.keyword = some kw) (c : UInt8) :
    st.next c = .error ∨ st.next c = .cr ∨
      (st.next c).keyword = some (kw ++ [tolower c]) ∨
      (isBlank c ∧ ((st = .verb ∧ st.next c = .verb) ∨ (st = .verbHelo ∧ st.next c = .heloSep) ∨
        (st = .verbEhlo ∧ st.next c = .ehloSep))) ∨
      (tolower c = 58 ∧ ((st = .verbMailFrom ∧ st.next c = .mailFromSep) ∨
        (st = .verbRcptTo ∧ st.next c = .rcptToSep))) := by
  cases st <;> cases h
  case verb =>
    have hletter : ∀ {next : RequestState} {lower upper : Char}, CasePair lower.toUInt8 upper.toUInt8 →
        c = lower.toUInt8 ∨ c = upper.toUInt8 → next.keyword = some [lower.toUInt8] →
        next.keyword = some ([] ++ [tolower c]) := by
      intro next lower upper h hc hk
      rw [(h.tolower_eq c).mpr hc]
      exact hk
    dsimp only [RequestState.next, RequestState.onByte]
    split_ifs with hh he hm hr hd hq hb
    · exact Or.inr (Or.inr (Or.inl (hletter (by decide) hh rfl)))
    · exact Or.inr (Or.inr (Or.inl (hletter (by decide) he rfl)))
    · exact Or.inr (Or.inr (Or.inl (hletter (by decide) hm rfl)))
    · exact Or.inr (Or.inr (Or.inl (hletter (by decide) hr rfl)))
    · exact Or.inr (Or.inr (Or.inl (hletter (by decide) hd rfl)))
    · exact Or.inr (Or.inr (Or.inl (hletter (by decide) hq rfl)))
    · exact Or.inr (Or.inr (Or.inr (Or.inl ⟨hb, Or.inl ⟨rfl, rfl⟩⟩)))
    · exact (fail_next c).imp_right Or.inl
  case verbHelo =>
    dsimp only [RequestState.next, RequestState.onByte]
    split_ifs with hb
    · exact Or.inr (Or.inr (Or.inr (Or.inl ⟨hb, Or.inr (Or.inl ⟨rfl, rfl⟩)⟩)))
    · exact (fail_next c).imp_right Or.inl
  case verbEhlo =>
    dsimp only [RequestState.next, RequestState.onByte]
    split_ifs with hb
    · exact Or.inr (Or.inr (Or.inr (Or.inl ⟨hb, Or.inr (Or.inr ⟨rfl, rfl⟩)⟩)))
    · exact (fail_next c).imp_right Or.inl
  case verbMailFrom =>
    dsimp only [RequestState.next, RequestState.onByte, expect]
    split_ifs with hc
    · have hcolon : tolower c = 58 := (CasePair.tolower_eq (by decide) c).mpr hc
      exact Or.inr (Or.inr (Or.inr (Or.inr ⟨hcolon, Or.inl ⟨rfl, rfl⟩⟩)))
    · exact (fail_next c).imp_right Or.inl
  case verbRcptTo =>
    dsimp only [RequestState.next, RequestState.onByte, expect]
    split_ifs with hc
    · have hcolon : tolower c = 58 := (CasePair.tolower_eq (by decide) c).mpr hc
      exact Or.inr (Or.inr (Or.inr (Or.inr ⟨hcolon, Or.inr ⟨rfl, rfl⟩⟩)))
    · exact (fail_next c).imp_right Or.inl
  case verbData | verbQuit =>
    dsimp only [RequestState.next, RequestState.onByte]
    split_ifs
    · exact Or.inr (Or.inl rfl)
    · exact Or.inl rfl
  all_goals exact expect_keyword rfl (by decide) rfl

end Smtpd
