import Smtpd.RequestLineRun

namespace Smtpd

open Checked Incremental

/-- The bytes captured from a stream, in the memory of the two arrays, and where the
next byte of an argument is stored. -/
structure Captured where
  mem : List UInt8
  i : Nat
deriving DecidableEq, Repr

/-- What the line `w` captures of its next byte. Arguments may reach up to `n`. -/
inductive Capture (n : Nat) (w : List UInt8) (c : UInt8) : Captured → Captured → Prop
  | arg {mem i} : ArgText w → c ≠ GT → c ≠ CR → i < n →
      Capture n w c ⟨mem, i⟩ ⟨mem.set i c, i + 1⟩
  | newDomain {mem i} : DomainGap w → isBlank c = false → c ≠ CR →
      Capture n w c ⟨mem, i⟩ ⟨mem.set 32 c, 1⟩
  | domain {mem i} : DomainText w → c ≠ CR → i < 32 →
      Capture n w c ⟨mem, i⟩ ⟨mem.set (32 + i) c, i + 1⟩
  | skip {k} : (ArgText w → c = GT ∨ c = CR) → (DomainGap w → isBlank c = true ∨ c = CR) →
      (DomainText w → c = CR) → Capture n w c k k

/-- The stream `u` leaves off inside a line, of which `w` has been read. A CR ends a line
unless the line is open; the byte behind it is dropped, and a line starts over. -/
inductive Framed (n : Nat) : List UInt8 → List UInt8 → Captured → Prop
  | start : Framed n [] [] ⟨List.replicate 64 0, 0⟩
  | byte {u w k k' c} : Framed n u w k → (c ≠ CR ∨ OpenLine w) → Capture n w c k k' →
      Framed n (u ++ [c]) (w ++ [c]) k'
  | restart {u w k c} : Framed n u w k → ¬ OpenLine w → c ≠ LF → Framed n (u ++ [CR, c]) [] k

/-- How a stream is cut, as far as its captures fit. -/
inductive Cut (n : Nat) (s : List UInt8) : Prop
  | inside {w k} : Framed n s w k → Cut n s
  | afterCR {v w k} : s = v ++ [CR] → Framed n v w k → ¬ OpenLine w → Cut n s
  | ended {v w k r} : s = v ++ CR :: LF :: r → Framed n v w k → ¬ OpenLine w → Cut n s
  | overflow {v w k c r} : s = v ++ c :: r → Framed n v w k → (c ≠ CR ∨ OpenLine w) →
      (∀ k', ¬ Capture n w c k k') → Cut n s

theorem cut_cases (n : Nat) (s : List UInt8) : Cut n s := by
  induction s using List.reverseRecOn with
  | nil => exact .inside .start
  | append_singleton s c ih =>
    cases ih with
    | inside h =>
      rename_i w k
      by_cases hc : c ≠ CR ∨ OpenLine w
      · by_cases hk : ∃ k', Capture n w c k k'
        · obtain ⟨k', hk⟩ := hk
          exact .inside (h.byte hc hk)
        · exact .overflow rfl h hc (not_exists.mp hk)
      · obtain ⟨hcr, ho⟩ := not_or.mp hc
        rw [not_ne_iff.mp hcr]
        exact .afterCR rfl h ho
    | afterCR hs h ho =>
      subst hs
      by_cases hc : c = LF
      · subst hc
        exact .ended (r := []) (by simp) h ho
      · rw [List.append_assoc]
        exact .inside (h.restart ho hc)
    | ended hs h ho =>
      rename_i r
      exact .ended (r := r ++ [c]) (by simp [hs]) h ho
    | overflow hs h hc hk =>
      rename_i r
      exact .overflow (r := r ++ [c]) (by simp [hs]) h hc hk

theorem Capture.mono {n m : Nat} (hnm : n ≤ m) {w : List UInt8} {c : UInt8} {k k' : Captured}
    (h : Capture n w c k k') : Capture m w c k k' := by
  cases h with
  | arg ha hg hc hi => exact .arg ha hg hc (by omega)
  | newDomain hd hb hc => exact .newDomain hd hb hc
  | domain hd hc hi => exact .domain hd hc hi
  | skip ha hg hd => exact .skip ha hg hd

theorem Framed.mono {n m : Nat} (hnm : n ≤ m) {u w : List UInt8} {k : Captured}
    (h : Framed n u w k) : Framed m u w k := by
  induction h with
  | start => exact .start
  | byte _ hc hk ih => exact ih.byte hc (hk.mono hnm)
  | restart _ ho hc ih => exact ih.restart ho hc

/-- The index of the array at which a byte is stored, if it is. -/
def RequestParser.storeIndex (p : RequestParser) (c : UInt8) : Option Nat :=
  match p.state.onByte c with
  | .arg _ | .domain _ => some p.i.toNat
  | .newDomain _ => some 0
  | _ => none

def RequestAction.stores : RequestAction → Bool
  | .arg _ | .domain _ | .newDomain _ => true
  | _ => false

/-- The parser stands where the text of the line and the captures say. -/
structure Tracks (w : List UInt8) (k : Captured) (p : RequestParser) : Prop where
  state : p.state = lineRun .verb w
  line : lineRun .verb w = .error ∨ (lineRun .verb w).Line w
  bytes : p.request.bytes = k.mem
  index : p.i.toNat = k.i
  bound : k.i ≤ 64

theorem tracks_init : Tracks [] ⟨List.replicate 64 0, 0⟩ requestParserInit :=
  ⟨rfl, Or.inr ⟨[], rfl, [], [], rfl, Blanks.nil, rfl⟩, rfl, rfl, Nat.zero_le _⟩

section Line

variable {w : List UInt8} (h : lineRun .verb w = .error ∨ (lineRun .verb w).Line w)
include h

theorem onByte_arg (ha : ArgText w) {c : UInt8} (hg : c ≠ GT) (hc : c ≠ CR) :
    (lineRun .verb w).onByte c = .arg ((lineRun .verb w).next c) := by
  rcases (argText_iff h).mp ha with hst | hst <;> rw [hst] <;>
    simp [RequestState.onByte, RequestState.next, RequestAction.next, hg, hc]

theorem onByte_newDomain (hd : DomainGap w) {c : UInt8} (hb : isBlank c = false) (hc : c ≠ CR) :
    (lineRun .verb w).onByte c = .newDomain ((lineRun .verb w).next c) := by
  rcases (domainGap_iff h).mp hd with hst | hst <;> rw [hst] <;>
    simp [RequestState.onByte, RequestState.next, RequestAction.next, hb, hc]

theorem onByte_domain (hd : DomainText w) {c : UInt8} (hc : c ≠ CR) :
    (lineRun .verb w).onByte c = .domain ((lineRun .verb w).next c) := by
  rcases (domainText_iff h).mp hd with hst | hst <;> rw [hst] <;>
    simp [RequestState.onByte, RequestState.next, RequestAction.next, hc]

theorem onByte_skip {c : UInt8} (ha : ArgText w → c = GT ∨ c = CR)
    (hg : DomainGap w → isBlank c = true ∨ c = CR) (hd : DomainText w → c = CR) :
    ((lineRun .verb w).onByte c).stores = false := by
  rw [argText_iff h] at ha
  rw [domainGap_iff h] at hg
  rw [domainText_iff h] at hd
  generalize lineRun .verb w = st at ha hg hd
  cases st <;> simp only [RequestState.onByte, expect] <;> (try split_ifs) <;>
    simp_all [RequestAction.stores]

theorem line_concat {c : UInt8} (hc : c ≠ CR ∨ OpenLine w) :
    lineRun .verb (w ++ [c]) = .error ∨ (lineRun .verb (w ++ [c])).Line (w ++ [c]) := by
  rw [lineRun_concat]
  rcases h with he | hl
  · left
    rw [he, next_error, if_neg]
    rcases hc with hc | ho
    · exact hc
    · rw [openLine_iff (Or.inl he), he] at ho
      simp at ho
  · rcases line_step hl c with he | hcr | hl'
    · exact Or.inl he
    · have hCR := next_eq_cr hcr
      have ho := hc.resolve_left (not_not.mpr hCR)
      rw [hCR, lineRun_open (Or.inr hl) ho] at hcr
      cases hcr
    · exact Or.inr hl'

end Line

theorem feed_of_not_stored {p : RequestParser} {c : UInt8}
    (h : (p.state.onByte c).stores = false) :
    ∃ command, requestParserFeed p c = .ok { p with command, state := p.state.next c } ∧
      p.storeIndex c = none := by
  unfold requestParserFeed RequestState.next RequestParser.storeIndex
  cases hact : p.state.onByte c with
  | goto next => exact ⟨p.command, rfl, rfl⟩
  | finish command => exact ⟨command, rfl, rfl⟩
  | fail => exact ⟨.unknown, rfl, rfl⟩
  | arg next | domain next | newDomain next =>
    rw [hact] at h
    cases h

theorem index_succ {p : RequestParser} {i : Nat} (h : p.i.toNat = i) (hi : i < 64) :
    (p.i + 1).toNat = i + 1 := by
  have hs := UInt8.toNat_add p.i 1
  rw [hs, h]
  simp only [UInt8.reduceToNat]
  omega

/-- A byte of a line is stored where the text captures it. -/
theorem feed_tracks {w : List UInt8} {k k' : Captured} {p : RequestParser} {c : UInt8}
    (ht : Tracks w k p) (hc : c ≠ CR ∨ OpenLine w) (hk : Capture 64 w c k k') :
    ∃ q, requestParserFeed p c = .ok q ∧ Tracks (w ++ [c]) k' q := by
  obtain ⟨hst, hline, hbytes, hi, hb⟩ := ht
  have hline' := line_concat hline hc
  have hnext := lineRun_concat .verb w c
  cases hk with
  | arg ha hg hcr hlt =>
    rename_i mem i
    have hact := onByte_arg hline ha hg hcr
    rw [← hst] at hact
    have hi : p.i.toNat = i := hi
    have hlt' : p.i.toNat < 64 := by omega
    refine ⟨{ p with request := ⟨p.request.bytes.set p.i.toNat c⟩, i := p.i + 1, state := p.state.next c }, ?_, ?_⟩
    · simp [requestParserFeed, hact, Request.store, hlt']
    · exact ⟨by rw [hnext, ← hst], hline', by simp only [hbytes, hi], index_succ hi hlt, hlt⟩
  | newDomain hd hbl hcr =>
    rename_i mem i
    have hact := onByte_newDomain hline hd hbl hcr
    rw [← hst] at hact
    refine ⟨{ p with request := ⟨p.request.bytes.set 32 c⟩, i := 1, state := p.state.next c }, ?_, ?_⟩
    · simp [requestParserFeed, hact, Request.store]
    · exact ⟨by rw [hnext, ← hst], hline', by simp only [hbytes], rfl,
        show 1 ≤ 64 by omega⟩
  | domain hd hcr hlt =>
    rename_i mem i
    have hact := onByte_domain hline hd hcr
    rw [← hst] at hact
    have hi : p.i.toNat = i := hi
    have hlt' : 32 + p.i.toNat < 64 := by omega
    refine ⟨{ p with request := ⟨p.request.bytes.set (32 + p.i.toNat) c⟩, i := p.i + 1, state := p.state.next c }, ?_, ?_⟩
    · simp [requestParserFeed, hact, Request.store, hlt']
    · exact ⟨by rw [hnext, ← hst], hline', by simp only [hbytes, hi], index_succ hi (by omega),
        by show i + 1 ≤ 64; omega⟩
  | skip ha hg hd =>
    have hact := onByte_skip hline ha hg hd
    rw [← hst] at hact
    obtain ⟨command, hfeed, -⟩ := feed_of_not_stored hact
    exact ⟨_, hfeed, by rw [hnext, ← hst], hline', hbytes, hi, hb⟩

/-- A byte that the text would capture behind the arrays is stored nowhere. -/
theorem feed_overflow {w : List UInt8} {k : Captured} {p : RequestParser} {c : UInt8}
    (ht : Tracks w k p) (hno : ∀ k', ¬ Capture 64 w c k k') :
    requestParserFeed p c = .error .undefined := by
  obtain ⟨hst, hline, -, hi, -⟩ := ht
  by_cases ha : ArgText w ∧ c ≠ GT ∧ c ≠ CR
  · obtain ⟨ha, hg, hcr⟩ := ha
    have hact := onByte_arg hline ha hg hcr
    rw [← hst] at hact
    have hlt : ¬ p.i.toNat < 64 := fun hlt => hno _ (.arg ha hg hcr (hi ▸ hlt))
    simp [requestParserFeed, hact, Request.store, hlt]
  by_cases hd : DomainText w ∧ c ≠ CR
  · obtain ⟨hd, hcr⟩ := hd
    have hact := onByte_domain hline hd hcr
    rw [← hst] at hact
    have hlt : ¬ p.i.toNat < 32 := fun hlt => hno _ (.domain hd hcr (hi ▸ hlt))
    have hlt' : ¬ 32 + p.i.toNat < 64 := by omega
    simp [requestParserFeed, hact, Request.store, hlt']
  by_cases hg : DomainGap w ∧ isBlank c = false ∧ c ≠ CR
  · exact absurd (.newDomain hg.1 hg.2.1 hg.2.2) (hno _)
  · exact absurd (.skip (by tauto) (by simpa [imp_iff_not_or] using hg) (by tauto)) (hno k)

end Smtpd
