import Mathlib.Data.List.Infix
import Smtpd.Lib.Checked

namespace Incremental

open Checked

/-- A parser that takes its input byte by byte and says after each byte whether it is done. -/
structure Parser (φ π β : Type) where
  feed : π → β → Except φ π
  done : π → Bool

namespace Parser

variable {φ π β : Type} (P : Parser φ π β)

/-- The input is read up to the byte after which the parser is done; what follows stays unread. -/
def feedUntil : π → List β → Except φ (π × List β)
  | p, [] => .ok (p, [])
  | p, c :: cs => do
    let q ← P.feed p c
    if P.done q then .ok (q, cs) else feedUntil q cs

def feedAll (p : π) (cs : List β) : Except φ π := cs.foldlM P.feed p

/-- How many bytes are read when the parser reports that it is done, `none` if it never does. -/
def reportAt (p : π) (cs : List β) : Except φ (Option Nat) := do
  let (q, rest) ← P.feedUntil p cs
  .ok (if P.done q then some (cs.length - rest.length) else none)

@[simp] theorem feedAll_nil (p : π) : P.feedAll p [] = .ok p := rfl

@[simp] theorem feedAll_cons (p : π) (c : β) (cs : List β) :
    P.feedAll p (c :: cs) = P.feed p c >>= fun q => P.feedAll q cs := rfl

theorem feedAll_append (p : π) (xs ys : List β) :
    P.feedAll p (xs ++ ys) = P.feedAll p xs >>= fun q => P.feedAll q ys := by
  simp [feedAll, List.foldlM_append]

theorem feedAll_concat (p : π) (xs : List β) (c : β) :
    P.feedAll p (xs ++ [c]) = P.feedAll p xs >>= fun q => P.feed q c := by
  rw [feedAll_append]
  congr 1
  funext q
  cases h : P.feed q c <;> simp [h]

variable {P}

theorem feedAll_split {p q : π} {xs ys : List β} (h : P.feedAll p (xs ++ ys) = .ok q) :
    ∃ r, P.feedAll p xs = .ok r ∧ P.feedAll r ys = .ok q := by
  rw [feedAll_append] at h
  exact bind_ok h

theorem feedUntil_length {p q : π} {xs rest : List β} (h : P.feedUntil p xs = .ok (q, rest)) :
    rest.length ≤ xs.length := by
  induction xs generalizing p with
  | nil => cases h; exact le_rfl
  | cons c cs ih =>
    obtain ⟨r, -, h⟩ := bind_ok h
    split at h
    · cases h
      simp
    · have := ih h
      simp only [List.length_cons]
      omega

theorem feedUntil_front {p q : π} {xs rest : List β} (h : P.feedUntil p xs = .ok (q, rest)) :
    ∃ front, xs = front ++ rest ∧ P.feedAll p front = .ok q ∧ (P.done q = false → rest = []) := by
  induction xs generalizing p with
  | nil =>
    cases h
    exact ⟨[], rfl, rfl, fun _ => rfl⟩
  | cons c cs ih =>
    obtain ⟨r, hr, h⟩ := bind_ok h
    by_cases hd : P.done r = true
    · rw [if_pos hd] at h
      cases h
      exact ⟨[c], rfl, by simp [hr], fun hn => absurd hd (by simp [hn])⟩
    · rw [if_neg hd] at h
      obtain ⟨front, hf, hq, hrest⟩ := ih h
      exact ⟨c :: front, by simp [hf], by simp [hr, hq], hrest⟩

/-- What is read is fed byte by byte, and the parser was not done before the last of them. -/
theorem feedUntil_trace {p q : π} {xs rest : List β} (hp : P.done p = false)
    (h : P.feedUntil p xs = .ok (q, rest)) :
    ∃ front, xs = front ++ rest ∧ P.feedAll p front = .ok q ∧ (P.done q = false → rest = []) ∧
      ∀ m < front.length, ∃ r, P.feedAll p (front.take m) = .ok r ∧ P.done r = false := by
  obtain ⟨front, hf, hq, hrest⟩ := feedUntil_front h
  refine ⟨front, hf, hq, hrest, ?_⟩
  clear hq hrest
  induction xs generalizing p front with
  | nil =>
    obtain ⟨rfl, -⟩ := List.append_eq_nil_iff.mp hf.symm
    simp
  | cons c cs ih =>
    intro m hm
    obtain ⟨r, hr, h⟩ := bind_ok h
    cases m with
    | zero => exact ⟨p, rfl, hp⟩
    | succ m =>
      cases front with
      | nil => simp at hm
      | cons d front =>
        obtain ⟨rfl, hcs⟩ := List.cons.inj hf
        by_cases hd : P.done r = true
        · rw [if_pos hd] at h
          cases h
          have hnil : front = [] := by simpa using hcs
          simp [hnil] at hm
        · rw [if_neg hd] at h
          obtain ⟨s, hs, hn⟩ := ih (by simpa using hd) h front hcs m (by simpa using hm)
          exact ⟨s, by simp [hr, hs], hn⟩

theorem feedUntil_unfinished {p q : π} {xs rest : List β} (hp : P.done p = false)
    (h : P.feedUntil p xs = .ok (q, rest)) (hq : P.done q = false) :
    rest = [] ∧ P.feedAll p xs = .ok q := by
  obtain ⟨front, hf, hall, hrest, -⟩ := feedUntil_trace hp h
  have hr := hrest hq
  subst hr
  exact ⟨rfl, by simpa [hf] using hall⟩

theorem feedUntil_of_first {p q : π} {xs : List β} {n : Nat} (hp : P.done p = false)
    (hn : n ≤ xs.length) (hq : P.feedAll p (xs.take n) = .ok q) (hd : P.done q = true)
    (before : ∀ m < n, ∃ r, P.feedAll p (xs.take m) = .ok r ∧ P.done r = false) :
    P.feedUntil p xs = .ok (q, xs.drop n) := by
  induction xs generalizing p n with
  | nil =>
    have he : p = q := by simpa using hq
    simp [← he, hp] at hd
  | cons c cs ih =>
    cases n with
    | zero =>
      cases hq
      simp [hp] at hd
    | succ n =>
      obtain ⟨r, hr, hq⟩ := bind_ok (by simpa only [List.take_succ_cons, feedAll_cons] using hq)
      cases n with
      | zero =>
        cases hq
        simp [feedUntil, hr, hd]
      | succ n =>
        obtain ⟨s, hs, hrn⟩ := before 1 (by omega)
        have he : r = s := by simpa [hr] using hs
        subst s
        simp only [feedUntil, hr, ok_bind, hrn, Bool.false_eq_true, if_false, List.drop_succ_cons]
        refine ih hrn (by simpa using hn) hq ?_
        intro m hm
        simpa [hr] using before (m + 1) (by omega)

theorem feedUntil_of_never {p : π} {xs : List β}
    (never : ∀ m ≤ xs.length, ∃ r, P.feedAll p (xs.take m) = .ok r ∧ P.done r = false) :
    ∃ q, P.feedUntil p xs = .ok (q, []) ∧ P.done q = false := by
  induction xs generalizing p with
  | nil =>
    obtain ⟨r, hr, hd⟩ := never 0 le_rfl
    cases hr
    exact ⟨p, rfl, hd⟩
  | cons c cs ih =>
    obtain ⟨r, hr, hd⟩ := never 1 (by simp)
    have hc : P.feed p c = .ok r := by
      obtain ⟨s, hs, he⟩ := bind_ok (by simpa only [List.take_succ_cons, feedAll_cons] using hr)
      cases he
      exact hs
    have hrest : ∀ m ≤ cs.length, ∃ s, P.feedAll r (cs.take m) = .ok s ∧ P.done s = false := by
      intro m hm
      simpa [hc] using never (m + 1) (by simpa using hm)
    obtain ⟨q, hq, hn⟩ := ih hrest
    exact ⟨q, by simp [feedUntil, hc, hd, hq], hn⟩

/-- Where the input is cut between two calls does not matter. -/
theorem feedUntil_append {p : π} (hp : P.done p = false) (xs ys : List β) :
    P.feedUntil p (xs ++ ys) = P.feedUntil p xs >>= fun r =>
      if P.done r.1 then .ok (r.1, r.2 ++ ys) else P.feedUntil r.1 ys := by
  induction xs generalizing p with
  | nil => simp [feedUntil, hp]
  | cons c cs ih =>
    simp only [List.cons_append, feedUntil]
    cases hc : P.feed p c with
    | error e => rfl
    | ok q =>
      simp only [ok_bind]
      by_cases hd : P.done q = true
      · simp [hd]
      · simp only [hd, if_false, Bool.false_eq_true]
        exact ih (by simpa using hd)

/-- Splitting the input adds up: either the first part ends the parse, or the count goes on. -/
theorem reportAt_append {p : π} (hp : P.done p = false) (xs ys : List β) :
    P.reportAt p (xs ++ ys) = P.feedUntil p xs >>= fun r =>
      if P.done r.1 then .ok (some (xs.length - r.2.length))
      else P.reportAt r.1 ys >>= fun n => .ok (n.map (xs.length + ·)) := by
  unfold reportAt
  rw [feedUntil_append hp]
  cases h : P.feedUntil p xs with
  | error e => rfl
  | ok r =>
    have hl := feedUntil_length h
    simp only [ok_bind]
    by_cases hd : P.done r.1 = true
    · simp only [hd, if_true, ok_bind, List.length_append, Except.ok.injEq, Option.some.injEq]
      omega
    · simp only [hd, if_false, Bool.false_eq_true]
      cases hy : P.feedUntil r.1 ys with
      | error e => rfl
      | ok t =>
        have hl' := feedUntil_length hy
        simp only [ok_bind, List.length_append]
        by_cases hd' : P.done t.1 = true
        · simp only [hd', if_true, Option.map_some, Except.ok.injEq, Option.some.injEq]
          omega
        · simp [hd']

/-- The report comes with the first prefix after which the parser is done. -/
theorem reportAt_some_iff {p : π} {xs : List β} {n : Nat} (hp : P.done p = false) :
    P.reportAt p xs = .ok (some n) ↔ n ≤ xs.length ∧
      (∃ q, P.feedAll p (xs.take n) = .ok q ∧ P.done q = true) ∧
      ∀ m < n, ∃ q, P.feedAll p (xs.take m) = .ok q ∧ P.done q = false := by
  constructor
  · intro h
    obtain ⟨⟨q, rest⟩, hq, h⟩ := bind_ok h
    obtain ⟨front, hf, hall, hrest, hbefore⟩ := feedUntil_trace hp hq
    cases hd : P.done q with
    | false => simp [hd] at h
    | true =>
      have hn : n = front.length := by
        have hl := congrArg List.length hf
        simp only [hd, if_true, Except.ok.injEq, Option.some.injEq] at h
        simp only [List.length_append] at hl
        omega
      subst hn
      refine ⟨by simp [hf], ⟨q, by simpa [hf] using hall, hd⟩, ?_⟩
      intro m hm
      have := hbefore m hm
      rwa [hf, List.take_append_of_le_length (by omega)]
  · rintro ⟨hn, ⟨q, hq, hd⟩, before⟩
    simp only [reportAt, feedUntil_of_first hp hn hq hd before, ok_bind, hd, if_true,
      List.length_drop, Except.ok.injEq, Option.some.injEq]
    omega

theorem reportAt_none_iff {p : π} {xs : List β} (hp : P.done p = false) :
    P.reportAt p xs = .ok none ↔
      ∀ m ≤ xs.length, ∃ q, P.feedAll p (xs.take m) = .ok q ∧ P.done q = false := by
  constructor
  · intro h
    obtain ⟨⟨q, rest⟩, hq, h⟩ := bind_ok h
    cases hd : P.done q with
    | true => simp [hd] at h
    | false =>
      obtain ⟨front, hf, hall, hrest, hbefore⟩ := feedUntil_trace hp hq
      have hr := hrest hd
      subst hr
      simp only [List.append_nil] at hf
      subst hf
      intro m hm
      rcases Nat.lt_or_eq_of_le hm with hlt | rfl
      · exact hbefore m hlt
      · exact ⟨q, by simpa using hall, hd⟩
  · intro never
    obtain ⟨q, hq, hd⟩ := feedUntil_of_never never
    simp [reportAt, hq, hd]

section Stays

variable (stays : ∀ {p q : π} {c : β}, P.feed p c = .ok q → P.done p = true → P.done q = true)
include stays

/-- A parser that stays done was not done on the way to where it is not. -/
theorem feedAll_undone {p q : π} {xs ys : List β} (h : P.feedAll p (xs ++ ys) = .ok q)
    (hq : P.done q = false) : ∃ r, P.feedAll p xs = .ok r ∧ P.done r = false := by
  obtain ⟨r, hr, hys⟩ := feedAll_split h
  refine ⟨r, hr, ?_⟩
  clear hr h
  induction ys generalizing r with
  | nil =>
    cases hys
    exact hq
  | cons c ys ih =>
    obtain ⟨t, ht, hys⟩ := bind_ok hys
    have hn := ih t hys
    by_contra hd
    rw [stays ht (by simpa using hd)] at hn
    cases hn

/-- As long as the parser is not done all of the input is read. -/
theorem feedUntil_of_undone {p q : π} {xs : List β} (h : P.feedAll p xs = .ok q)
    (hq : P.done q = false) : P.done p = false ∧ P.feedUntil p xs = .ok (q, []) := by
  have hall : ∀ m ≤ xs.length, ∃ r, P.feedAll p (xs.take m) = .ok r ∧ P.done r = false := by
    intro m _
    rw [← List.take_append_drop m xs] at h
    exact feedAll_undone stays h hq
  obtain ⟨p', hp', hp⟩ := hall 0 (Nat.zero_le _)
  cases hp'
  obtain ⟨r, hr, hd⟩ := feedUntil_of_never hall
  obtain ⟨-, hfeed⟩ := feedUntil_unfinished hp hr hd
  obtain rfl := Except.ok.inj (hfeed.symm.trans h)
  exact ⟨hp, hr⟩

theorem reportAt_none_of {p q : π} {xs : List β} (h : P.feedAll p xs = .ok q)
    (hq : P.done q = false) : P.reportAt p xs = .ok none := by
  obtain ⟨-, hr⟩ := feedUntil_of_undone stays h hq
  simp [reportAt, hr, hq]

theorem reportAt_some_of {p q r : π} {xs ys : List β} {c : β} (h : P.feedAll p xs = .ok r)
    (hr : P.done r = false) (hc : P.feed r c = .ok q) (hq : P.done q = true) :
    P.reportAt p (xs ++ c :: ys) = .ok (some (xs.length + 1)) := by
  obtain ⟨hp, hu⟩ := feedUntil_of_undone stays h hr
  rw [reportAt_append hp, hu]
  simp only [ok_bind, hr, Bool.false_eq_true, if_false, reportAt, feedUntil, hc, hq, if_true,
    List.length_cons, Option.map_some, Except.ok.injEq, Option.some.injEq]
  omega

theorem reportAt_error_of {p r : π} {xs ys : List β} {c : β} {e : φ} (h : P.feedAll p xs = .ok r)
    (hr : P.done r = false) (hc : P.feed r c = .error e) :
    P.reportAt p (xs ++ c :: ys) = .error e := by
  obtain ⟨hp, hu⟩ := feedUntil_of_undone stays h hr
  rw [reportAt_append hp, hu]
  simp only [ok_bind, hr, Bool.false_eq_true, if_false, reportAt, feedUntil, hc]
  rfl

end Stays

end Parser

end Incremental
