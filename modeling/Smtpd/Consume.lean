import Smtpd.BufferQueue
import Smtpd.Lib.Incremental

namespace Smtpd

open Checked Incremental

variable {π : Type}

/-- The loop shared by `request_consume` and `data_consume`: bytes are read from the
buffer and fed to the parser until it is done or the buffer is empty. The budget is
the number of unread bytes. -/
def consumeLoop (P : Parser Fault π UInt8) : Nat → Buffer → π → Result (Buffer × π)
  | 0, b, p => .ok (b, p)
  | fuel + 1, b, p =>
    if bufferCanRead b then do
      let (c, b) ← bufferRead b
      let p ← P.feed p c
      if P.done p then .ok (b, p) else consumeLoop P fuel b p
    else .ok (b, p)

def consume (P : Parser Fault π UInt8) (b : Buffer) (p : π) : Result (Buffer × π) :=
  consumeLoop P (b.write - b.read) b p

theorem consumeLoop_ok {P : Parser Fault π UInt8} {fuel : Nat} {b : Buffer} {p q : π}
    {rest : List UInt8} (hv : b.Valid) (hf : b.pending.length ≤ fuel)
    (h : P.feedUntil p b.pending = .ok (q, rest)) :
    ∃ b', consumeLoop P fuel b p = .ok (b', q) ∧ b'.Valid ∧ b'.pending = rest ∧ b.SameArray b' := by
  induction fuel generalizing b p with
  | zero =>
    have hn : b.pending = [] := List.length_eq_zero_iff.mp (by omega)
    rw [hn] at h
    cases h
    exact ⟨b, rfl, hv, hn, .refl b⟩
  | succ fuel ih =>
    cases hq : b.pending with
    | nil =>
      have hc : bufferCanRead b = false := by
        by_contra hh
        exact hv.canRead_iff.mp (by simpa using hh) hq
      rw [hq] at h
      cases h
      exact ⟨b, by simp [consumeLoop, hc], hv, hq, .refl b⟩
    | cons c cs =>
      have hc : bufferCanRead b = true := hv.canRead_iff.mpr (by simp [hq])
      obtain ⟨b₁, hb, hv₁, hp₁, hs₁⟩ := bufferRead_cons hv hq
      rw [hq] at h
      obtain ⟨r, hr, h⟩ := bind_ok h
      by_cases hd : P.done r = true
      · rw [if_pos hd] at h
        cases h
        exact ⟨b₁, by simp [consumeLoop, hc, hb, hr, hd], hv₁, hp₁, hs₁⟩
      · rw [if_neg hd, ← hp₁] at h
        have hlen : b₁.pending.length ≤ fuel := by
          have := congrArg List.length hq
          simp only [List.length_cons] at this
          rw [hp₁]
          omega
        obtain ⟨b', hb', hv', hp', hs'⟩ := ih hv₁ hlen h
        exact ⟨b', by simp [consumeLoop, hc, hb, hr, hd, hb'], hv', hp', hs₁.trans hs'⟩

theorem consumeLoop_error {P : Parser Fault π UInt8} {fuel : Nat} {b : Buffer} {p : π}
    {e : Fault} (hv : b.Valid) (hf : b.pending.length ≤ fuel)
    (h : P.feedUntil p b.pending = .error e) : consumeLoop P fuel b p = .error e := by
  induction fuel generalizing b p with
  | zero =>
    have hn : b.pending = [] := List.length_eq_zero_iff.mp (by omega)
    rw [hn] at h
    cases h
  | succ fuel ih =>
    cases hq : b.pending with
    | nil =>
      rw [hq] at h
      cases h
    | cons c cs =>
      have hc : bufferCanRead b = true := hv.canRead_iff.mpr (by simp [hq])
      obtain ⟨b₁, hb, hv₁, hp₁, -⟩ := bufferRead_cons hv hq
      rw [hq] at h
      simp only [consumeLoop, hc, if_true, hb, ok_bind]
      cases hr : P.feed p c with
      | error e' =>
        simpa [Parser.feedUntil, hr] using h
      | ok r =>
        simp only [Parser.feedUntil, hr, ok_bind] at h ⊢
        by_cases hd : P.done r = true
        · rw [if_pos hd] at h
          cases h
        · rw [if_neg hd] at h ⊢
          have hlen : b₁.pending.length ≤ fuel := by
            have := congrArg List.length hq
            simp only [List.length_cons] at this
            rw [hp₁]
            omega
          exact ih hv₁ hlen (by rw [hp₁]; exact h)

/-- A call consumes the unread bytes exactly as the parser reads them from a list. -/
theorem consume_ok {P : Parser Fault π UInt8} {b : Buffer} {p q : π} {rest : List UInt8}
    (hv : b.Valid) (h : P.feedUntil p b.pending = .ok (q, rest)) :
    ∃ b', consume P b p = .ok (b', q) ∧ b'.Valid ∧ b'.pending = rest ∧ b.SameArray b' :=
  consumeLoop_ok hv (by rw [hv.length_pending]) h

theorem consume_error {P : Parser Fault π UInt8} {b : Buffer} {p : π} {e : Fault}
    (hv : b.Valid) (h : P.feedUntil p b.pending = .error e) : consume P b p = .error e :=
  consumeLoop_error hv (by rw [hv.length_pending]) h

theorem consume_inv {P : Parser Fault π UInt8} {b b' : Buffer} {p q : π} (hv : b.Valid)
    (h : consume P b p = .ok (b', q)) :
    P.feedUntil p b.pending = .ok (q, b'.pending) ∧ b'.Valid ∧ b.SameArray b' := by
  cases hu : P.feedUntil p b.pending with
  | error e =>
    rw [consume_error hv hu] at h
    cases h
  | ok r =>
    obtain ⟨s, rest⟩ := r
    obtain ⟨b₁, hb, hv₁, hp₁, hs₁⟩ := consume_ok hv hu
    rw [hb] at h
    cases h
    exact ⟨by rw [hp₁], hv₁, hs₁⟩

/-- Calls on one buffer after another until the parser is done, and the number of
bytes read when it is. -/
def consumeCalls (P : Parser Fault π UInt8) : List Buffer → π → Result (Option Nat)
  | [], _ => .ok none
  | b :: bs, p => do
    let (b', q) ← consume P b p
    if P.done q then .ok (some (b.pending.length - b'.pending.length))
    else do
      let n ← consumeCalls P bs q
      .ok (n.map (b.pending.length + ·))

/-- However the stream is split over calls, the report comes at the same byte of it. -/
theorem consumeCalls_eq {P : Parser Fault π UInt8} {bs : List Buffer} {p : π}
    (hp : P.done p = false) (hv : ∀ b ∈ bs, b.Valid) :
    consumeCalls P bs p = P.reportAt p (bs.flatMap Buffer.pending) := by
  induction bs generalizing p with
  | nil => simp [consumeCalls, Parser.reportAt, Parser.feedUntil, hp]
  | cons b bs ih =>
    rw [List.flatMap_cons, Parser.reportAt_append hp]
    cases hu : P.feedUntil p b.pending with
    | error e => simp [consumeCalls, consume_error (hv b (by simp)) hu]
    | ok r =>
      obtain ⟨q, rest⟩ := r
      obtain ⟨b', hb, -, hp', -⟩ := consume_ok (hv b (by simp)) hu
      simp only [consumeCalls, hb, ok_bind, hp']
      by_cases hd : P.done q = true
      · simp [hd]
      · simp only [hd, if_false, Bool.false_eq_true]
        rw [ih (by simpa using hd) (fun b hb => hv b (by simp [hb]))]

end Smtpd
