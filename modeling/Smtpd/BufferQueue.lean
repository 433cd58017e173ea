import Smtpd.Buffer

namespace Smtpd

open Checked CString

/-- The order of the pointers, and that an empty buffer starts over at `data`. -/
structure Buffer.Valid (b : Buffer) : Prop where
  data_le : b.data ≤ b.read
  read_le : b.read ≤ b.write
  write_le : b.write ≤ b.limit
  limit_le : b.limit ≤ b.raw.length
  rewound : b.read = b.write → b.read = b.data

/-- What no operation of a buffer changes. -/
structure Buffer.SameArray (b b' : Buffer) : Prop where
  data : b'.data = b.data
  limit : b'.limit = b.limit
  length : b'.raw.length = b.raw.length

theorem Buffer.SameArray.refl (b : Buffer) : b.SameArray b := ⟨rfl, rfl, rfl⟩

theorem Buffer.SameArray.trans {a b c : Buffer} (h : a.SameArray b) (h' : b.SameArray c) :
    a.SameArray c :=
  ⟨h'.data.trans h.data, h'.limit.trans h.limit, h'.length.trans h.length⟩

/-- The number of bytes that still fit behind the write pointer. -/
def Buffer.room (b : Buffer) : Nat := b.limit - b.write

namespace Buffer.Valid

variable {b : Buffer}

theorem length_pending (hv : b.Valid) : b.pending.length = b.write - b.read := by
  have h1 := hv.write_le
  have h2 := hv.limit_le
  simp only [Buffer.pending, List.length_take, List.length_drop]
  omega

theorem pending_eq_nil_iff (hv : b.Valid) : b.pending = [] ↔ b.read = b.write := by
  have hl := hv.length_pending
  have := hv.read_le
  rw [← List.length_eq_zero_iff]
  omega

theorem canRead_iff (hv : b.Valid) : bufferCanRead b = true ↔ b.pending ≠ [] := by
  have := hv.read_le
  rw [ne_eq, hv.pending_eq_nil_iff]
  simp only [bufferCanRead, decide_eq_true_eq]
  omega

theorem room_of_empty (hv : b.Valid) (he : b.pending = []) : b.room = b.limit - b.data := by
  have hr := hv.pending_eq_nil_iff.mp he
  have := hv.rewound hr
  unfold Buffer.room
  omega

end Buffer.Valid

theorem bufferReset_valid {b : Buffer} (hd : b.data ≤ b.limit) (hl : b.limit ≤ b.raw.length) :
    (bufferReset b).Valid ∧ (bufferReset b).pending = [] :=
  ⟨⟨le_rfl, le_rfl, hd, hl, fun _ => rfl⟩, by simp [bufferReset, Buffer.pending]⟩

theorem bufferInit_valid {n : Nat} {raw : List UInt8} (h : n ≤ raw.length) :
    (bufferInit n raw).Valid ∧ (bufferInit n raw).pending = [] :=
  bufferReset_valid (Nat.zero_le _) h

theorem pending_advance (b : Buffer) (n : Nat) :
    ({ b with read := b.read + n } : Buffer).pending = b.pending.drop n := by
  simp only [Buffer.pending, List.drop_take, List.drop_drop]
  congr 1
  omega

/-- Taking bytes that are there keeps the rest of the queue, wherever the rest is stored. -/
theorem bufferReadAdv_spec {b : Buffer} (hv : b.Valid) {n : Nat} (hn : n ≤ b.pending.length) :
    ∃ b', bufferReadAdv b n = .ok b' ∧ b'.Valid ∧ b'.pending = b.pending.drop n ∧ b.SameArray b' := by
  have hl := hv.length_pending
  have hr := hv.read_le
  have hd := hv.data_le
  have hw := hv.write_le
  have hcond : b.read + n ≤ b.write := by omega
  have hint : ((n : Int) > -1) := by omega
  by_cases he : b.read + n = b.write
  · refine ⟨bufferCompact { b with read := b.read + n }, by simp [bufferReadAdv, hint, he], ?_⟩
    have hnil : b.pending.drop n = [] := List.drop_eq_nil_iff.mpr (by omega)
    by_cases hz : b.data = b.read + n
    · have hc : bufferCompact { b with read := b.read + n } = { b with read := b.read + n } := by
        simp [bufferCompact, hz]
      rw [hc]
      exact ⟨⟨by simp; omega, by simp; omega, hw, hv.limit_le, fun _ => by simp; omega⟩,
        pending_advance b n, ⟨rfl, rfl, rfl⟩⟩
    · have hc : bufferCompact { b with read := b.read + n } =
          { b with read := b.data, write := b.data } := by
        have hne : b.data ≠ b.write := by omega
        simp [bufferCompact, he, hne]
      rw [hc, hnil]
      exact ⟨⟨le_rfl, le_rfl, by simp; omega, hv.limit_le, fun _ => rfl⟩,
        by simp [Buffer.pending], ⟨rfl, rfl, rfl⟩⟩
  · refine ⟨{ b with read := b.read + n }, by simp [bufferReadAdv, hint, he, hcond], ?_⟩
    exact ⟨⟨by simp; omega, by simp; omega, hw, hv.limit_le, fun h => absurd h (by simpa using he)⟩,
      pending_advance b n, ⟨rfl, rfl, rfl⟩⟩

theorem bufferRead_cons {b : Buffer} (hv : b.Valid) {c : UInt8} {q : List UInt8}
    (hq : b.pending = c :: q) :
    ∃ b', bufferRead b = .ok (c, b') ∧ b'.Valid ∧ b'.pending = q ∧ b.SameArray b' := by
  have hcan : bufferCanRead b = true := hv.canRead_iff.mpr (by simp [hq])
  have hc : b.raw[b.read]? = some c := by
    have h0 : b.pending[0]? = some c := by simp [hq]
    have hpos : 0 < b.write - b.read := by
      rw [← hv.length_pending, hq]
      simp
    simpa [Buffer.pending, List.getElem?_take, hpos] using h0
  obtain ⟨b', hb, hv', hp, hs⟩ := bufferReadAdv_spec hv (n := 1) (by simp [hq])
  refine ⟨b', ?_, hv', by simpa [hq] using hp, hs⟩
  have hb1 : bufferReadAdv b 1 = .ok b' := by simpa using hb
  simp [bufferRead, hcan, hc, hb1]

/-- Bytes stored at the write pointer and then announced join the queue at its end. -/
theorem bufferWriteAdv_spec {b : Buffer} (hv : b.Valid) (xs : List UInt8) {n : Nat}
    (hx : b.write + xs.length ≤ b.raw.length) (hn : n ≤ xs.length) (hroom : n ≤ b.room) :
    ∃ b₁ b', bufferStore b b.write xs = .ok b₁ ∧ bufferWriteAdv b₁ n = .ok b' ∧ b'.Valid ∧
      b'.pending = b.pending ++ xs.take n ∧ b.SameArray b' ∧ b'.read = b.read ∧
      b'.write = b.write + n := by
  have hr := hv.read_le
  have hd := hv.data_le
  have hw := hv.write_le
  have hfit : b.write + n ≤ b.limit := by unfold Buffer.room at hroom; omega
  have hint : ((n : Int) > -1) := by omega
  have hlen : (overwrite b.raw b.write xs).length = b.raw.length := length_overwrite hx
  refine ⟨{ b with raw := overwrite b.raw b.write xs },
    { b with raw := overwrite b.raw b.write xs, write := b.write + n }, ?_, ?_, ?_, ?_, ?_, rfl, rfl⟩
  · simp [bufferStore, hx]
  · simp [bufferWriteAdv, hint, hfit]
  · refine ⟨hd, by simp; omega, hfit, by simpa [hlen] using hv.limit_le, ?_⟩
    intro h
    have hz : b.read = b.write := by simp at h; omega
    exact hv.rewound hz
  · have hcut : (overwrite b.raw b.write xs).take (b.write + n) = b.raw.take b.write ++ xs.take n := by
      have hmin : b.write + n ≤ b.write + xs.length := by omega
      rw [← Nat.min_eq_left hmin, ← List.take_take, take_overwrite_end (by omega), List.take_append]
      simp only [List.take_take, List.length_take]
      congr 2 <;> omega
    have hold : b.pending = (b.raw.take b.write).drop b.read := by
      rw [Buffer.pending, List.drop_take]
    rw [hold, Buffer.pending, ← List.drop_take, hcut, List.drop_append_of_le_length]
    simp only [List.length_take]
    omega
  · exact ⟨rfl, rfl, hlen⟩

theorem bufferWrite_spec {b : Buffer} (hv : b.Valid) (c : UInt8) :
    ∃ b', bufferWrite b c = .ok b' ∧ b'.Valid ∧ b'.pending = b.pending ++ [c].take b.room ∧
      b.SameArray b' ∧ b'.read = b.read ∧ b'.room = b.room - 1 := by
  by_cases hc : b.write < b.limit
  · have hl := hv.limit_le
    have hroom : 1 ≤ b.room := by unfold Buffer.room; omega
    obtain ⟨b₁, b', hs, ha, hv', hp, hsame, hr, hw⟩ :=
      bufferWriteAdv_spec hv [c] (n := 1) (by simp; omega) (by simp) hroom
    have ha1 : bufferWriteAdv b₁ 1 = .ok b' := by simpa using ha
    refine ⟨b', by simp [bufferWrite, bufferCanWrite, hc, hs, ha1], hv', ?_, hsame, hr, ?_⟩
    · rw [hp, List.take_of_length_le (by simp), List.take_of_length_le (by simpa using hroom)]
    · unfold Buffer.room
      rw [hw, hsame.limit]
      omega
  · have hz : b.room = 0 := by unfold Buffer.room; omega
    exact ⟨b, by simp [bufferWrite, bufferCanWrite, hc], hv, by simp [hz], .refl b, rfl, by omega⟩

/-- Of the bytes written one after the other those that fit are kept, the rest is dropped. -/
theorem bufferWrites_spec {b : Buffer} (hv : b.Valid) (cs : List UInt8) :
    ∃ b', bufferWrites b cs = .ok b' ∧ b'.Valid ∧ b'.pending = b.pending ++ cs.take b.room ∧
      b.SameArray b' ∧ b'.read = b.read ∧ b'.room = b.room - cs.length := by
  induction cs generalizing b with
  | nil => exact ⟨b, rfl, hv, by simp, .refl b, rfl, by simp⟩
  | cons c cs ih =>
    obtain ⟨b₁, hb, hv₁, hp₁, hs₁, hr₁, hroom₁⟩ := bufferWrite_spec hv c
    obtain ⟨b', hb', hv', hp', hs', hr', hroom'⟩ := ih hv₁
    refine ⟨b', ?_, hv', ?_, hs₁.trans hs', hr'.trans hr₁, ?_⟩
    · have : bufferWrites b (c :: cs) = bufferWrite b c >>= fun b => bufferWrites b cs := rfl
      simp [this, hb, hb']
    · rw [hp', hp₁, hroom₁, List.append_assoc]
      cases b.room <;> simp
    · rw [hroom', hroom₁, List.length_cons]
      omega

end Smtpd
