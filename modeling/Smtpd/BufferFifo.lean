import Smtpd.BufferQueue
import Smtpd.Lib.BoundedQueue
import Smtpd.Lib.Runs

namespace Smtpd

open Checked CString Runs BoundedQueue

/-- What the code does with a buffer between `buffer_init` and the end of its life. -/
inductive BufferOp
  /-- `buffer_write_ptr`, a store of these bytes as far as they fit, and `buffer_write_adv` -/
  | writePtr (bytes : List UInt8) (n : Int)
  /-- `buffer_read_ptr`, a look at the bytes, and `buffer_read_adv` -/
  | readPtr (n : Int)
  | read
  | write (c : UInt8)
  | compact
  | reset
deriving DecidableEq, Repr

/-- The bytes that the caller gets, and the buffer afterwards. A caller announces no more than what it
stored, and no more than what it was told of. -/
def bufferCall (b : Buffer) : BufferOp → Result (List UInt8 × Buffer)
  | .writePtr bytes n => do
    let (ptr, nbyte) ← bufferWritePtr b
    let stored := bytes.take nbyte
    let b ← bufferStore b ptr stored
    let b ← bufferWriteAdv b (min n stored.length)
    .ok ([], b)
  | .readPtr n => do
    let (ptr, nbyte) ← bufferReadPtr b
    let bytes := (b.raw.drop ptr).take (min n nbyte).toNat
    let b ← bufferReadAdv b (min n nbyte)
    .ok (bytes, b)
  | .read => do
    let (c, b) ← bufferRead b
    .ok ([c], b)
  | .write c => do
    let b ← bufferWrite b c
    .ok ([], b)
  | .compact => .ok ([], bufferCompact b)
  | .reset => .ok ([], bufferReset b)

/-- What the same operation does with a queue. -/
def BufferOp.onQueue {n : Nat} (q : Queue UInt8 n) : BufferOp → List UInt8 × Queue UInt8 n
  | .writePtr bytes m => ([], q.append (bytes.take m.toNat))
  | .readPtr m => (q.items.take m.toNat, q.drop m.toNat)
  | .read => ([q.items.headD 0], q.drop 1)
  | .write c => ([], q.append [c])
  | .compact => ([], q.compact)
  | .reset => ([], .empty UInt8 n)

/-- One call after the other, with all the bytes that the callers got so far. -/
def bufferStep (s : List UInt8 × Buffer) (op : BufferOp) : Result (List UInt8 × Buffer) := do
  let (bytes, b) ← bufferCall s.2 op
  .ok (s.1 ++ bytes, b)

def queueStep {n : Nat} (s : List UInt8 × Queue UInt8 n) (op : BufferOp) : List UInt8 × Queue UInt8 n :=
  (s.1 ++ (op.onQueue s.2).1, (op.onQueue s.2).2)

/-- A buffer over an array of `n` bytes that holds this queue. -/
structure Buffer.Holds {n : Nat} (b : Buffer) (q : Queue UInt8 n) : Prop where
  valid : b.Valid
  data : b.data = 0
  limit : b.limit = n
  items : b.pending = q.items
  room : b.room = q.room

section Calls

variable {n : Nat} {b b' : Buffer} {q : Queue UInt8 n}

theorem Buffer.Holds.count (h : b.Holds q) : b.write - b.read = q.items.length := by
  rw [← h.items, h.valid.length_pending]

theorem Buffer.Holds.write_eq (h : b.Holds q) : b.write + q.room = n := by
  have hw := h.valid.write_le
  have hr := h.room
  have hl := h.limit
  unfold Buffer.room at hr
  omega

theorem holds_reset (h : b.Holds q) : (bufferReset b).Holds (.empty UInt8 n) := by
  have hd := h.valid.data_le
  have hr := h.valid.read_le
  have hw := h.valid.write_le
  obtain ⟨hv, hp⟩ := bufferReset_valid (b := b) (by omega) h.valid.limit_le
  refine ⟨hv, h.data, h.limit, hp, ?_⟩
  show b.limit - b.data = n
  rw [h.limit, h.data, Nat.sub_zero]

/-- Compaction moves the bytes and nothing else. -/
theorem holds_compact (h : b.Holds q) : (bufferCompact b).Holds q.compact := by
  have hd := h.data
  have hl := h.limit
  have hr := h.valid.read_le
  have hw := h.valid.write_le
  have hcap := h.valid.limit_le
  have hcount := h.count
  unfold bufferCompact
  split_ifs with hstart hempty
  · refine ⟨h.valid, h.data, h.limit, h.items, ?_⟩
    show b.limit - b.write = n - q.items.length
    omega
  · have hz : q.items = [] := List.length_eq_zero_iff.mp (by omega)
    refine ⟨⟨le_rfl, le_rfl, by simp; omega, hcap, fun _ => rfl⟩, h.data, h.limit, ?_, ?_⟩
    · show _ = q.items
      rw [hz]
      simp [Buffer.pending]
    · show b.limit - b.data = n - q.items.length
      rw [hz, List.length_nil]
      omega
  · have hlen : b.pending.length = b.write - b.read := h.valid.length_pending
    have hfit : b.data + b.pending.length ≤ b.raw.length := by omega
    refine ⟨⟨le_rfl, by simp, by simp; omega, ?_, fun _ => rfl⟩, h.data, h.limit, ?_, ?_⟩
    · show b.limit ≤ (overwrite b.raw b.data b.pending).length
      rw [length_overwrite hfit]
      exact hcap
    · show ((overwrite b.raw b.data b.pending).drop b.data).take (b.data + (b.write - b.read) - b.data) = q.items
      rw [← h.items, ← hlen, ← List.drop_take, take_overwrite_end (by omega), hd]
      simp
    · show b.limit - (b.data + (b.write - b.read)) = n - q.items.length
      omega

theorem min_toNat {m : Int} (hm : 0 ≤ m) (l : Nat) : min m l = ((min m.toNat l : Nat) : Int) := by
  omega

/-- A negative count is announced by a failing system call, and nothing moves. -/
theorem bufferWriteAdv_toNat (hw : b.write ≤ b.limit) (m : Int) (l : Nat) :
    bufferWriteAdv b (min m l) = bufferWriteAdv b ((min m.toNat l : Nat) : Int) := by
  by_cases hm : 0 ≤ m
  · rw [min_toNat hm]
  · have hneg : ¬ min m (l : Int) > -1 := by omega
    have hzero : min m.toNat l = 0 := by omega
    rw [hzero]
    simp [bufferWriteAdv, hneg, hw]

theorem bufferReadAdv_zero (hv : b.Valid) : bufferReadAdv b ((0 : Nat) : Int) = .ok b := by
  have hstay : bufferReadAdv b ((0 : Nat) : Int) = .ok (if b.read = b.write then bufferCompact b else b) := by
    simp [bufferReadAdv, hv.read_le]
  rw [hstay]
  split_ifs with he
  · have hdata : b.data = b.read := (hv.rewound he).symm
    rw [bufferCompact, if_pos hdata]
  · rfl

theorem bufferReadAdv_toNat (hv : b.Valid) (m : Int) (l : Nat) :
    bufferReadAdv b (min m l) = bufferReadAdv b ((min m.toNat l : Nat) : Int) := by
  by_cases hm : 0 ≤ m
  · rw [min_toNat hm]
  · have hneg : ¬ min m (l : Int) > -1 := by omega
    have hzero : min m.toNat l = 0 := by omega
    rw [hzero]
    rw [bufferReadAdv_zero hv]
    exact if_neg hneg

/-- Reading on: what the queue runs out of makes room. -/
theorem holds_readAdv (h : b.Holds q) {k : Nat} (hk : k ≤ q.items.length) :
    ∃ b', bufferReadAdv b k = .ok b' ∧ b'.Holds (q.drop k) := by
  obtain ⟨b', hadv, hv, hp, hsame⟩ := bufferReadAdv_spec h.valid (n := k) (by rw [h.items]; exact hk)
  have hitems : b'.pending = q.items.drop k := by rw [hp, h.items]
  refine ⟨b', hadv, hv, hsame.data.trans h.data, hsame.limit.trans h.limit, hitems, ?_⟩
  show b'.room = if q.items.length ≤ k then n else q.room
  split_ifs with hall
  · rw [hv.room_of_empty (hitems.trans (List.drop_eq_nil_of_le hall)), hsame.data, hsame.limit, h.data, h.limit]
    exact Nat.sub_zero n
  · have hcount := h.count
    have hint : ((k : Int) > -1) := by omega
    have hle : b.read + k ≤ b.write := by omega
    have hne : ¬ b.read + k = b.write := by omega
    simp only [bufferReadAdv, if_pos hint, Int.toNat_natCast, if_pos hle, if_neg hne] at hadv
    cases hadv
    exact h.room

/-- Writing on: what fits is appended. -/
theorem holds_writeAdv (h : b.Holds q) {xs : List UInt8} {k : Nat} (hx : xs.length ≤ q.room) (hk : k ≤ xs.length) :
    ∃ b₁ b', bufferStore b b.write xs = .ok b₁ ∧ bufferWriteAdv b₁ k = .ok b' ∧ b'.Holds (q.append (xs.take k)) := by
  have hroom := h.room
  have hcap := h.valid.limit_le
  have hw := h.write_eq
  have hl := h.limit
  obtain ⟨b₁, b', hstore, hadv, hv, hp, hsame, -, hwrite⟩ :=
    bufferWriteAdv_spec h.valid xs (n := k) (by omega) hk (by omega)
  have hlen : (xs.take k).length = k := List.length_take_of_le hk
  refine ⟨b₁, b', hstore, hadv, hv, hsame.data.trans h.data, hsame.limit.trans h.limit, ?_, ?_⟩
  · show b'.pending = q.items ++ (xs.take k).take q.room
    rw [hp, h.items, List.take_of_length_le (l := xs.take k) (by omega)]
  · show b'.room = q.room - (xs.take k).length
    unfold Buffer.room at hroom ⊢
    rw [hwrite, hsame.limit, hlen]
    omega

theorem bufferCall_holds (h : b.Holds q) (op : BufferOp) :
    ∃ bytes b', bufferCall b op = .ok (bytes, b') ∧ bytes = (op.onQueue q).1 ∧ b'.Holds (op.onQueue q).2 := by
  have hroom := h.room
  have hcount := h.count
  cases op with
  | writePtr bytes m =>
    have hptr : bufferWritePtr b = .ok (b.write, q.room) := by
      rw [← hroom]
      exact if_pos h.valid.write_le
    have hfit : (bytes.take q.room).length ≤ q.room := List.length_take_le _ _
    obtain ⟨b₁, b', hstore, hadv, hb'⟩ := holds_writeAdv h hfit (Nat.min_le_right m.toNat (bytes.take q.room).length)
    have hsame : b₁.write ≤ b₁.limit := by
      unfold bufferStore at hstore
      split_ifs at hstore
      cases hstore
      exact h.valid.write_le
    have hall : bufferCall b (.writePtr bytes m) = .ok ([], b') := by
      simp only [bufferCall, hptr, ok_bind, hstore, bufferWriteAdv_toNat hsame, hadv]
    refine ⟨[], b', hall, rfl, ?_⟩
    have htaken : q.append ((bytes.take q.room).take (min m.toNat (bytes.take q.room).length)) =
        q.append (bytes.take m.toNat) := by
      rw [← List.take_eq_take_min, List.take_take, Nat.min_comm, ← List.take_take, Queue.append_take_room]
    show b'.Holds (q.append (bytes.take m.toNat))
    rw [← htaken]
    exact hb'
  | readPtr m =>
    have hptr : bufferReadPtr b = .ok (b.read, q.items.length) := by
      rw [← hcount]
      exact if_pos h.valid.read_le
    obtain ⟨b', hadv, hb'⟩ := holds_readAdv h (Nat.min_le_right m.toNat q.items.length)
    have hbytes : (b.raw.drop b.read).take (min m q.items.length).toNat = q.items.take m.toNat := by
      have hcut : (min m q.items.length).toNat = min (min m.toNat q.items.length) (b.write - b.read) := by omega
      rw [hcut, ← List.take_take]
      show b.pending.take _ = _
      rw [h.items, ← List.take_eq_take_min]
    have hall : bufferCall b (.readPtr m) = .ok (q.items.take m.toNat, b') := by
      simp only [bufferCall, hptr, ok_bind, hbytes, bufferReadAdv_toNat h.valid, hadv]
    refine ⟨_, b', hall, rfl, ?_⟩
    show b'.Holds (q.drop m.toNat)
    rw [← Queue.drop_min]
    exact hb'
  | read =>
    show ∃ bytes b', bufferCall b .read = .ok (bytes, b') ∧ bytes = [q.items.headD 0] ∧ b'.Holds (q.drop 1)
    cases hq : q.items with
    | nil =>
      have hno : bufferCanRead b = false := by
        have hnot := h.valid.canRead_iff.not.mpr (not_not.mpr (h.items.trans hq))
        simpa using hnot
      refine ⟨[0], b, by simp [bufferCall, bufferRead, hno], rfl, ?_⟩
      rw [Queue.drop_nil hq]
      exact h
    | cons c rest =>
      obtain ⟨b', hread, -⟩ := bufferRead_cons h.valid (h.items.trans hq)
      have hcan : bufferCanRead b = true := h.valid.canRead_iff.mpr (by rw [h.items, hq]; exact List.cons_ne_nil c rest)
      have hadv : bufferReadAdv b ((1 : Nat) : Int) = .ok b' := by
        have hsplit := hread
        rw [bufferRead, if_pos hcan] at hsplit
        obtain ⟨c', -, hsplit⟩ := bind_ok hsplit
        obtain ⟨b₁, hadv, hsplit⟩ := bind_ok hsplit
        cases hsplit
        exact hadv
      obtain ⟨b₁, hadv', hb₁⟩ := holds_readAdv h (k := 1) (by rw [hq, List.length_cons]; omega)
      obtain rfl : b' = b₁ := Except.ok.inj (hadv.symm.trans hadv')
      exact ⟨[c], b', by simp [bufferCall, hread], rfl, hb₁⟩
  | write c =>
    show ∃ bytes b', bufferCall b (.write c) = .ok (bytes, b') ∧ bytes = [] ∧ b'.Holds (q.append [c])
    by_cases hfull : q.room = 0
    · have hno : bufferCanWrite b = false := by
        have heq := h.write_eq
        have hl := h.limit
        simp only [bufferCanWrite, decide_eq_false_iff_not]
        omega
      refine ⟨[], b, by simp [bufferCall, bufferWrite, hno], rfl, ?_⟩
      rw [Queue.append_full hfull]
      exact h
    · have hcan : bufferCanWrite b = true := by
        have heq := h.write_eq
        have hl := h.limit
        simp only [bufferCanWrite, decide_eq_true_eq]
        omega
      have hroom1 : [c].length ≤ q.room := by
        rw [List.length_singleton]
        omega
      obtain ⟨b₁, b', hstore, hadv, hb'⟩ := holds_writeAdv h hroom1 (k := 1) le_rfl
      have hadv1 : bufferWriteAdv b₁ 1 = .ok b' := hadv
      exact ⟨[], b', by simp [bufferCall, bufferWrite, hcan, hstore, hadv1], rfl, hb'⟩
  | compact => exact ⟨[], _, rfl, rfl, holds_compact h⟩
  | reset => exact ⟨[], _, rfl, rfl, holds_reset h⟩

/-- A run of calls, and the same run on a queue. -/
def Follows (s : List UInt8 × Buffer) (t : List UInt8 × Queue UInt8 n) : Prop := s.1 = t.1 ∧ s.2.Holds t.2

theorem bufferStep_follows (s : List UInt8 × Buffer) (t : List UInt8 × Queue UInt8 n) (op : BufferOp)
    (h : Follows s t) : Ensures (fun s' => Follows s' (queueStep t op)) (fun _ => False) (bufferStep s op) := by
  obtain ⟨hout, hb⟩ := h
  obtain ⟨bytes, b', hcall, hbytes, hb'⟩ := bufferCall_holds hb op
  have hstep : bufferStep s op = .ok (s.1 ++ bytes, b') := by
    rw [bufferStep, hcall]
    rfl
  rw [hstep]
  exact ⟨congrArg₂ (· ++ ·) hout hbytes, hb'⟩

end Calls

/-- In every sequence of operations after `buffer_init` no assertion fails, the pointers stay in order
and in place, the callers get what they would get from a queue, and between the pointers is the queue. An
empty queue leaves the whole array writable. -/
theorem buffer_refines_queue {n : Nat} (raw : List UInt8) (hraw : n ≤ raw.length) (ops : List BufferOp) :
    ∃ out b, run bufferStep ([], bufferInit n raw) ops = .ok (out, b) ∧
      b.data = 0 ∧ b.limit = n ∧ b.data ≤ b.read ∧ b.read ≤ b.write ∧ b.write ≤ b.limit ∧
      out = (ops.foldl queueStep ([], Queue.empty UInt8 n)).1 ∧
      b.pending = (ops.foldl queueStep ([], Queue.empty UInt8 n)).2.items ∧
      (b.pending = [] → b.read = b.data ∧ b.write = b.data ∧ bufferWritePtr b = .ok (b.data, n)) := by
  have hstart : (bufferInit n raw).Holds (Queue.empty UInt8 n) := by
    obtain ⟨hv, hp⟩ := bufferInit_valid hraw
    exact ⟨hv, rfl, rfl, hp, Nat.sub_zero n⟩
  obtain ⟨⟨out, b⟩, h, hout, hb⟩ :=
    (run_simulates bufferStep_follows (show Follows ([], bufferInit n raw) ([], Queue.empty UInt8 n) from
      ⟨rfl, hstart⟩)).exists_ok
  refine ⟨out, b, h, hb.data, hb.limit, hb.valid.data_le, hb.valid.read_le, hb.valid.write_le, hout, hb.items, ?_⟩
  intro hempty
  have heq := hb.valid.pending_eq_nil_iff.mp hempty
  have hread := hb.valid.rewound heq
  refine ⟨hread, heq.symm.trans hread, ?_⟩
  rw [bufferWritePtr, if_pos hb.valid.write_le, ← heq, hread, hb.limit, hb.data, Nat.sub_zero]

/-- A full buffer drops a byte, and takes it once it is compacted. -/
theorem buffer_refines_queue_compacted :
    ∃ out b, run bufferStep ([], bufferInit 4 [0, 0, 0, 0])
        [.writePtr [1, 2, 3, 4] 4, .readPtr 2, .write 5, .compact, .write 5, .read] = .ok (out, b) ∧
      out = [1, 2, 3] ∧ b.pending = [4, 5] := by
  obtain ⟨out, b, h, -, -, -, -, -, hout, hitems, -⟩ := buffer_refines_queue (n := 4) [0, 0, 0, 0] le_rfl
    [.writePtr [1, 2, 3, 4] 4, .readPtr 2, .write 5, .compact, .write 5, .read]
  exact ⟨out, b, h, hout, hitems⟩

end Smtpd
