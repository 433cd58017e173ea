import Smtpd.DataDetection

namespace Smtpd

open Checked Incremental

/-- A call of `data_consume` that read `front`. -/
structure DataConsumed (b : Buffer) (p : DataParser) (front : List UInt8) (b' : Buffer) (q : DataParser) : Prop where
  input : b.pending = front ++ b'.pending
  source : b'.Valid
  same : b.SameArray b'
  state : q.state = dataRun p.state front
  sink : q.dataBuffer.Valid
  sameArray : p.dataBuffer.SameArray q.dataBuffer
  read : q.dataBuffer.read = p.dataBuffer.read
  output : q.dataBuffer.pending = p.dataBuffer.pending ++ (dataWritten p.state front).take p.dataBuffer.room
  rest : q.state ≠ .done → b'.pending = []
  first : p.state ≠ .done → ∀ m < front.length, dataRun p.state (front.take m) ≠ .done

section Calls

variable {b b' b₁ b₁' b₂ : Buffer} {p q p₁ : DataParser} {front x y : List UInt8}

theorem dataFeedUntil_total (hp : p.dataBuffer.Valid) (u : List UInt8) :
    ∃ q rest, dataParser.feedUntil p u = .ok (q, rest) := by
  induction u generalizing p with
  | nil => exact ⟨p, [], rfl⟩
  | cons c u ih =>
    obtain ⟨q, hq, -, hv, -⟩ := dataFeedAll_ok hp [c]
    obtain ⟨q', hfeed, hq⟩ := bind_ok hq
    cases hq
    by_cases hd : dataParser.done q = true
    · exact ⟨q, u, by simp [Parser.feedUntil, hfeed, hd]⟩
    · obtain ⟨r, rest, hr⟩ := ih hv
      exact ⟨r, rest, by simp [Parser.feedUntil, hfeed, hd, hr]⟩

/-- What a call has done that came back. -/
theorem dataConsume_inv (hb : b.Valid) (hp : p.dataBuffer.Valid) (h : dataConsume b p = .ok (b', q)) :
    ∃ front, DataConsumed b p front b' q := by
  obtain ⟨hfeed, hv, hsame⟩ := consume_inv hb h
  obtain ⟨front, hfront, hall, hrest⟩ := Parser.feedUntil_front hfeed
  obtain ⟨q', hq', hstate, hsink, harray, hread, hout⟩ := dataFeedAll_ok hp front
  obtain rfl : q' = q := Except.ok.inj (hq'.symm.trans hall)
  refine ⟨front, hfront, hv, hsame, hstate, hsink, harray, hread, hout, ?_, ?_⟩
  · intro hn
    exact hrest (dataIsDone_eq_false.mpr hn)
  · intro hopen m hm
    obtain ⟨front', hfront', -, -, hbefore⟩ := Parser.feedUntil_trace (dataIsDone_eq_false.mpr hopen) hfeed
    obtain rfl : front = front' := List.append_cancel_right (hfront.symm.trans hfront')
    obtain ⟨r, hr, hn⟩ := hbefore m hm
    obtain ⟨r', hr', hstate', -⟩ := dataFeedAll_ok hp (front.take m)
    obtain rfl : r' = r := Except.ok.inj (hr'.symm.trans hr)
    rw [← hstate']
    exact dataIsDone_eq_false.mp hn

/-- Every call comes back. -/
theorem dataConsume_total (hb : b.Valid) (hp : p.dataBuffer.Valid) :
    ∃ front b' q, dataConsume b p = .ok (b', q) ∧ DataConsumed b p front b' q := by
  obtain ⟨q, rest, hfeed⟩ := dataFeedUntil_total hp b.pending
  obtain ⟨b', hconsume, -⟩ := consume_ok hb hfeed
  obtain ⟨front, h⟩ := dataConsume_inv hb hp hconsume
  exact ⟨front, b', q, hconsume, h⟩

/-- Every byte written takes its place. -/
theorem DataConsumed.room (hp : p.dataBuffer.Valid) (h : DataConsumed b p front b' q) :
    q.dataBuffer.room + ((dataWritten p.state front).take p.dataBuffer.room).length = p.dataBuffer.room := by
  have hbefore := hp.length_pending
  have hafter := h.sink.length_pending
  have hlen := congrArg List.length h.output
  have hread := hp.read_le
  have hread' := h.sink.read_le
  have hwrite' := h.sink.write_le
  rw [List.length_append, hbefore, hafter, h.read] at hlen
  rw [h.sameArray.limit] at hwrite'
  unfold Buffer.room at hlen ⊢
  rw [h.sameArray.limit]
  rw [h.read] at hread'
  omega

/-- The end of the message is final, so the unread bytes behind it would not change the state. -/
theorem DataConsumed.state_all (h : DataConsumed b p front b' q) : q.state = dataRun p.state b.pending := by
  rw [h.input, dataRun_append, ← h.state]
  by_cases hd : q.state = .done
  · rw [hd, dataRun_done]
  · rw [h.rest hd]
    rfl

theorem DataConsumed.written_all (h : DataConsumed b p front b' q) :
    dataWritten p.state front = dataWritten p.state b.pending := by
  rw [h.input, dataWritten_append, ← h.state]
  by_cases hd : q.state = .done
  · rw [hd, dataWritten_done, List.append_nil]
  · rw [h.rest hd]
    exact (List.append_nil _).symm

/-- What is left over from a call counts only if the call came to the end of the message, where it
counts for nothing. -/
theorem DataConsumed.continues (h : DataConsumed b p front b' q) (y : List UInt8) :
    dataRun q.state (b'.pending ++ y) = dataRun p.state (b.pending ++ y) ∧
      dataWritten p.state front ++ dataWritten q.state (b'.pending ++ y) = dataWritten p.state (b.pending ++ y) := by
  rw [dataRun_append p.state, dataWritten_append p.state, ← h.state_all, ← h.written_all]
  by_cases hd : q.state = .done
  · rw [hd, dataRun_done, dataRun_done, dataWritten_done, dataWritten_done]
    exact ⟨rfl, rfl⟩
  · rw [h.rest hd, List.nil_append]
    exact ⟨rfl, rfl⟩

theorem DataConsumed.conserves (h : DataConsumed b p front b' q) (hopen : p.state ≠ .done) :
    p.state.held ++ front = dataWritten p.state front ++ q.state.held := by
  rw [h.state]
  exact held_append (h.first hopen)

theorem held_length_open {st : DataState} (h : st ≠ .done) : st.held.length ≤ 4 := by
  cases st <;> first | exact absurd rfl h | decide

/-- No more is written than was held back and is read. -/
theorem DataConsumed.fits (h : DataConsumed b p front b' q) (hopen : p.state ≠ .done) :
    (dataWritten p.state front).length ≤ front.length + 4 := by
  have hlen := congrArg List.length (h.conserves hopen)
  have hheld := held_length_open hopen
  rw [List.length_append, List.length_append] at hlen
  omega

/-- `data_consume` loses, invents and reorders nothing: what the state held back and what is read is
written or held back. It stops behind the delimiter, or else reads everything, and where the input is cut
between two calls does not matter. -/
theorem data_consume_conserves (hb : b.Valid) (hp : p.dataBuffer.Valid) (hopen : p.state ≠ .done)
    (hroom : b.pending.length + 4 ≤ p.dataBuffer.room) :
    ∃ b' q consumed emitted, dataConsume b p = .ok (b', q) ∧ b.pending = consumed ++ b'.pending ∧
      q.dataBuffer.pending = p.dataBuffer.pending ++ emitted ∧
      p.state.held ++ consumed = emitted ++ q.state.held ∧
      (q.state = .done → ∀ m < consumed.length, dataRun p.state (consumed.take m) ≠ .done) ∧
      (q.state ≠ .done → b'.pending = []) ∧
      ∀ x y b₁ b₁' b₂ p₁, b.pending = x ++ y → b₁.Valid → b₁.pending = x → dataConsume b₁ p = .ok (b₁', p₁) →
        b₂.Valid → b₂.pending = b₁'.pending ++ y →
        ∃ b₂' q₂, dataConsume b₂ p₁ = .ok (b₂', q₂) ∧ q₂.state = q.state ∧
          q₂.dataBuffer.pending = q.dataBuffer.pending := by
  obtain ⟨front, b', q, hconsume, h⟩ := dataConsume_total hb hp
  have hlen := congrArg List.length h.input
  rw [List.length_append] at hlen
  have hfits : (dataWritten p.state front).length ≤ p.dataBuffer.room := by
    have hf := h.fits hopen
    omega
  have hout : q.dataBuffer.pending = p.dataBuffer.pending ++ dataWritten p.state front := by
    rw [h.output, List.take_of_length_le hfits]
  refine ⟨b', q, front, dataWritten p.state front, hconsume, h.input, hout, h.conserves hopen,
    fun _ => h.first hopen, h.rest, ?_⟩
  intro x y b₁ b₁' b₂ p₁ hcut hb₁ hx hcall hb₂ hy
  obtain ⟨f₁, h₁⟩ := dataConsume_inv hb₁ hp hcall
  obtain ⟨f₂, b₂', q₂, hcall₂, h₂⟩ := dataConsume_total hb₂ h₁.sink
  obtain ⟨hstate, hwritten⟩ := h₁.continues y
  rw [← hy, hx, ← hcut] at hstate hwritten
  rw [← h.written_all, ← h₂.written_all] at hwritten
  refine ⟨b₂', q₂, hcall₂, h₂.state_all.trans (hstate.trans h.state_all.symm), ?_⟩
  have hsum := congrArg List.length hwritten
  rw [List.length_append] at hsum
  have hfits₁ : (dataWritten p.state f₁).length ≤ p.dataBuffer.room := by omega
  have hleft : (dataWritten p₁.state f₂).length ≤ p₁.dataBuffer.room := by
    have hroom₁ := h₁.room hp
    rw [List.length_take] at hroom₁
    omega
  rw [h₂.output, List.take_of_length_le hleft, h₁.output, List.take_of_length_le hfits₁, List.append_assoc, hwritten, hout]

/-- A message that ends in the middle of the input. -/
theorem data_consume_conserves_ends :
    ∃ b' q consumed emitted, dataConsume (fixbuf (ascii "hi\r\n.\r\nQUIT")) blankDataParser = .ok (b', q) ∧
      consumed = emitted ++ q.state.held ∧ q.state = .done ∧ b'.pending = ascii "QUIT" := by
  have hblank : blankDataParser.dataBuffer.Valid := (bufferInit_valid List.length_replicate.ge).1
  obtain ⟨b', q, consumed, emitted, hcall, -, -, hsplit, -⟩ := data_consume_conserves
    (fixbuf_valid (ascii "hi\r\n.\r\nQUIT")) hblank (by decide) (by decide)
  have hany : ((dataConsume (fixbuf (ascii "hi\r\n.\r\nQUIT")) blankDataParser).toOption.any
      fun r => decide (r.2.state = .done ∧ r.1.pending = ascii "QUIT")) = true := by
    decide +kernel
  obtain ⟨r, hr, hdone, hrest⟩ := ok_of_any hany
  obtain rfl : (b', q) = r := Except.ok.inj (hcall.symm.trans hr)
  exact ⟨b', q, consumed, emitted, hcall, hsplit, hdone, hrest⟩

end Calls

end Smtpd
