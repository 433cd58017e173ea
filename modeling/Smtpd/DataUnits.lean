import Smtpd.Data

namespace Smtpd

open Checked Incremental

/-- Bodies cut into units: a byte other than CR, or a beginning of the delimiter
together with the byte that breaks it off. The breaking byte belongs to the unit it
ends, so it never begins the next one. -/
inductive DataUnits : List UInt8 → Prop
  | nil : DataUnits []
  | byte {u c} : DataUnits u → c ≠ CR → DataUnits (u ++ [c])
  | cr {u c} : DataUnits u → c ≠ LF → DataUnits (u ++ [CR, c])
  | crlf {u c} : DataUnits u → c ≠ DOT → DataUnits (u ++ [CR, LF, c])
  | crlfdot {u c} : DataUnits u → c ≠ CR → DataUnits (u ++ [CR, LF, DOT, c])
  | crlfdotcr {u c} : DataUnits u → c ≠ LF → DataUnits (u ++ [CR, LF, DOT, CR, c])

def dataRun (st : DataState) (u : List UInt8) : DataState := u.foldl (fun s c => (s.step c).1) st

@[simp] theorem dataRun_nil (st : DataState) : dataRun st [] = st := rfl

@[simp] theorem dataRun_cons (st : DataState) (c : UInt8) (u : List UInt8) :
    dataRun st (c :: u) = dataRun (st.step c).1 u := rfl

theorem dataRun_append (st : DataState) (u v : List UInt8) :
    dataRun st (u ++ v) = dataRun (dataRun st u) v := by
  simp [dataRun]

theorem dataRun_concat (st : DataState) (u : List UInt8) (c : UInt8) :
    dataRun st (u ++ [c]) = ((dataRun st u).step c).1 := by
  simp [dataRun]

theorem dataRun_done (u : List UInt8) : dataRun .done u = .done := by
  induction u with
  | nil => rfl
  | cons c u ih => exact ih

/-- The bytes written while a run reads. -/
def dataWritten (st : DataState) : List UInt8 → List UInt8
  | [] => []
  | c :: u => (st.step c).2 ++ dataWritten (st.step c).1 u

theorem dataWritten_done (u : List UInt8) : dataWritten .done u = [] := by
  induction u with
  | nil => rfl
  | cons c u ih => exact ih

theorem dataWritten_append (st : DataState) (u v : List UInt8) :
    dataWritten st (u ++ v) = dataWritten st u ++ dataWritten (dataRun st u) v := by
  induction u generalizing st with
  | nil => rfl
  | cons c u ih => simp [dataWritten, ih]

/-- What was held back and what is read is written or held back, as long as the run is not
over before its last byte. -/
theorem held_append {st : DataState} {u : List UInt8}
    (before : ∀ m < u.length, dataRun st (u.take m) ≠ .done) :
    st.held ++ u = dataWritten st u ++ (dataRun st u).held := by
  induction u using List.reverseRecOn with
  | nil => simp [dataWritten]
  | append_singleton u c ih =>
    have hu : dataRun st u ≠ .done := by simpa using before u.length (by simp)
    have hbefore : ∀ m < u.length, dataRun st (u.take m) ≠ .done := by
      intro m hm
      have := before m (by simp; omega)
      rwa [List.take_append_of_le_length (by omega)] at this
    have hstep := DataState.step_held hu c
    calc st.held ++ (u ++ [c]) = dataWritten st u ++ ((dataRun st u).held ++ [c]) := by
          rw [← List.append_assoc, ih hbefore, List.append_assoc]
      _ = dataWritten st (u ++ [c]) ++ (dataRun st (u ++ [c])).held := by
          rw [hstep, dataWritten_append, dataRun_concat]
          simp [dataWritten]

theorem dataRun_held (st : DataState) : dataRun .data st.held = st := by
  cases st <;> rfl

/-- A step that writes completes a unit, any other step extends the bytes held back. -/
theorem DataState.step_units {st : DataState} {f : List UInt8} {c : UInt8} (hf : DataUnits f)
    (h : st ≠ .done) :
    ((st.step c).1 = .data ∧ DataUnits (f ++ st.held ++ [c])) ∨
      (st.step c).1.held = st.held ++ [c] := by
  cases st with
  | done => exact absurd rfl h
  | data =>
    by_cases hc : c = CR
    · right; simp [DataState.step, DataState.held, hc]
    · left; simpa [DataState.step, DataState.held, hc] using hf.byte hc
  | cr =>
    by_cases hc : c = LF
    · right; simp [DataState.step, DataState.held, hc]
    · left; simpa [DataState.step, DataState.held, hc] using hf.cr hc
  | crlf =>
    by_cases hc : c = DOT
    · right; simp [DataState.step, DataState.held, hc]
    · left; simpa [DataState.step, DataState.held, hc] using hf.crlf hc
  | crlfdot =>
    by_cases hc : c = CR
    · right; simp [DataState.step, DataState.held, hc]
    · left; simpa [DataState.step, DataState.held, hc] using hf.crlfdot hc
  | crlfdotcr =>
    by_cases hc : c = LF
    · right; simp [DataState.step, DataState.held, hc]
    · left; simpa [DataState.step, DataState.held, hc] using hf.crlfdotcr hc

theorem dataRun_not_done_concat {u : List UInt8} {c : UInt8}
    (h : dataRun .data (u ++ [c]) ≠ .done) : dataRun .data u ≠ .done := by
  intro hd
  exact h (by rw [dataRun_append, hd, dataRun_done])

/-- While the parser is not done, what it has read is units and then the bytes held back. -/
theorem dataRun_units_held {u : List UInt8} (h : dataRun .data u ≠ .done) :
    ∃ f, DataUnits f ∧ u = f ++ (dataRun .data u).held := by
  induction u using List.reverseRecOn with
  | nil => exact ⟨[], .nil, rfl⟩
  | append_singleton u c ih =>
    have hu := dataRun_not_done_concat h
    obtain ⟨f, hf, heq⟩ := ih hu
    rw [dataRun_concat]
    rcases DataState.step_units (c := c) hf hu with ⟨hd, hunit⟩ | hheld
    · exact ⟨_, hunit, by rw [hd, ← heq]; simp [DataState.held]⟩
    · exact ⟨f, hf, by rw [hheld, ← List.append_assoc, ← heq]⟩

/-- The parser gets done on a delimiter that follows units, and there only. -/
theorem dataRun_done_units {u : List UInt8} {c : UInt8} (hu : dataRun .data u ≠ .done)
    (hd : dataRun .data (u ++ [c]) = .done) : ∃ f, DataUnits f ∧ u ++ [c] = f ++ delimiter := by
  obtain ⟨f, hf, heq⟩ := dataRun_units_held hu
  rw [dataRun_concat] at hd
  rcases DataState.step_units (c := c) hf hu with ⟨hdata, -⟩ | hheld
  · rw [hdata] at hd
    cases hd
  · rw [hd] at hheld
    exact ⟨f, hf, by rw [heq, List.append_assoc, ← hheld]; rfl⟩

theorem dataRun_of_units {f : List UInt8} (hf : DataUnits f) : dataRun .data f = .data := by
  induction hf with
  | nil => rfl
  | byte _ hc ih => rw [dataRun_append, ih]; simp [DataState.step, hc]
  | cr _ hc ih => rw [dataRun_append, ih]; simp [DataState.step, hc]
  | crlf _ hc ih => rw [dataRun_append, ih]; simp [DataState.step, hc]
  | crlfdot _ hc ih => rw [dataRun_append, ih]; simp [DataState.step, hc]
  | crlfdotcr _ hc ih => rw [dataRun_append, ih]; simp [DataState.step, hc]

/-- What a parser writes until it is done completes units. -/
theorem dataWritten_units {st : DataState} {u : List UInt8} (hst : st ≠ .done)
    (before : ∀ m < u.length, dataRun st (u.take m) ≠ .done) : DataUnits (dataWritten st u) := by
  have hrun : ∀ v, dataRun .data (st.held ++ v) = dataRun st v := by
    intro v
    rw [dataRun_append, dataRun_held]
  have hsplit := held_append before
  by_cases hd : dataRun st u = .done
  · rcases List.eq_nil_or_concat' u with rfl | ⟨v, c, rfl⟩
    · exact absurd hd hst
    · have hv : dataRun .data (st.held ++ v) ≠ .done := by
        rw [hrun]
        simpa using before v.length (by simp)
      obtain ⟨f, hf, heq⟩ := dataRun_done_units hv (c := c) (by rw [List.append_assoc, hrun, hd])
      rw [hd, ← List.append_assoc, heq] at hsplit
      exact List.append_cancel_right hsplit ▸ hf
  · obtain ⟨f, hf, heq⟩ := dataRun_units_held (u := st.held ++ u) (by rwa [hrun])
    rw [hrun, hsplit] at heq
    exact List.append_cancel_right heq ▸ hf

theorem dataRun_take_not_done {st : DataState} {u : List UInt8} (h : dataRun st u ≠ .done) (m : Nat) :
    dataRun st (u.take m) ≠ .done := by
  intro hd
  apply h
  rw [← List.take_append_drop m u, dataRun_append, hd, dataRun_done]

/-- Units at the beginning of what is held back and read are all written. -/
theorem units_le_written {st : DataState} {f r u : List UInt8} (hf : DataUnits f)
    (h : st.held ++ u = f ++ r) : f.length ≤ (dataWritten st u).length := by
  have hheld : dataWritten .data st.held = [] := by cases st <;> rfl
  have hrun := dataRun_of_units hf
  have hwhole : f = dataWritten .data f := by
    have hsplit := @held_append .data f
      fun m _ => dataRun_take_not_done (by rw [hrun]; decide) m
    simpa [hrun, DataState.held] using hsplit
  have hwritten : dataWritten st u = dataWritten .data f ++ dataWritten .data r := by
    calc dataWritten st u = dataWritten .data (st.held ++ u) := by
          rw [dataWritten_append, hheld, dataRun_held, List.nil_append]
      _ = dataWritten .data f ++ dataWritten .data r := by rw [h, dataWritten_append, hrun]
  rw [hwritten, ← hwhole, List.length_append]
  omega

end Smtpd
