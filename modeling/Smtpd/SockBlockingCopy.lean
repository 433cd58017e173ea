import Smtpd.Lib.CString
import Smtpd.Lib.Runs

namespace Smtpd.Netutils

open Checked CString

/-- What `errno` is when a call has failed. -/
abbrev Errno := { errno : Int // errno ≠ 0 }

/-- What the call under way gives: `recv` from the source, or `send` to the destination. -/
inductive SocketResult
  | received (bytes : List UInt8)
  | closed
  | recvFailed (errno : Errno)
  | sent (n : Nat)
  | sendFailed (errno : Errno)
deriving DecidableEq

/-- Where `sock_blocking_copy` is: in one of its calls, or behind the loops. -/
inductive CopyPhase
  | recv
  | send (outPtr nread : Nat)
  | returned (ret : Int)
deriving DecidableEq, Repr

/-- The state of `sock_blocking_copy`, with what has come from the source and what has gone to the destination. -/
structure CopyState where
  buf : List UInt8
  phase : CopyPhase
  received : List UInt8
  sent : List UInt8
deriving DecidableEq, Repr

inductive CopyFault
  /-- no result of the call under way -/
  | refused
deriving DecidableEq, Repr

/-- `buf` holds anything. -/
def copyInit (buf : Vector UInt8 4096) : CopyState := { buf := buf.toList, phase := .recv, received := [], sent := [] }

/-- From one result to the next call. -/
def copyStep (st : CopyState) (result : SocketResult) : Except CopyFault CopyState :=
  match st.phase, result with
  | .recv, .received bytes =>
    if 0 < bytes.length ∧ bytes.length ≤ st.buf.length then
      .ok { st with
        buf := overwrite st.buf 0 bytes, phase := .send 0 bytes.length, received := st.received ++ bytes }
    else .error .refused
  | .recv, .closed => .ok { st with phase := .returned 0 }
  -- `nread` is -1, which ends the loop as 0 does
  | .recv, .recvFailed _ => .ok { st with phase := .returned 0 }
  | .send outPtr nread, .sent n =>
    if 0 < n ∧ n ≤ nread then
      .ok { st with
        phase := if 0 < nread - n then .send (outPtr + n) (nread - n) else .recv
        sent := st.sent ++ (st.buf.drop outPtr).take n }
    else .error .refused
  | .send _ _, .sendFailed errno => .ok { st with phase := .returned errno }
  | _, _ => .error .refused

def SocketResult.failure : SocketResult → Option Errno
  | .recvFailed errno => some errno
  | .sendFailed errno => some errno
  | _ => none

/-- What goes to the destination is what came, in order and without repetition, and 0 is returned exactly at the end of
a stream that has been copied without failure. -/
structure Truthful (results : List SocketResult) (st : CopyState) : Prop where
  copied : st.sent <+: st.received
  zero : ∀ ret, st.phase = .returned ret →
    (ret = 0 ↔ .closed ∈ results ∧ ∀ result ∈ results, result.failure = none) ∧ (ret = 0 → st.sent = st.received)
  failed : ∀ ret result errno, st.phase = .returned ret → result ∈ results → result.failure = some errno → ret = errno

section Copy

variable {st st' : CopyState} {result : SocketResult} {results : List SocketResult} {buf : Vector UInt8 4096}

/-- The results after which the loops go on. -/
def SocketResult.Proceeds : SocketResult → Prop
  | .received _ | .sent _ => True
  | _ => False

/-- What has come is what has gone and what is still to go. -/
def CopyState.Holds (st : CopyState) : Prop :=
  match st.phase with
  | .recv => st.received = st.sent
  | .send outPtr nread => outPtr + nread ≤ st.buf.length ∧ st.received = st.sent ++ (st.buf.drop outPtr).take nread
  | .returned _ => st.sent <+: st.received

/-- How the function came to return. -/
def Ended (last : SocketResult) (ret : Int) (st : CopyState) : Prop :=
  last = .closed ∧ ret = 0 ∧ st.sent = st.received ∨ (∃ errno, last = .recvFailed errno ∧ ret = 0) ∨
    ∃ errno : Errno, last = .sendFailed errno ∧ ret = errno

/-- Only the last result makes the function return. -/
def Explained (results : List SocketResult) (st : CopyState) : Prop :=
  (∀ ret, st.phase ≠ .returned ret) ∧ (∀ result ∈ results, result.Proceeds) ∨
    ∃ ret before last, st.phase = .returned ret ∧ results = before ++ [last] ∧ (∀ result ∈ before, result.Proceeds) ∧
      Ended last ret st

theorem copyStep_received {bytes : List UInt8} (hphase : st.phase = .recv) (hst : st.Holds)
    (h : copyStep st (.received bytes) = .ok st') : st'.Holds ∧ st'.phase = .send 0 bytes.length := by
  obtain ⟨buf, phase, received, sent⟩ := st
  subst hphase
  have hsame : received = sent := hst
  simp only [copyStep] at h
  split at h
  next hlen =>
    cases h
    have hfits : 0 + bytes.length ≤ buf.length := by omega
    have htake := @take_overwrite_end _ buf bytes 0 (Nat.zero_le _)
    rw [Nat.zero_add, List.take_zero, List.nil_append] at htake
    refine ⟨⟨?_, ?_⟩, rfl⟩
    · rw [length_overwrite hfits]
      exact hfits
    · rw [hsame, List.drop_zero, htake]
  · cases h

theorem copyStep_sent {outPtr nread n : Nat} (hphase : st.phase = .send outPtr nread) (hst : st.Holds)
    (h : copyStep st (.sent n) = .ok st') : st'.Holds ∧ ∀ ret, st'.phase ≠ .returned ret := by
  obtain ⟨buf, phase, received, sent⟩ := st
  subst hphase
  obtain ⟨hin, hsplit⟩ : outPtr + nread ≤ buf.length ∧ received = sent ++ (buf.drop outPtr).take nread := hst
  simp only [copyStep] at h
  split at h
  next hn =>
    cases h
    have hparts : received = (sent ++ (buf.drop outPtr).take n) ++ (buf.drop (outPtr + n)).take (nread - n) := by
      rw [hsplit, List.append_assoc, ← List.drop_drop, ← List.take_add, Nat.add_sub_cancel' hn.2]
    unfold CopyState.Holds
    by_cases hmore : 0 < nread - n
    · simp only [if_pos hmore]
      refine ⟨⟨?_, hparts⟩, nofun⟩
      omega
    · have hzero : nread - n = 0 := Nat.eq_zero_of_not_pos hmore
      simp only [if_neg hmore]
      refine ⟨?_, nofun⟩
      rw [hparts, hzero, List.take_zero, List.append_nil]
  · cases h

theorem CopyState.Holds.copied (h : st.Holds) : st.sent <+: st.received := by
  unfold CopyState.Holds at h
  split at h
  · rw [h]
  · rw [h.2]
    exact List.prefix_append _ _
  · exact h

/-- The last result of a run, and how the run goes on or ends with it. -/
theorem copyStep_cases (hst : st.Holds) (h : copyStep st result = .ok st') :
    st'.Holds ∧ (∀ ret, st.phase ≠ .returned ret) ∧
      ((∀ ret, st'.phase ≠ .returned ret) ∧ result.Proceeds ∨ ∃ ret, st'.phase = .returned ret ∧ Ended result ret st') := by
  cases hphase : st.phase with
  | recv =>
    have hsame : st.received = st.sent := by simpa only [CopyState.Holds, hphase] using hst
    cases result with
    | received bytes =>
      obtain ⟨hholds, hsend⟩ := copyStep_received hphase hst h
      exact ⟨hholds, nofun, Or.inl ⟨fun ret => by rw [hsend]; exact nofun, trivial⟩⟩
    | closed =>
      simp only [copyStep, hphase] at h
      cases h
      exact ⟨hst.copied, nofun, Or.inr ⟨0, rfl, Or.inl ⟨rfl, rfl, hsame.symm⟩⟩⟩
    | recvFailed errno =>
      simp only [copyStep, hphase] at h
      cases h
      exact ⟨hst.copied, nofun, Or.inr ⟨0, rfl, Or.inr (Or.inl ⟨errno, rfl, rfl⟩)⟩⟩
    | sent n =>
      simp only [copyStep, hphase] at h
      cases h
    | sendFailed errno =>
      simp only [copyStep, hphase] at h
      cases h
  | send outPtr nread =>
    cases result with
    | sent n =>
      obtain ⟨hholds, hgoes⟩ := copyStep_sent hphase hst h
      exact ⟨hholds, nofun, Or.inl ⟨hgoes, trivial⟩⟩
    | sendFailed errno =>
      simp only [copyStep, hphase] at h
      cases h
      exact ⟨hst.copied, nofun, Or.inr ⟨errno, rfl, Or.inr (Or.inr ⟨errno, rfl, rfl⟩)⟩⟩
    | received bytes =>
      simp only [copyStep, hphase] at h
      cases h
    | closed =>
      simp only [copyStep, hphase] at h
      cases h
    | recvFailed errno =>
      simp only [copyStep, hphase] at h
      cases h
  | returned ret =>
    cases result <;> simp only [copyStep, hphase] at h <;> cases h

theorem run_explained (h : Runs.run copyStep (copyInit buf) results = .ok st) : st.Holds ∧ Explained results st := by
  refine @Runs.run_always _ _ _ copyStep (copyInit buf) st results (fun results st => st.Holds ∧ Explained results st)
    ⟨rfl, Or.inl ⟨nofun, nofun⟩⟩ ?_ h
  rintro results result st st' - ⟨hst, hexplained⟩ hstep
  obtain ⟨hholds, hrunning, hcases⟩ := copyStep_cases hst hstep
  have hproceed : ∀ result ∈ results, result.Proceeds := by
    obtain ⟨-, hproceed⟩ | ⟨ret, -, -, hret, -⟩ := hexplained
    · exact hproceed
    · exact absurd hret (hrunning ret)
  refine ⟨hholds, ?_⟩
  obtain ⟨hgoes, hlast⟩ | ⟨ret, hret, hended⟩ := hcases
  · refine Or.inl ⟨hgoes, fun x hx => ?_⟩
    rcases List.mem_append.mp hx with hx | hx
    · exact hproceed x hx
    · rw [List.mem_singleton.mp hx]
      exact hlast
  · exact Or.inr ⟨ret, results, result, hret, rfl, hproceed, hended⟩

theorem SocketResult.Proceeds.failure (h : result.Proceeds) : result.failure = none := by
  cases result with
  | received bytes => rfl
  | sent n => rfl
  | closed => exact absurd h id
  | recvFailed errno => exact absurd h id
  | sendFailed errno => exact absurd h id

/-- A result that fails is the one that the function returns at. -/
theorem failure_last {before : List SocketResult} {last : SocketResult} {errno : Errno}
    (hbefore : ∀ result ∈ before, result.Proceeds) (hmem : result ∈ before ++ [last])
    (hfailed : result.failure = some errno) : result = last := by
  rcases List.mem_append.mp hmem with hmem | hmem
  · rw [(hbefore result hmem).failure] at hfailed
    cases hfailed
  · exact List.mem_singleton.mp hmem

/-- In whatever portions the bytes come and go, the copy is truthful exactly if no `recv` has failed. -/
theorem copy_truthful_iff (h : Runs.run copyStep (copyInit buf) results = .ok st) :
    Truthful results st ↔ ∀ errno, .recvFailed errno ∉ results := by
  obtain ⟨hholds, hexplained⟩ := run_explained h
  obtain ⟨hrunning, hproceed⟩ | ⟨ret, before, last, hret, rfl, hbefore, hended⟩ := hexplained
  · refine iff_of_true ⟨hholds.copied, fun ret hret => absurd hret (hrunning ret), ?_⟩ fun errno hmem => hproceed _ hmem
    exact fun ret _ _ hret => absurd hret (hrunning ret)
  have hlast : last ∈ before ++ [last] := List.mem_append_right _ (List.mem_singleton_self last)
  have hphase : ∀ {ret'}, st.phase = .returned ret' → ret' = ret := fun hret' => CopyPhase.returned.inj (hret'.symm.trans hret)
  obtain ⟨rfl, rfl, hall⟩ | ⟨errno, rfl, rfl⟩ | ⟨errno, rfl, rfl⟩ := hended
  · have hnone : ∀ result ∈ before ++ [.closed], result.failure = none := by
      intro result hmem
      rcases List.mem_append.mp hmem with hmem | hmem
      · exact (hbefore result hmem).failure
      · rw [List.mem_singleton.mp hmem]
        rfl
    refine iff_of_true ⟨hholds.copied, fun ret' hret' => ?_, fun ret' result errno _ hmem hfailed => ?_⟩ fun errno hmem => ?_
    · exact ⟨iff_of_true (hphase hret') ⟨hlast, hnone⟩, fun _ => hall⟩
    · rw [hnone result hmem] at hfailed
      cases hfailed
    · have hfailed := hnone _ hmem
      cases hfailed
  · -- `ret` is still what it was at first
    refine iff_of_false (fun htruthful => ?_) fun hnone => hnone errno hlast
    exact errno.2 (htruthful.failed 0 _ errno hret hlast rfl).symm
  · have hzero : (errno : Int) ≠ 0 := errno.2
    refine iff_of_true ⟨hholds.copied, fun ret' hret' => ?_, fun ret' result errno' hret' hmem hfailed => ?_⟩
      fun errno' hmem => ?_
    · obtain rfl := hphase hret'
      refine ⟨iff_of_false hzero fun hend => ?_, fun h => absurd h hzero⟩
      have hfailed := hend.2 _ hlast
      cases hfailed
    · rw [failure_last hbefore hmem hfailed] at hfailed
      cases hfailed
      exact hphase hret'
    · cases failure_last hbefore hmem rfl

theorem copy_truthful_iff_short :
    ∃ st, Runs.run copyStep (copyInit (.replicate 4096 0))
      [.received [1, 2, 3], .sent 2, .sent 1, .received [4], .sent 1, .closed] = .ok st ∧
      (st.phase = .returned 0 ∧ st.sent = [1, 2, 3, 4]) ∧
      Truthful [.received [1, 2, 3], .sent 2, .sent 1, .received [4], .sent 1, .closed] st := by
  obtain ⟨st, hrun, hst⟩ : ∃ st, Runs.run copyStep (copyInit (.replicate 4096 0))
      [.received [1, 2, 3], .sent 2, .sent 1, .received [4], .sent 1, .closed] = .ok st ∧
      (st.phase = .returned 0 ∧ st.sent = [1, 2, 3, 4]) := ok_of_any (by decide +kernel)
  exact ⟨st, hrun, hst, (copy_truthful_iff hrun).mpr (by simp)⟩

def ECONNRESET : Errno := ⟨104, by decide⟩

theorem copy_truthful_broken :
    ∃ st, Runs.run copyStep (copyInit (.replicate 4096 0)) [.received [1], .sent 1, .recvFailed ECONNRESET] = .ok st ∧
      (st.phase = .returned 0 ∧ st.sent = [1]) ∧
      ¬ Truthful [.received [1], .sent 1, .recvFailed ECONNRESET] st := by
  obtain ⟨st, hrun, hst⟩ : ∃ st, Runs.run copyStep (copyInit (.replicate 4096 0))
      [.received [1], .sent 1, .recvFailed ECONNRESET] = .ok st ∧ (st.phase = .returned 0 ∧ st.sent = [1]) :=
    ok_of_any (by decide +kernel)
  refine ⟨st, hrun, hst, fun htruthful => ?_⟩
  have hzero := htruthful.failed 0 (.recvFailed ECONNRESET) ECONNRESET hst.1 (by simp) rfl
  exact absurd hzero (by decide)

end Copy

end Smtpd.Netutils
