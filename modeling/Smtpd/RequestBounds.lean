import Smtpd.RequestFraming

namespace Smtpd

open Checked Incremental

/-- The indices of the arrays at which the bytes of a stream are stored, in order. -/
def requestStores (p : RequestParser) : List UInt8 → List Nat
  | [] => []
  | c :: cs => (p.storeIndex c).toList ++
      match requestParserFeed p c with
      | .ok q => requestStores q cs
      | .error _ => []

theorem requestStores_append {p q : RequestParser} {errored e : Bool} {u : List UInt8}
    (h : requestParser.feedAll (p, errored) u = .ok (q, e)) (v : List UInt8) :
    requestStores p (u ++ v) = requestStores p u ++ requestStores q v := by
  induction u generalizing p errored with
  | nil =>
    cases h
    rfl
  | cons x u ih =>
    obtain ⟨⟨r, e₁⟩, hr, h⟩ := bind_ok h
    obtain ⟨r', hfeed, hr⟩ := bind_ok hr
    cases hr
    simp only [List.cons_append, requestStores, hfeed, List.append_assoc]
    rw [ih h]

theorem mem_requestStores_cons {p : RequestParser} {c : UInt8} {cs : List UInt8} {x : Nat}
    (h : p.storeIndex c = some x) : x ∈ requestStores p (c :: cs) := by
  simp [requestStores, h]

theorem requestStores_singleton (p : RequestParser) (c : UInt8) :
    requestStores p [c] = (p.storeIndex c).toList := by
  simp only [requestStores]
  cases requestParserFeed p c <;> simp

theorem storeIndex_lt {w : List UInt8} {k k' : Captured} {p : RequestParser} {c : UInt8}
    (ht : Tracks w k p) (hk : Capture 32 w c k k') : ∀ x ∈ (p.storeIndex c).toList, x < 32 := by
  obtain ⟨hst, hline, -, hi, -⟩ := ht
  cases hk with
  | arg ha hg hcr hlt =>
    rename_i mem i
    have hi : p.i.toNat = i := hi
    simp only [RequestParser.storeIndex, hst, onByte_arg hline ha hg hcr, Option.toList_some,
      List.mem_singleton]
    omega
  | newDomain hd hb hcr =>
    simp [RequestParser.storeIndex, hst, onByte_newDomain hline hd hb hcr]
  | domain hd hcr hlt =>
    rename_i mem i
    have hi : p.i.toNat = i := hi
    simp only [RequestParser.storeIndex, hst, onByte_domain hline hd hcr, Option.toList_some,
      List.mem_singleton]
    omega
  | skip ha hg hd =>
    have hact := onByte_skip hline ha hg hd
    rw [← hst] at hact
    obtain ⟨-, -, hnone⟩ := feed_of_not_stored hact
    simp [hnone]

/-- Where the text captures more than fits, the index has left its array. -/
theorem storeIndex_ge {w : List UInt8} {k : Captured} {p : RequestParser} {c : UInt8}
    (ht : Tracks w k p) (hno : ∀ k', ¬ Capture 32 w c k k') :
    ∃ x, p.storeIndex c = some x ∧ 32 ≤ x := by
  obtain ⟨hst, hline, -, hi, -⟩ := ht
  by_cases ha : ArgText w ∧ c ≠ GT ∧ c ≠ CR
  · obtain ⟨ha, hg, hcr⟩ := ha
    refine ⟨p.i.toNat, by simp [RequestParser.storeIndex, hst, onByte_arg hline ha hg hcr], ?_⟩
    exact Nat.le_of_not_lt fun hlt => hno _ (.arg ha hg hcr (hi ▸ hlt))
  by_cases hd : DomainText w ∧ c ≠ CR
  · obtain ⟨hd, hcr⟩ := hd
    refine ⟨p.i.toNat, by simp [RequestParser.storeIndex, hst, onByte_domain hline hd hcr], ?_⟩
    exact Nat.le_of_not_lt fun hlt => hno _ (.domain hd hcr (hi ▸ hlt))
  by_cases hg : DomainGap w ∧ isBlank c = false ∧ c ≠ CR
  · exact absurd (.newDomain hg.1 hg.2.1 hg.2.2) (hno _)
  · exact absurd (.skip (by tauto) (by simpa [imp_iff_not_or] using hg) (by tauto)) (hno k)

theorem storeIndex_lineEnd {w : List UInt8} {k : Captured} {p : RequestParser} (ht : Tracks w k p) :
    p.storeIndex CR = none := by
  have hskip := onByte_skip ht.line (c := CR) (fun _ => Or.inr rfl) (fun _ => Or.inr rfl) (fun _ => rfl)
  rw [← ht.state] at hskip
  obtain ⟨-, -, hnone⟩ := feed_of_not_stored hskip
  exact hnone

theorem storeIndex_cr {p : RequestParser} (hp : p.state = .cr) (c : UInt8) : p.storeIndex c = none := by
  simp only [RequestParser.storeIndex, hp, RequestState.onByte]
  split_ifs <;> rfl

theorem framed_stores {u w : List UInt8} {k : Captured} (h : Framed 32 u w k) :
    ∀ x ∈ requestStores requestParserInit u, x < 32 := by
  induction h with
  | start => simp [requestStores]
  | byte hu _ hk ih =>
    obtain ⟨p, e, hp, ht⟩ := framed_run (hu.mono (by omega))
    rw [requestStores_append hp, requestStores_singleton]
    intro x hx
    exact (List.mem_append.mp hx).elim (ih x) (storeIndex_lt ht hk x)
  | restart hu ho _ ih =>
    rename_i u w k c _
    obtain ⟨p, e, hp, ht⟩ := framed_run (hu.mono (by omega))
    obtain ⟨q, e', hq, hst, -⟩ := framed_run_afterCR (hu.mono (by omega)) ho
    have hcut : u ++ [CR, c] = (u ++ [CR]) ++ [c] := by simp
    rw [hcut, requestStores_append hq, requestStores_append hp, requestStores_singleton,
      requestStores_singleton, storeIndex_lineEnd ht, storeIndex_cr hst]
    simpa using ih

theorem framed_stores_afterCR {v w : List UInt8} {k : Captured} (h : Framed 32 v w k) :
    ∀ x ∈ requestStores requestParserInit (v ++ [CR]), x < 32 := by
  obtain ⟨p, e, hp, ht⟩ := framed_run (h.mono (by omega))
  rw [requestStores_append hp, requestStores_singleton, storeIndex_lineEnd ht]
  simpa using framed_stores h

theorem feed_done {p : RequestParser} (hp : p.state = .done) (c : UInt8) :
    requestParserFeed p c = .ok p := by
  cases p
  cases hp
  rfl

/-- A parser that is done stores nothing more. -/
theorem requestStores_done {p : RequestParser} (hp : p.state = .done) (r : List UInt8) :
    requestStores p r = [] := by
  induction r with
  | nil => rfl
  | cons c r ih =>
    rw [requestStores, feed_done hp, RequestParser.storeIndex, hp]
    simpa [RequestState.onByte] using ih

theorem feedAll_done {p q : RequestParser} {errored e : Bool} (hp : p.state = .done)
    {r : List UInt8} (h : requestParser.feedAll (p, errored) r = .ok (q, e)) : q = p := by
  induction r generalizing errored with
  | nil =>
    cases h
    rfl
  | cons c r ih =>
    obtain ⟨⟨t, e₁⟩, ht, h⟩ := bind_ok h
    obtain ⟨e₂, hok⟩ := requestParser_feed_ok errored (feed_done hp c)
    cases hok.symm.trans ht
    exact ih h

theorem prefix_not_done {s v : List UInt8} {p q : RequestParser} {e e' : Bool} (hv : v <+: s)
    (hp : requestParser.feedAll (requestParserInit, false) v = .ok (p, e))
    (hq : requestParser.feedAll (requestParserInit, false) s = .ok (q, e')) (hn : q.state ≠ .done) :
    p.state ≠ .done := by
  obtain ⟨t, rfl⟩ := hv
  obtain ⟨p', hp', hd⟩ := Parser.feedAll_undone requestParser_done_stays hq
    (requestDone_false_iff.mpr hn)
  obtain rfl := Except.ok.inj (hp'.symm.trans hp)
  exact requestDone_false_iff.mp hd

/-- A prefix after which the parser is done reaches past the first line it ends. -/
theorem done_prefix {s v w r : List UInt8} {k : Captured} {p : RequestParser} {e : Bool}
    (hs : s <+: v ++ CR :: LF :: r) (h : Framed 64 v w k) (ho : ¬ OpenLine w)
    (hp : requestParser.feedAll (requestParserInit, false) s = .ok (p, e)) (hd : p.state = .done) :
    p.request.bytes = k.mem := by
  obtain ⟨q, e₁, hq, hst, hmem⟩ := framed_run_afterCR h ho
  have hcut : v ++ CR :: LF :: r = (v ++ [CR]) ++ LF :: r := by simp
  rw [hcut] at hs
  rcases List.prefix_or_prefix_of_prefix hs (List.prefix_append (v ++ [CR]) (LF :: r)) with hle | hle
  · exact absurd hd (prefix_not_done hle hp hq (by simp [hst]))
  · obtain ⟨t, rfl⟩ := hle
    rw [List.prefix_append_right_inj] at hs
    obtain ⟨⟨p₁, e₂⟩, hp₁, ht⟩ := Parser.feedAll_split hp
    cases hq.symm.trans hp₁
    cases t with
    | nil =>
      cases ht
      rw [hst] at hd
      cases hd
    | cons c t =>
      obtain rfl : c = LF := (List.cons_prefix_cons.mp hs).1
      obtain ⟨⟨p₂, e₃⟩, hp₂, ht⟩ := bind_ok ht
      obtain ⟨e₄, hok⟩ := requestParser_feed_ok e₁ (feed_cr hst LF)
      cases hok.symm.trans hp₂
      rw [feedAll_done rfl ht]
      exact hmem

section Texts

/-- A byte of a text, which is filled with NULs as far as nothing has been captured in front of the byte. -/
def storeAt (text : List UInt8) (i : Nat) (c : UInt8) : List UInt8 :=
  (text.rightpad (i + 1) 0).set i c

/-- The texts captured from a stream in `arg` and `domain`, and the place of the next byte of either. -/
structure CapturedTexts where
  arg : List UInt8
  domain : List UInt8
  i : Nat

/-- What the line `w` adds to the texts with its next byte. -/
inductive CapturesByte (w : List UInt8) (c : UInt8) : CapturedTexts → CapturedTexts → Prop
  | arg {a d i} : ArgText w → c ≠ GT → c ≠ CR → CapturesByte w c ⟨a, d, i⟩ ⟨storeAt a i c, d, i + 1⟩
  | newDomain {a d i} : DomainGap w → isBlank c = false → c ≠ CR → CapturesByte w c ⟨a, d, i⟩ ⟨a, storeAt d 0 c, 1⟩
  | domain {a d i} : DomainText w → c ≠ CR → CapturesByte w c ⟨a, d, i⟩ ⟨a, storeAt d i c, i + 1⟩
  | skip {t} : (ArgText w → c = GT ∨ c = CR) → (DomainGap w → isBlank c = true ∨ c = CR) →
      (DomainText w → c = CR) → CapturesByte w c t t

/-- The texts captured from the stream `u`, which leaves off inside a line of which `w` has been read. A line that is
broken off keeps what it has captured. -/
inductive CapturesTexts : List UInt8 → List UInt8 → CapturedTexts → Prop
  | start : CapturesTexts [] [] ⟨[], [], 0⟩
  | byte {u w t t' c} : CapturesTexts u w t → (c ≠ CR ∨ OpenLine w) → CapturesByte w c t t' →
      CapturesTexts (u ++ [c]) (w ++ [c]) t'
  | restart {u w t c} : CapturesTexts u w t → ¬ OpenLine w → c ≠ LF → CapturesTexts (u ++ [CR, c]) [] t

structure CapturedTexts.Within (t : CapturedTexts) : Prop where
  arg : t.arg.length ≤ 32
  domain : t.domain.length ≤ 32

/-- A text whose array of 32 bytes holds a NUL behind it or in it. -/
def Terminated (text : List UInt8) : Prop := text.length ≤ 31 ∨ text.length = 32 ∧ 0 ∈ text

/-- No text captured from the stream has more than 32 bytes, and if a line ends, neither has more than 31 unless it
contains a NUL. -/
def CapturesFit (s : List UInt8) : Prop :=
  (∃ w t, CapturesTexts s w t ∧ t.Within) ∨
  (∃ v w t, s = v ++ [CR] ∧ CapturesTexts v w t ∧ ¬ OpenLine w ∧ t.Within) ∨
  ∃ v w t r, s = v ++ CR :: LF :: r ∧ CapturesTexts v w t ∧ ¬ OpenLine w ∧ Terminated t.arg ∧ Terminated t.domain

/-- The two arrays with the texts in them. -/
def CapturedTexts.memory (t : CapturedTexts) : Captured :=
  ⟨t.arg.rightpad 32 0 ++ t.domain.rightpad 32 0, t.i⟩

variable {u w a d text : List UInt8} {c : UInt8} {i : Nat} {t t' : CapturedTexts} {k k' : Captured}

theorem length_storeAt : (storeAt text i c).length = max (i + 1) text.length := by
  rw [storeAt, List.length_set, List.length_rightpad]

theorem rightpad_storeAt (hi : i < 32) : (storeAt text i c).rightpad 32 0 = (text.rightpad 32 0).set i c := by
  have hlen : i < (text.rightpad (i + 1) 0).length := by
    rw [List.length_rightpad]
    omega
  have hpad : text.rightpad 32 0 =
      text.rightpad (i + 1) 0 ++ List.replicate (32 - (text.rightpad (i + 1) 0).length) 0 := by
    rw [List.length_rightpad, List.rightpad, List.rightpad, List.append_assoc, List.replicate_append_replicate]
    congr 2
    omega
  rw [hpad, List.set_append_left _ _ hlen, List.rightpad, storeAt, List.length_set]

theorem mem_rightpad_iff (h : text.length ≤ 32) : 0 ∈ text.rightpad 32 0 ↔ Terminated text := by
  rw [List.rightpad, List.mem_append, List.mem_replicate, Terminated]
  constructor
  · rintro (hmem | ⟨hne, -⟩)
    · by_cases hfull : text.length = 32
      · exact Or.inr ⟨hfull, hmem⟩
      · exact Or.inl (by omega)
    · exact Or.inl (by omega)
  · rintro (hshort | ⟨-, hmem⟩)
    · exact Or.inr ⟨by omega, rfl⟩
    · exact Or.inl hmem

theorem Terminated.length_le (h : Terminated text) : text.length ≤ 32 := by
  rcases h with h | ⟨h, -⟩
  · omega
  · exact h.le

theorem storeAt_within : (storeAt text i c).length ≤ 32 ↔ i < 32 ∧ text.length ≤ 32 := by
  rw [length_storeAt]
  omega

theorem length_padded (h : text.length ≤ 32) : (text.rightpad 32 0).length = 32 := by
  rw [List.length_rightpad]
  exact max_eq_left h

theorem memory_set_arg (ha : a.length ≤ 32) (hi : i < 32) :
    (a.rightpad 32 0 ++ d.rightpad 32 0).set i c = (storeAt a i c).rightpad 32 0 ++ d.rightpad 32 0 := by
  have hlen := length_padded ha
  rw [List.set_append_left _ _ (by omega), rightpad_storeAt hi]

theorem memory_set_domain (ha : a.length ≤ 32) (hi : i < 32) :
    (a.rightpad 32 0 ++ d.rightpad 32 0).set (32 + i) c = a.rightpad 32 0 ++ (storeAt d i c).rightpad 32 0 := by
  have hlen := length_padded ha
  rw [List.set_append_right _ _ (by omega), hlen, Nat.add_sub_cancel_left, rightpad_storeAt hi]

/-- Texts only grow, and as long as they fit, each byte is stored in its array. -/
theorem CapturesByte.capture (h : CapturesByte w c t t') (ht' : t'.Within) :
    t.Within ∧ Capture 32 w c t.memory t'.memory := by
  obtain ⟨harg, hdomain⟩ := ht'
  cases h with
  | arg ha hg hc =>
    obtain ⟨hi, harg⟩ := storeAt_within.mp harg
    refine ⟨⟨harg, hdomain⟩, ?_⟩
    rw [CapturedTexts.memory, CapturedTexts.memory, ← memory_set_arg harg hi]
    exact .arg ha hg hc hi
  | newDomain hd hb hc =>
    obtain ⟨hi, hdomain⟩ := storeAt_within.mp hdomain
    refine ⟨⟨harg, hdomain⟩, ?_⟩
    rw [CapturedTexts.memory, CapturedTexts.memory, ← memory_set_domain harg hi]
    exact .newDomain hd hb hc
  | domain hd hc =>
    obtain ⟨hi, hdomain⟩ := storeAt_within.mp hdomain
    refine ⟨⟨harg, hdomain⟩, ?_⟩
    rw [CapturedTexts.memory, CapturedTexts.memory, ← memory_set_domain harg hi]
    exact .domain hd hc hi
  | skip ha hg hd => exact ⟨⟨harg, hdomain⟩, .skip ha hg hd⟩

theorem Capture.texts (h : Capture 32 w c k k') (ht : t.Within) (hk : k = t.memory) :
    ∃ t', CapturesByte w c t t' ∧ t'.Within ∧ k' = t'.memory := by
  obtain ⟨harg, hdomain⟩ := ht
  cases h with
  | arg ha hg hc hi =>
    cases hk
    refine ⟨_, .arg ha hg hc, ⟨storeAt_within.mpr ⟨hi, harg⟩, hdomain⟩, ?_⟩
    rw [CapturedTexts.memory, ← memory_set_arg harg hi]
  | newDomain hd hb hc =>
    cases hk
    have hzero : 0 < 32 := by decide
    refine ⟨_, .newDomain hd hb hc, ⟨harg, storeAt_within.mpr ⟨hzero, hdomain⟩⟩, ?_⟩
    rw [CapturedTexts.memory, ← memory_set_domain harg hzero]
  | domain hd hc hi =>
    cases hk
    refine ⟨_, .domain hd hc, ⟨harg, storeAt_within.mpr ⟨hi, hdomain⟩⟩, ?_⟩
    rw [CapturedTexts.memory, ← memory_set_domain harg hi]
  | skip ha hg hd => exact ⟨t, .skip ha hg hd, ⟨harg, hdomain⟩, hk⟩

theorem CapturesTexts.framed (h : CapturesTexts u w t) (ht : t.Within) : Framed 32 u w t.memory := by
  induction h with
  | start => exact .start
  | byte _ hc hstep ih =>
    obtain ⟨hbefore, hcapture⟩ := hstep.capture ht
    exact (ih hbefore).byte hc hcapture
  | restart _ ho hc ih => exact (ih ht).restart ho hc

theorem Framed.captures (h : Framed 32 u w k) : ∃ t, CapturesTexts u w t ∧ t.Within ∧ k = t.memory := by
  induction h with
  | start => exact ⟨_, .start, ⟨by decide, by decide⟩, rfl⟩
  | byte _ hc hk ih =>
    obtain ⟨t, hu, ht, rfl⟩ := ih
    obtain ⟨t', hstep, ht', rfl⟩ := hk.texts ht rfl
    exact ⟨t', hu.byte hc hstep, ht', rfl⟩
  | restart _ ho hc ih =>
    obtain ⟨t, hu, ht, rfl⟩ := ih
    exact ⟨t, hu.restart ho hc, ht, rfl⟩

theorem memory_holds_nul (ht : t.Within) :
    0 ∈ t.memory.mem.take 32 ∧ 0 ∈ t.memory.mem.drop 32 ↔ Terminated t.arg ∧ Terminated t.domain := by
  have hlen := length_padded ht.arg
  rw [CapturedTexts.memory, List.take_left' hlen, List.drop_left' hlen, mem_rightpad_iff ht.arg,
    mem_rightpad_iff ht.domain]

/-- The captures of a stream fit exactly if the arrays of the parser take them. -/
theorem capturesFit_iff (s : List UInt8) : CapturesFit s ↔
    (∃ w k, Framed 32 s w k) ∨
    (∃ v w k, s = v ++ [CR] ∧ Framed 32 v w k ∧ ¬ OpenLine w) ∨
    ∃ v w k r, s = v ++ CR :: LF :: r ∧ Framed 32 v w k ∧ ¬ OpenLine w ∧
      0 ∈ k.mem.take 32 ∧ 0 ∈ k.mem.drop 32 := by
  constructor
  · rintro (⟨w, t, h, ht⟩ | ⟨v, w, t, hs, h, ho, ht⟩ | ⟨v, w, t, r, hs, h, ho, harg, hdomain⟩)
    · exact Or.inl ⟨w, _, h.framed ht⟩
    · exact Or.inr (Or.inl ⟨v, w, _, hs, h.framed ht, ho⟩)
    · have ht : t.Within := ⟨harg.length_le, hdomain.length_le⟩
      exact Or.inr (Or.inr ⟨v, w, _, r, hs, h.framed ht, ho, (memory_holds_nul ht).mpr ⟨harg, hdomain⟩⟩)
  · rintro (⟨w, k, h⟩ | ⟨v, w, k, hs, h, ho⟩ | ⟨v, w, k, r, hs, h, ho, hnul⟩)
    · obtain ⟨t, ht, hin, -⟩ := h.captures
      exact Or.inl ⟨w, t, ht, hin⟩
    · obtain ⟨t, ht, hin, -⟩ := h.captures
      exact Or.inr (Or.inl ⟨v, w, t, hs, ht, ho, hin⟩)
    · obtain ⟨t, ht, hin, rfl⟩ := h.captures
      exact Or.inr (Or.inr ⟨v, w, t, r, hs, ht, ho, (memory_holds_nul hin).mp hnul⟩)

end Texts

/-- The stores of the parser stay inside their arrays, and the arrays hold strings when it is
done, exactly for the streams whose captures fit. -/
theorem requestStores_bounded_iff (s : List UInt8) :
    ((∀ x ∈ requestStores requestParserInit s, x < 32) ∧
      ∀ v p e, v <+: s → requestParser.feedAll (requestParserInit, false) v = .ok (p, e) →
        p.state = .done → 0 ∈ p.request.arg ∧ 0 ∈ p.request.domain) ↔ CapturesFit s := by
  rw [capturesFit_iff]
  constructor
  · rintro ⟨hlt, hnul⟩
    cases cut_cases 32 s with
    | inside h => exact Or.inl ⟨_, _, h⟩
    | afterCR hs h ho => exact Or.inr (Or.inl ⟨_, _, _, hs, h, ho⟩)
    | ended hs h ho =>
      rename_i v w k r
      obtain ⟨q, e, hq, hst, hmem⟩ := framed_run_afterCR (h.mono (by omega)) ho
      obtain ⟨e', hok⟩ := requestParser_feed_ok e (feed_cr hst LF)
      have hnul' := hnul ((v ++ [CR]) ++ [LF]) { q with state := .done } e' ⟨r, by simp [hs]⟩
        (by rw [Parser.feedAll_concat, hq]; exact hok) rfl
      rw [Request.arg, Request.domain, hmem] at hnul'
      exact Or.inr (Or.inr ⟨v, w, k, r, hs, h, ho, hnul'⟩)
    | overflow hs h _ hno =>
      obtain ⟨p, e, hp, ht⟩ := framed_run (h.mono (by omega))
      obtain ⟨x, hx, hge⟩ := storeIndex_ge ht hno
      have := hlt x (by
        rw [hs, requestStores_append hp]
        exact List.mem_append_right _ (mem_requestStores_cons hx))
      omega
  · rintro (⟨w, k, h⟩ | ⟨v, w, k, hs, h, ho⟩ | ⟨v, w, k, r, hs, h, ho, hnul⟩)
    · refine ⟨framed_stores h, fun v p e hv hp hd => ?_⟩
      obtain ⟨q, e', hq, htr⟩ := framed_run (h.mono (by omega))
      exact absurd hd (prefix_not_done hv hp hq htr.not_done)
    · subst hs
      refine ⟨framed_stores_afterCR h, fun u p e hu hp hd => ?_⟩
      obtain ⟨q, e', hq, hst, -⟩ := framed_run_afterCR (h.mono (by omega)) ho
      exact absurd hd (prefix_not_done hu hp hq (by simp [hst]))
    · subst hs
      obtain ⟨q, e, hq, hst, -⟩ := framed_run_afterCR (h.mono (by omega)) ho
      refine ⟨?_, fun u p e' hu hp hd => ?_⟩
      · have hcut : v ++ CR :: LF :: r = (v ++ [CR]) ++ LF :: r := by simp
        rw [hcut, requestStores_append hq]
        simp only [requestStores, storeIndex_cr hst, feed_cr hst LF, if_true,
          requestStores_done (p := { q with state := .done }) rfl, List.append_nil, Option.toList_none]
        exact framed_stores_afterCR h
      · rw [Request.arg, Request.domain, done_prefix hu (h.mono (by omega)) ho hp hd]
        exact hnul

/-- A sender of 33 bytes runs over into the memory of `domain`, and `arg` is left without a
terminating NUL. -/
theorem requestStores_overrun :
    ¬ ((∀ x ∈ requestStores requestParserInit
          (ascii "MAIL FROM:<abcdefghijklmnopqrstu@example.com>\r\n"), x < 32) ∧
      ∀ v p e, v <+: ascii "MAIL FROM:<abcdefghijklmnopqrstu@example.com>\r\n" →
        requestParser.feedAll (requestParserInit, false) v = .ok (p, e) →
        p.state = .done → 0 ∈ p.request.arg ∧ 0 ∈ p.request.domain) := by
  rintro ⟨hlt, -⟩
  revert hlt
  decide +kernel

end Smtpd
