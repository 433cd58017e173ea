import Mathlib.Data.List.Infix
import Mathlib.Data.List.TakeWhile

namespace CString

section Memory

variable {α : Type*}

/-- An array in which the entries from an offset on are replaced. -/
def overwrite (mem : List α) (offset : Nat) (xs : List α) : List α :=
  mem.take offset ++ xs ++ mem.drop (offset + xs.length)

theorem length_overwrite {mem xs : List α} {offset : Nat} (h : offset + xs.length ≤ mem.length) :
    (overwrite mem offset xs).length = mem.length := by
  simp only [overwrite, List.length_append, List.length_take, List.length_drop]
  omega

theorem take_overwrite_end {mem xs : List α} {offset : Nat} (h : offset ≤ mem.length) :
    (overwrite mem offset xs).take (offset + xs.length) = mem.take offset ++ xs := by
  rw [overwrite]
  apply List.take_left'
  simp only [List.length_append, List.length_take]
  omega

theorem take_overwrite_of_le {mem xs : List α} {offset n : Nat} (h : offset ≤ mem.length) (hn : n ≤ offset) :
    (overwrite mem offset xs).take n = mem.take n := by
  rw [overwrite, List.append_assoc, List.take_append_of_le_length, List.take_take, Nat.min_eq_left hn]
  rw [List.length_take]
  omega

theorem drop_overwrite_end {mem xs : List α} {offset : Nat} (h : offset ≤ mem.length) :
    (overwrite mem offset xs).drop (offset + xs.length) = mem.drop (offset + xs.length) := by
  rw [overwrite]
  apply List.drop_left'
  simp only [List.length_append, List.length_take]
  omega

/-- Writing next to what was just written is one longer write. -/
theorem overwrite_append {mem xs ys : List α} {offset : Nat} (h : offset ≤ mem.length) :
    overwrite (overwrite mem offset xs) (offset + xs.length) ys = overwrite mem offset (xs ++ ys) := by
  have hd : (overwrite mem offset xs).drop (offset + xs.length + ys.length) =
      mem.drop (offset + xs.length + ys.length) := by
    rw [← List.drop_drop, drop_overwrite_end h, List.drop_drop]
  calc overwrite (overwrite mem offset xs) (offset + xs.length) ys
      = (mem.take offset ++ xs) ++ ys ++ mem.drop (offset + xs.length + ys.length) := by
        rw [overwrite, take_overwrite_end h, hd]
    _ = overwrite mem offset (xs ++ ys) := by
        simp only [overwrite, List.length_append, List.append_assoc, Nat.add_assoc]

theorem overwrite_singleton {mem : List α} {offset : Nat} (h : offset < mem.length) (x : α) :
    overwrite mem offset [x] = mem.set offset x := by
  rw [overwrite, List.set_eq_take_append_cons_drop, if_pos h]
  simp

theorem overwrite_nil (mem : List α) (offset : Nat) : overwrite mem offset [] = mem := by
  simp [overwrite]

end Memory

/-- The string stored in an array: the bytes in front of its first NUL. An array
without NUL holds no string. -/
def cstring : List UInt8 → Option (List UInt8)
  | [] => none
  | c :: cs => if c = 0 then some [] else (cstring cs).map (c :: ·)

theorem cstring_append {t rest : List UInt8} (h : (0 : UInt8) ∉ t) :
    cstring (t ++ 0 :: rest) = some t := by
  induction t with
  | nil => rfl
  | cons c cs ih =>
    have hc : c ≠ 0 := fun he => h (by simp [he])
    simp [cstring, hc, ih (fun hm => h (by simp [hm]))]

/-- Bytes that a NUL is put behind. -/
theorem cstring_terminated (r : List UInt8) : cstring (r ++ [0]) = some (r.takeWhile (· ≠ 0)) := by
  induction r with
  | nil => rfl
  | cons c r ih =>
    by_cases hc : c = 0
    · simp [cstring, hc]
    · simp [cstring, hc, ih]

theorem cstring_eq_some {mem t : List UInt8} (h : cstring mem = some t) :
    (0 : UInt8) ∉ t ∧ ∃ rest, mem = t ++ 0 :: rest := by
  induction mem generalizing t with
  | nil => cases h
  | cons c cs ih =>
    unfold cstring at h
    split at h
    next hc =>
      cases h
      exact ⟨by simp, cs, by simp [hc]⟩
    next hc =>
      obtain ⟨u, hu, rfl⟩ := Option.map_eq_some_iff.mp h
      obtain ⟨h0, rest, hr⟩ := ih hu
      exact ⟨by simp [h0, Ne.symm hc], rest, by simp [hr]⟩

theorem cstring_of_mem {mem : List UInt8} (h : (0 : UInt8) ∈ mem) : ∃ t, cstring mem = some t := by
  induction mem with
  | nil => cases h
  | cons c cs ih =>
    by_cases hc : c = 0
    · exact ⟨[], if_pos hc⟩
    · obtain ⟨t, ht⟩ := ih ((List.mem_cons.mp h).resolve_left (Ne.symm hc))
      exact ⟨c :: t, by simp [cstring, hc, ht]⟩

/-- `strchr`: the rest of the string from the first occurrence of a character on. The
outer `none` is a read past the end of the array. -/
def strchr (c : UInt8) : List UInt8 → Option (Option (List UInt8))
  | [] => none
  | x :: xs => if x = c then some (some (x :: xs)) else if x = 0 then some none else strchr c xs

/-- `strcmp` with a literal, as the test for equality. -/
def strcmpEq : List UInt8 → List UInt8 → Option Bool
  | [], _ => none
  | x :: _, [] => some (decide (x = 0))
  | x :: xs, y :: ys => if x = y then strcmpEq xs ys else some false

theorem strchr_cstring {c : UInt8} {mem t : List UInt8} (hc : c ≠ 0) (h : cstring mem = some t) :
    (c ∉ t ∧ strchr c mem = some none) ∨
      ∃ at_, strchr c mem = some (some at_) ∧ cstring at_ = some (t.dropWhile (· ≠ c)) ∧ c ∈ t := by
  induction mem generalizing t with
  | nil => cases h
  | cons x xs ih =>
    unfold cstring at h
    split at h
    next hx =>
      cases h
      exact Or.inl ⟨by simp, by simp [strchr, hx, Ne.symm hc]⟩
    next hx =>
      obtain ⟨u, hu, rfl⟩ := Option.map_eq_some_iff.mp h
      by_cases he : x = c
      · subst he
        refine Or.inr ⟨x :: xs, by simp [strchr], ?_, by simp⟩
        simp [cstring, hx, hu]
      · rcases ih hu with ⟨hn, hs⟩ | ⟨at_, hs, hat, hm⟩
        · exact Or.inl ⟨by simp [hn, Ne.symm he], by simp [strchr, he, hx, hs]⟩
        · exact Or.inr ⟨at_, by simp [strchr, he, hx, hs],
            by simpa [List.dropWhile_cons, he] using hat, by simp [hm]⟩

theorem strcmpEq_cstring {mem t literal : List UInt8} (hl : (0 : UInt8) ∉ literal)
    (h : cstring mem = some t) : strcmpEq mem literal = some (decide (t = literal)) := by
  induction mem generalizing t literal with
  | nil => cases h
  | cons x xs ih =>
    unfold cstring at h
    split at h
    next hx =>
      cases h
      cases literal with
      | nil => simp [strcmpEq, hx]
      | cons y ys =>
        have hy : x ≠ y := fun he => hl (by simp [← he, hx])
        simp [strcmpEq, hy]
    next hx =>
      obtain ⟨u, hu, rfl⟩ := Option.map_eq_some_iff.mp h
      cases literal with
      | nil => simp [strcmpEq, hx]
      | cons y ys =>
        have hys : (0 : UInt8) ∉ ys := fun hm => hl (List.mem_cons_of_mem y hm)
        by_cases he : x = y
        · simp [strcmpEq, he, ih hys hu]
        · simp [strcmpEq, he]

def tolower (c : UInt8) : UInt8 := if 65 ≤ c ∧ c ≤ 90 then c + 32 else c

def toupper (c : UInt8) : UInt8 := if 97 ≤ c ∧ c ≤ 122 then c - 32 else c

/-- `strncasecmp` with a literal, as the test for equality. -/
def strncasecmpEq : Nat → List UInt8 → List UInt8 → Option Bool
  | 0, _, _ => some true
  | _ + 1, [], _ => none
  | _ + 1, x :: _, [] => some (decide (x = 0))
  | n + 1, x :: xs, y :: ys =>
    if tolower x = tolower y then strncasecmpEq n xs ys else some false

def strcasecmpEq (mem literal : List UInt8) : Option Bool :=
  strncasecmpEq (literal.length + 1) mem literal

/-- The two cases of a letter, or twice a character that is no letter. -/
def CasePair (lower upper : UInt8) : Prop :=
  65 ≤ upper ∧ upper ≤ 90 ∧ lower = upper + 32 ∨
    lower = upper ∧ ¬ (65 ≤ lower ∧ lower ≤ 90) ∧ ¬ (97 ≤ lower ∧ lower ≤ 122)

instance (lower upper : UInt8) : Decidable (CasePair lower upper) := inferInstanceAs (Decidable (_ ∨ _))

theorem CasePair.tolower_eq {lower upper : UInt8} (h : CasePair lower upper) (c : UInt8) :
    tolower c = lower ↔ c = lower ∨ c = upper := by
  unfold tolower
  obtain ⟨h65, h90, rfl⟩ | ⟨rfl, hupper, hlower⟩ := h
  · split_ifs with hc <;> grind
  · split_ifs with hc <;> grind

theorem tolower_tolower (c : UInt8) : tolower (tolower c) = tolower c := by
  unfold tolower
  split_ifs <;> grind

theorem CasePair.tolower_iff {lower upper : UInt8} (h : CasePair lower upper) (c : UInt8) :
    (tolower c = lower ∨ tolower c = upper) ↔ (c = lower ∨ c = upper) := by
  rw [← h.tolower_eq (tolower c), tolower_tolower, h.tolower_eq]

theorem tolower_eq_iff {x : UInt8} (h : CasePair x x) (c : UInt8) : tolower c = x ↔ c = x := by
  rw [h.tolower_eq, or_self]

/-- Both cases of a character. -/
theorem casePair (c : UInt8) : CasePair (tolower c) (toupper c) := by
  unfold CasePair tolower toupper
  split_ifs <;> grind

theorem tolower_eq_zero {c : UInt8} : tolower c = 0 ↔ c = 0 := tolower_eq_iff (by decide) c

/-- A string compares equal to a literal if it is the literal, or if the two agree on as many
bytes as are compared and none of them ends before that. -/
theorem strncasecmpEq_cstring {mem t literal : List UInt8} {n : Nat} (hl : (0 : UInt8) ∉ literal)
    (h : cstring mem = some t) : ∃ r, strncasecmpEq n mem literal = some r ∧
      (r = true ↔ t.map tolower = literal.map tolower ∨ n ≤ t.length ∧ n ≤ literal.length ∧
        (t.take n).map tolower = (literal.take n).map tolower) := by
  induction n generalizing mem t literal with
  | zero => exact ⟨true, rfl, by simp⟩
  | succ n ih =>
    cases mem with
    | nil => cases h
    | cons x xs =>
      unfold cstring at h
      split at h
      next hx =>
        cases h
        cases literal with
        | nil => exact ⟨true, by simp [strncasecmpEq, hx], by simp⟩
        | cons y ys =>
          have hy : y ≠ 0 := fun he => hl (by simp [he])
          have hne : ¬ tolower x = tolower y := by
            rw [hx]
            exact fun he => hy (tolower_eq_zero.mp he.symm)
          exact ⟨false, by simp [strncasecmpEq, hne], by simp⟩
      next hx =>
        obtain ⟨u, hu, rfl⟩ := Option.map_eq_some_iff.mp h
        cases literal with
        | nil => exact ⟨false, by simp [strncasecmpEq, hx], by simp⟩
        | cons y ys =>
          by_cases he : tolower x = tolower y
          · obtain ⟨r, hr, hiff⟩ := ih (fun hm => hl (List.mem_cons_of_mem y hm)) hu
            exact ⟨r, by simp [strncasecmpEq, he, hr], by simpa [he] using hiff⟩
          · exact ⟨false, by simp [strncasecmpEq, he], by simp [he]⟩

/-- `strcspn` with one character: how long a string is before it. -/
def strcspn (c : UInt8) : List UInt8 → Option Nat
  | [] => none
  | x :: xs => if x = c ∨ x = 0 then some 0 else (strcspn c xs).map (· + 1)

theorem strcspn_cstring {c : UInt8} {mem t : List UInt8} (h : cstring mem = some t) :
    strcspn c mem = some (t.takeWhile (· ≠ c)).length := by
  induction mem generalizing t with
  | nil => cases h
  | cons x xs ih =>
    unfold cstring at h
    split at h
    next hx =>
      cases h
      simp [strcspn, hx]
    next hx =>
      obtain ⟨u, hu, rfl⟩ := Option.map_eq_some_iff.mp h
      by_cases he : x = c
      · simp [strcspn, he]
      · simp [strcspn, hx, he, ih hu]

/-- Cutting a string short, if it is longer. -/
theorem cstring_set_zero {mem t : List UInt8} (n : Nat) (h : cstring mem = some t) :
    cstring (mem.set n 0) = some (t.take n) := by
  induction mem generalizing t n with
  | nil => cases h
  | cons x xs ih =>
    unfold cstring at h
    cases n with
    | zero => simp [cstring]
    | succ n =>
      split at h
      next hx =>
        cases h
        simp [cstring, hx]
      next hx =>
        obtain ⟨u, hu, rfl⟩ := Option.map_eq_some_iff.mp h
        simp [cstring, hx, ih n hu]

theorem cstring_none {mem : List UInt8} (h : (0 : UInt8) ∉ mem) : cstring mem = none := by
  cases hm : cstring mem with
  | none => rfl
  | some t =>
    obtain ⟨-, rest, rfl⟩ := cstring_eq_some hm
    exact absurd (by simp) h

theorem length_cstring_lt {mem t : List UInt8} (h : cstring mem = some t) : t.length < mem.length := by
  obtain ⟨-, rest, rfl⟩ := cstring_eq_some h
  rw [List.length_append, List.length_cons]
  omega

/-- Bytes written over the NUL of a string, with a NUL of their own, make it longer. -/
theorem cstring_overwrite {mem t xs : List UInt8} (h : cstring mem = some t) (hx : (0 : UInt8) ∉ xs) :
    cstring (overwrite mem t.length (xs ++ [0])) = some (t ++ xs) := by
  obtain ⟨ht, rest, rfl⟩ := cstring_eq_some h
  have hsplit : overwrite (t ++ 0 :: rest) t.length (xs ++ [0]) =
      (t ++ xs) ++ 0 :: (t ++ 0 :: rest).drop (t.length + (xs ++ [0]).length) := by
    rw [overwrite, List.take_left]
    simp only [List.append_assoc, List.singleton_append]
  rw [hsplit]
  refine cstring_append fun hm => ?_
  rcases List.mem_append.mp hm with hm | hm
  · exact ht hm
  · exact hx hm

/-- The contents of a destination of `n` bytes after `strncpy`: at most `n` bytes of the
string, padded with NULs. -/
def strncpy (n : Nat) (mem : List UInt8) : Option (List UInt8) :=
  let t := (mem.take n).takeWhile (· ≠ 0)
  if t.length < n ∧ mem.length ≤ t.length then none else some (t ++ List.replicate (n - t.length) 0)

theorem strncpy_eq {mem t : List UInt8} (n : Nat) (h : cstring mem = some t) :
    strncpy n mem = some (t.take n ++ List.replicate (n - t.length) 0) := by
  obtain ⟨h0, rest, rfl⟩ := cstring_eq_some h
  have hkeep : ∀ {u : List UInt8}, (∀ x ∈ u, x ∈ t) → ∀ x ∈ u, decide (x ≠ 0) = true := by
    intro u hu x hx
    have hx0 : x ≠ 0 := fun he => h0 (he ▸ hu x hx)
    simpa using hx0
  have hcut : ((t ++ 0 :: rest).take n).takeWhile (· ≠ 0) = t.take n := by
    by_cases hl : n ≤ t.length
    · rw [List.take_append_of_le_length hl]
      exact List.takeWhile_eq_self_iff.mpr (hkeep fun x hx => List.mem_of_mem_take hx)
    · obtain ⟨m, hm⟩ : ∃ m, n - t.length = m + 1 := ⟨n - t.length - 1, by omega⟩
      rw [List.take_append, List.take_of_length_le (by omega), hm, List.take_succ_cons,
        List.takeWhile_append_of_pos (hkeep fun x hx => hx)]
      simp
  have hread : ¬ ((t.take n).length < n ∧ (t ++ 0 :: rest).length ≤ (t.take n).length) := by
    rw [List.length_take, List.length_append, List.length_cons]
    omega
  simp only [strncpy]
  rw [hcut, if_neg hread, List.length_take, show n - min n t.length = n - t.length by omega]

/-- A copy that is cut at the last byte of its destination holds what fits in front of it. -/
theorem cstring_strncpy {n : Nat} {mem t copy : List UInt8} (hn : 0 < n) (h : cstring mem = some t)
    (hc : strncpy n mem = some copy) : cstring (copy.set (n - 1) 0) = some (t.take (n - 1)) := by
  have h0 := (cstring_eq_some h).1
  rw [strncpy_eq n h] at hc
  cases hc
  by_cases hl : n ≤ t.length
  · have hsplit : t.take n = t.take (n - 1) ++ [t[n - 1]] := by
      rw [List.take_append_getElem, Nat.sub_add_cancel hn]
    rw [Nat.sub_eq_zero_of_le hl, List.replicate_zero, List.append_nil, hsplit,
      List.set_append_right _ _ (List.length_take_le _ _), List.length_take_of_le (by omega), Nat.sub_self]
    exact cstring_append fun hm => h0 (List.mem_of_mem_take hm)
  · obtain ⟨m, hm⟩ : ∃ m, n - t.length = m + 1 := ⟨n - t.length - 1, by omega⟩
    rw [List.take_of_length_le (by omega), hm]
    exact cstring_set_zero (n - 1) (cstring_append h0)

end CString
