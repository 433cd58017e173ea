import Smtpd.Buffer
import Smtpd.Lib.CString

namespace Smtpd.Netutils

open Checked CString

/-- The characters of a string. -/
abbrev Text := { text : List UInt8 // (0 : UInt8) ∉ text }

/-- What `inet_ntop` is given, with the family. -/
inductive InAddr
  | sinAddr (bytes : Vector UInt8 4)
  | sin6Addr (bytes : Vector UInt8 16)
deriving DecidableEq, Repr

/-- `struct sockaddr`. The port is in network order. -/
inductive Sockaddr
  | inet (sinAddr : Vector UInt8 4) (sinPort : UInt16)
  | inet6 (sin6Addr : Vector UInt8 16) (sin6Port : UInt16)
  | other
deriving DecidableEq, Repr

/-- The `switch`: what `p` and `port` are for a family that is handled. -/
def Sockaddr.handled : Sockaddr → Option (InAddr × UInt16)
  | .inet sinAddr sinPort => some (.sinAddr sinAddr, sinPort)
  | .inet6 sin6Addr sin6Port => some (.sin6Addr sin6Addr, sin6Port)
  | .other => none

def ntohs (port : UInt16) : UInt16 := port <<< 8 ||| port >>> 8

/-- The conversion `%d` of a number that is not negative. -/
def digits (n : Nat) : List UInt8 := (Nat.toDigits 10 n).map Char.toUInt8

/-- A write into an array, which holds nothing behind its end. -/
def store (buff : List UInt8) (offset : Nat) (bytes : List UInt8) : Result (List UInt8) :=
  if offset + bytes.length ≤ buff.length then .ok (overwrite buff offset bytes) else .error .undefined

def strlen (buff : List UInt8) : Result Nat := demand .undefined ((cstring buff).map List.length)

/-- `strncpy` to the start of an array, from a literal. -/
def copyText (buff : List UInt8) (literal : List UInt8) (n : Nat) : Result (List UInt8) := do
  let copy ← demand .undefined (strncpy n (literal ++ [0]))
  store buff 0 copy

def strncat (buff : List UInt8) (literal : List UInt8) (n : Nat) : Result (List UInt8) := do
  let len ← strlen buff
  store buff len (literal.take n ++ [0])

/-- `snprintf` of a text to an offset. -/
def snprintf (buff : List UInt8) (offset size : Nat) (text : List UInt8) : Result (List UInt8) :=
  if size = 0 then .ok buff else store buff offset (text.take (size - 1) ++ [0])

/-- `inet_ntop` writes the text of an address if there is room for its NUL. -/
def inetNtop (buff : List UInt8) (size : Nat) (text : List UInt8) : Result (Option (List UInt8)) :=
  if text.length + 1 ≤ size then do
    let buff ← store buff 0 (text ++ [0])
    .ok (some buff)
  else .ok none

/-- What is in front of the colon. -/
def printAddr (printed : InAddr → Text) (buff : List UInt8) (buffsize : Nat) :
    Option (InAddr × UInt16) → Result (List UInt8)
  | some (p, _) => do
    match ← inetNtop buff buffsize (printed p) with
    | some buff => .ok buff
    | none =>
      let buff ← copyText buff (ascii "unknown ip") buffsize
      store buff (buffsize - 1) [0]
  | none => copyText buff (ascii "unknown") buffsize

/-- What is behind the colon. -/
def printPort (buff : List UInt8) (buffsize len : Nat) : Option (InAddr × UInt16) → Result (List UInt8)
  | some (_, port) => snprintf buff len (buffsize - len) (digits (ntohs port).toNat)
  | none => .ok buff

/-- What the array holds when `sockaddr_to_human` returns it. `printed` is the text of an address. -/
def sockaddrToHuman (printed : InAddr → Text) (buff : List UInt8) (buffsize : Nat) :
    Option Sockaddr → Result (List UInt8)
  | none => copyText buff (ascii "null") buffsize
  | some addr => do
    let buff ← printAddr printed buff buffsize addr.handled
    let buff ← strncat buff (ascii ":") buffsize
    let buff ← store buff (buffsize - 1) [0]
    let len ← strlen buff
    let buff ← printPort buff buffsize len addr.handled
    store buff (buffsize - 1) [0]

/-- The text in front of the colon, if all of it is written. -/
def base (printed : InAddr → Text) (buffsize : Nat) : Option (InAddr × UInt16) → List UInt8
  | some (p, _) => if (printed p).val.length + 1 ≤ buffsize then printed p else ascii "unknown ip"
  | none => ascii "unknown"

def portDigits : Option (InAddr × UInt16) → List UInt8
  | some (_, port) => digits (ntohs port).toNat
  | none => []

/-- An address as it is written where there is room for it. -/
def human (printed : InAddr → Text) (buffsize : Nat) : Option Sockaddr → List UInt8
  | none => ascii "null"
  | some addr => base printed buffsize addr.handled ++ ascii ":" ++ portDigits addr.handled

/-- Nothing is written outside of the array, and it holds as much of the text as there is room for. -/
def Truncated (printed : InAddr → Text) (buff : List UInt8) (addr : Option Sockaddr) : Prop :=
  ∃ buff', sockaddrToHuman printed buff buff.length addr = .ok buff' ∧ buff'.length = buff.length ∧
    cstring buff' = some ((human printed buff.length addr).take (buff.length - 1))

/-- There is room for what is in front of the port, with a NUL. -/
def Roomy (printed : InAddr → Text) (buffsize : Nat) : Option Sockaddr → Prop
  | none => (ascii "null").length + 1 ≤ buffsize
  | some addr => (base printed buffsize addr.handled).length + 2 ≤ buffsize

instance (printed : InAddr → Text) (buffsize : Nat) (addr : Option Sockaddr) : Decidable (Roomy printed buffsize addr) :=
  match addr with
  | none => inferInstanceAs (Decidable (_ ≤ _))
  | some _ => inferInstanceAs (Decidable (_ ≤ _))

section Strings

variable {buff t text literal : List UInt8} {offset : Nat} {bytes : List UInt8}

theorem store_out (h : buff.length < offset + bytes.length) : store buff offset bytes = .error .undefined :=
  if_neg (Nat.not_le_of_lt h)

/-- The last byte of an array is made a NUL. -/
theorem store_last (h : cstring buff = some t) :
    ∃ buff', store buff (buff.length - 1) [0] = .ok buff' ∧ buff'.length = buff.length ∧ cstring buff' = some t := by
  have hlt := length_cstring_lt h
  have hlast : buff.length - 1 < buff.length := by omega
  refine ⟨overwrite buff (buff.length - 1) [0], if_pos hlast, length_overwrite hlast, ?_⟩
  rw [overwrite_singleton hlast, cstring_set_zero _ h, List.take_of_length_le (by omega)]

/-- A string grows in its array if there is room, and no array has more room than its length. -/
theorem store_behind (h : cstring buff = some t) (htext : (0 : UInt8) ∉ text)
    (hroom : t.length + text.length + 1 ≤ buff.length) :
    ∃ buff', store buff t.length (text ++ [0]) = .ok buff' ∧ buff'.length = buff.length ∧
      cstring buff' = some (t ++ text) := by
  have hfits : t.length + (text ++ [0]).length ≤ buff.length := by
    rw [List.length_append, List.length_singleton]
    omega
  exact ⟨overwrite buff t.length (text ++ [0]), if_pos hfits, length_overwrite hfits, cstring_overwrite h htext⟩

/-- A literal that is copied is a string where there is room for its NUL, and else where it is cut short. -/
theorem copyText_cases (h : (0 : UInt8) ∉ literal) (hpos : 0 < buff.length) :
    ∃ buff', copyText buff literal buff.length = .ok buff' ∧ buff'.length = buff.length ∧
      (literal.length < buff.length → cstring buff' = some literal) ∧
      (buff.length ≤ literal.length → cstring buff' = none) ∧
      cstring (buff'.set (buff.length - 1) 0) = some (literal.take (buff.length - 1)) := by
  have hliteral : cstring (literal ++ [0]) = some literal := cstring_append h
  have hcopy := strncpy_eq buff.length hliteral
  have hlen : (literal.take buff.length ++ List.replicate (buff.length - literal.length) (0 : UInt8)).length =
      buff.length := by
    rw [List.length_append, List.length_take, List.length_replicate]
    omega
  refine ⟨literal.take buff.length ++ List.replicate (buff.length - literal.length) 0, ?_, hlen, ?_, ?_,
    cstring_strncpy hpos hliteral hcopy⟩
  · rw [copyText, hcopy, demand_some, ok_bind, store, if_pos (by rw [hlen, Nat.zero_add]), overwrite, hlen,
      Nat.zero_add, List.take_zero, List.drop_length, List.nil_append, List.append_nil]
  · intro hlt
    obtain ⟨m, hm⟩ : ∃ m, buff.length - literal.length = m + 1 := ⟨buff.length - literal.length - 1, by omega⟩
    rw [List.take_of_length_le hlt.le, hm]
    exact cstring_append h
  · intro hle
    rw [Nat.sub_eq_zero_of_le hle, List.replicate_zero, List.append_nil]
    exact cstring_none fun hm => h (List.mem_of_mem_take hm)

end Strings

section Human

variable {printed : InAddr → Text} {buff buff' : List UInt8} {handled : Option (InAddr × UInt16)}

theorem digits_text (n : Nat) : (0 : UInt8) ∉ digits n := by
  intro hm
  obtain ⟨c, hc, hzero⟩ := List.mem_map.mp hm
  have hdigit := Nat.isDigit_of_mem_toDigits (by decide) (by decide) hc
  obtain ⟨hlow, hhigh⟩ : '0'.val ≤ c.val ∧ c.val ≤ '9'.val := by simpa [Char.isDigit] using hdigit
  have hlow : 48 ≤ c.val.toNat := UInt32.le_iff_toNat_le.mp hlow
  have hhigh : c.val.toNat ≤ 57 := UInt32.le_iff_toNat_le.mp hhigh
  have hmod : c.val.toUInt8.toNat = 0 := congrArg UInt8.toNat hzero
  rw [UInt32.toNat_toUInt8] at hmod
  omega

/-- In front of the colon there is the text if it fits, and else nothing that the colon could be written behind. -/
theorem printAddr_cases (hpos : 0 < buff.length) :
    ∃ buff', printAddr printed buff buff.length handled = .ok buff' ∧ buff'.length = buff.length ∧
      ((base printed buff.length handled).length < buff.length → cstring buff' = some (base printed buff.length handled)) ∧
      (buff.length ≤ (base printed buff.length handled).length →
        ∀ t, cstring buff' = some t → t.length + 1 = buff.length) := by
  cases handled with
  | none =>
    obtain ⟨buff', hcopy, hlen, hfits, hlong, -⟩ :=
      @copyText_cases buff _ (by decide : (0 : UInt8) ∉ ascii "unknown") hpos
    refine ⟨buff', hcopy, hlen, hfits, fun hle t ht => ?_⟩
    rw [hlong hle] at ht
    cases ht
  | some p =>
    obtain ⟨p, port⟩ := p
    unfold printAddr base inetNtop
    dsimp only
    by_cases hfits : (printed p).val.length + 1 ≤ buff.length
    · have hstore : 0 + ((printed p).val ++ [0]).length ≤ buff.length := by
        rw [List.length_append, List.length_singleton]
        omega
      rw [if_pos hfits, if_pos hfits, store, if_pos hstore]
      refine ⟨_, rfl, length_overwrite hstore, fun _ => ?_, fun hle => by omega⟩
      rw [overwrite, List.take_zero, List.nil_append, List.append_assoc]
      exact cstring_append (printed p).2
    · obtain ⟨copy, hcopy, hlen, -, -, hcut⟩ :=
        @copyText_cases buff _ (by decide : (0 : UInt8) ∉ ascii "unknown ip") hpos
      have hlast : buff.length - 1 + [(0 : UInt8)].length ≤ copy.length := by
        rw [hlen, List.length_singleton]
        omega
      rw [if_neg hfits, if_neg hfits, ok_bind]
      dsimp only
      rw [hcopy, ok_bind, store, if_pos hlast, overwrite_singleton (by omega)]
      refine ⟨_, rfl, (List.length_set ..).trans hlen, fun hlt => ?_, fun hle t ht => ?_⟩
      · rw [hcut, List.take_of_length_le (by omega)]
      · cases hcut.symm.trans ht
        rw [List.length_take_of_le (by omega)]
        omega

/-- The colon is written where there is room for it and a NUL. -/
theorem strncat_cases {base : List UInt8} (hlen : buff'.length = buff.length)
    (hfits : base.length < buff.length → cstring buff' = some base)
    (hlong : buff.length ≤ base.length → ∀ t, cstring buff' = some t → t.length + 1 = buff.length) (hpos : 0 < buff.length) :
    if base.length + 2 ≤ buff.length then
      ∃ buff'', strncat buff' (ascii ":") buff.length = .ok buff'' ∧ buff''.length = buff.length ∧
        cstring buff'' = some (base ++ ascii ":")
    else strncat buff' (ascii ":") buff.length = .error .undefined := by
  have htake : (ascii ":").take buff.length = ascii ":" := List.take_of_length_le hpos
  split_ifs with hroom
  · have hbase := hfits (by omega)
    obtain ⟨buff'', hstore, hlen', hstring⟩ := store_behind hbase (by decide : (0 : UInt8) ∉ ascii ":") (by
      rw [hlen]
      exact hroom)
    refine ⟨buff'', ?_, hlen'.trans hlen, hstring⟩
    rw [strncat, strlen, hbase, Option.map_some, demand_some, ok_bind, htake, hstore]
  · cases ht : cstring buff' with
    | none =>
      rw [strncat, strlen, ht]
      rfl
    | some t =>
      have hfull : t.length + 1 = buff.length := by
        by_cases hlt : base.length < buff.length
        · cases (hfits hlt).symm.trans ht
          omega
        · exact hlong (Nat.le_of_not_lt hlt) t ht
      rw [strncat, strlen, ht, Option.map_some, demand_some, ok_bind, htake]
      refine store_out ?_
      rw [hlen]
      show buff.length < t.length + 2
      omega

/-- What follows the colon is cut where the array ends. -/
theorem printPort_cases {t : List UInt8} (hlen : buff'.length = buff.length) (ht : cstring buff' = some t)
    (handled : Option (InAddr × UInt16)) :
    ∃ buff'', printPort buff' buff.length t.length handled = .ok buff'' ∧ buff''.length = buff.length ∧
      cstring buff'' = some ((t ++ portDigits handled).take (buff.length - 1)) := by
  have hlt := length_cstring_lt ht
  cases handled with
  | none =>
    refine ⟨buff', rfl, hlen, ?_⟩
    rw [portDigits, List.append_nil, List.take_of_length_le (by omega), ht]
  | some p =>
    obtain ⟨p, port⟩ := p
    unfold printPort portDigits
    dsimp only
    generalize hdigits : digits (ntohs port).toNat = text
    have htext : (0 : UInt8) ∉ text.take (buff.length - t.length - 1) := fun hm =>
      digits_text _ (hdigits ▸ List.mem_of_mem_take hm)
    have hroom : t.length + (text.take (buff.length - t.length - 1)).length + 1 ≤ buff'.length := by
      have := List.length_take_le (buff.length - t.length - 1) text
      omega
    obtain ⟨buff'', hstore, hlen', hstring⟩ := store_behind ht htext hroom
    refine ⟨buff'', ?_, hlen'.trans hlen, ?_⟩
    · rw [snprintf, if_neg (by omega), hstore]
    · have hkeep : t.take (buff.length - 1) = t := List.take_of_length_le (by omega)
      rw [hstring, List.take_append, hkeep, Nat.sub_right_comm]

/-- An address is written as it should be, cut short or not, exactly if there is room for what stands in front of its
port. -/
theorem sockaddrToHuman_iff (printed : InAddr → Text) (hpos : 0 < buff.length) (addr : Option Sockaddr) :
    Truncated printed buff addr ↔ Roomy printed buff.length addr := by
  cases addr with
  | none =>
    obtain ⟨buff', hcopy, hlen, hfits, hlong, -⟩ :=
      @copyText_cases buff _ (by decide : (0 : UInt8) ∉ ascii "null") hpos
    constructor
    · rintro ⟨_, hreturned, -, hstring⟩
      cases hcopy.symm.trans hreturned
      by_contra hroom
      rw [hlong (Nat.le_of_lt_succ (Nat.lt_of_not_le hroom))] at hstring
      cases hstring
    · intro hroom
      have hlt : (ascii "null").length < buff.length := hroom
      refine ⟨buff', hcopy, hlen, ?_⟩
      show cstring buff' = some ((ascii "null").take (buff.length - 1))
      rw [hfits hlt, List.take_of_length_le (by omega)]
  | some addr =>
    obtain ⟨buff₁, hprint, hlen₁, hfits, hlong⟩ := @printAddr_cases printed buff addr.handled hpos
    have hcolon := strncat_cases hlen₁ hfits hlong hpos
    by_cases hroom : (base printed buff.length addr.handled).length + 2 ≤ buff.length
    · rw [if_pos hroom] at hcolon
      obtain ⟨buff₂, hcat, hlen₂, hstring₂⟩ := hcolon
      obtain ⟨buff₃, hlast₃, hlen₃, hstring₃⟩ := store_last hstring₂
      rw [hlen₂] at hlast₃ hlen₃
      obtain ⟨buff₄, hport, hlen₄, hstring₄⟩ := printPort_cases hlen₃ hstring₃ addr.handled
      obtain ⟨buff₅, hlast₅, hlen₅, hstring₅⟩ := store_last hstring₄
      rw [hlen₄] at hlast₅ hlen₅
      have hstrlen : strlen buff₃ = .ok (base printed buff.length addr.handled ++ ascii ":").length := by
        rw [strlen, hstring₃]
        rfl
      refine iff_of_true ⟨buff₅, ?_, hlen₅, hstring₅⟩ hroom
      unfold sockaddrToHuman
      dsimp only
      rw [hprint, ok_bind, hcat, ok_bind, hlast₃, ok_bind, hstrlen, ok_bind, hport, ok_bind, hlast₅]
    · rw [if_neg hroom] at hcolon
      refine iff_of_false ?_ hroom
      rintro ⟨_, hreturned, -⟩
      unfold sockaddrToHuman at hreturned
      dsimp only at hreturned
      rw [hprint, ok_bind, hcolon] at hreturned
      cases hreturned

/-- The addresses of the tests, as far as they are printed in the same way. -/
def printedTest : InAddr → Text
  | .sinAddr _ => ⟨ascii "1.2.3.4", by decide⟩
  | .sin6Addr _ => ⟨ascii "ffff:ffff:ffff:ffff:ffff:ffff:ffff:ffff", by decide⟩

theorem sockaddrToHuman_iff_test :
    Truncated printedTest (List.replicate 11 7) (some (.inet #v[1, 2, 3, 4] 0x8223)) :=
  (sockaddrToHuman_iff printedTest (by decide) _).mpr (by decide)

/-- The NUL behind the colon is written behind the array. -/
theorem sockaddrToHuman_broken :
    sockaddrToHuman printedTest (List.replicate 8 7) 8 (some (.inet #v[1, 2, 3, 4] 0x8223)) = .error .undefined ∧
      ¬ Truncated printedTest (List.replicate 8 7) (some (.inet #v[1, 2, 3, 4] 0x8223)) := by
  refine ⟨rfl, ?_⟩
  rintro ⟨buff', hreturned, -⟩
  cases hreturned

end Human

end Smtpd.Netutils
