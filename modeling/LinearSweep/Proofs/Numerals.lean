import Mathlib.Algebra.Group.Nat.Defs
import LinearSweep.Numeral.Hex

/-!
# Digits of written numbers

`Nat.toDigits` writes a number in any base up to sixteen, and `valueOf` reads it back, in either
letter case.  From the digits follow the two things that a reader of a longer text needs to know of
a numeral: which characters can stand in it, and how many there are.
-/

namespace LinearSweep.Numeral

/-! ## Digits of any base -/

theorem exists_digitChar_of_mem_toDigits {base n : Nat} (positional : 1 < base) {c : Char}
    (member : c ∈ Nat.toDigits base n) : ∃ d, d < base ∧ c = Nat.digitChar d := by
  induction n using Nat.strongRecOn with
  | _ n ih =>
    cases Nat.lt_or_ge n base with
    | inl small =>
      rw [Nat.toDigits_of_lt_base small, List.mem_singleton] at member
      exact ⟨n, small, member⟩
    | inr large =>
      rw [Nat.toDigits_of_base_le positional large, List.mem_append, List.mem_singleton] at member
      cases member with
      | inl earlier => exact ih (n / base) (Nat.div_lt_self (by omega) positional) earlier
      | inr last => exact ⟨n % base, Nat.mod_lt n (by omega), last⟩

theorem digitValue_digitChar : ∀ {d : Nat}, d < 16 → digitValue (Nat.digitChar d) = d := by
  decide

/-- What `Nat.toDigits` writes reads back as the number. -/
theorem valueOf_toDigits {base : Nat} (positional : 1 < base) (small : base ≤ 16) (n : Nat) :
    valueOf base (Nat.toDigits base n) = n := by
  induction n using Nat.strongRecOn with
  | _ n ih =>
    cases Nat.lt_or_ge n base with
    | inl digit =>
      rw [Nat.toDigits_of_lt_base digit, ← List.nil_append [_], valueOf_concat,
        digitValue_digitChar (by omega), valueOf_nil, Nat.mul_zero, Nat.zero_add]
    | inr large =>
      have last : n % base < base := Nat.mod_lt n (by omega)
      rw [Nat.toDigits_of_base_le positional large, valueOf_concat,
        ih (n / base) (Nat.div_lt_self (by omega) positional), digitValue_digitChar (by omega)]
      exact Nat.div_add_mod n base

/-- A digit of any base is a decimal digit or a letter of ASCII. -/
theorem code_of_isDigitOf {c : Char} (digit : isDigitOf 36 c = true) :
    0x30 ≤ c.toNat ∧ c.toNat ≤ 0x39 ∨ 0x41 ≤ c.toNat ∧ c.toNat ≤ 0x7A := by
  have value := of_decide_eq_true digit
  change (if 0x30 ≤ c.toNat ∧ c.toNat ≤ 0x39 then _
    else if 0x41 ≤ c.toNat ∧ c.toNat ≤ 0x5A then _
    else if 0x61 ≤ c.toNat ∧ c.toNat ≤ 0x7A then _ else 36) < 36 at value
  grind

/-! ## Letter case -/

/-- A letter has the same value in either case. -/
theorem digitValue_toLower (c : Char) : digitValue c.toLower = digitValue c := by
  have letters : ∀ k < 26, digitValue (Char.ofNat (65 + k)).toLower =
      digitValue (Char.ofNat (65 + k)) := by
    decide
  by_cases upper : 65 ≤ c.toNat ∧ c.toNat ≤ 90
  · have code : 65 + (c.toNat - 65) = c.toNat := by omega
    have letter := letters (c.toNat - 65) (by omega)
    rwa [code, Char.ofNat_toNat] at letter
  · have kept : c.toLower = c := dif_neg upper
    rw [kept]

theorem valueOf_map_toLower (base : Nat) (digits : List Char) :
    valueOf base (digits.map Char.toLower) = valueOf base digits := by
  simp only [valueOf, List.foldl_map, digitValue_toLower]

/-! ## Hexadecimal numerals -/

theorem isDigitOf_of_mem_hexDigits {n : Nat} {c : Char} (member : c ∈ hexDigits n) :
    isDigitOf 16 c = true := by
  obtain ⟨lower, digit, rfl⟩ := List.mem_map.mp member
  obtain ⟨d, small, rfl⟩ := exists_digitChar_of_mem_toDigits (by decide) digit
  rw [isDigitOf, digitValue_toUpper_digitChar small]
  exact decide_eq_true small

/-- Only digits stand in a numeral without sign. -/
theorem isDigitOf_of_mem_hex_ofNat {width n : Nat} {c : Char} (member : c ∈ hex width n) :
    isDigitOf 16 c = true := by
  cases List.mem_append.mp member with
  | inl zero =>
    rw [(List.mem_replicate.mp zero).2]
    decide
  | inr digit => exact isDigitOf_of_mem_hexDigits digit

/-- A character that may stand in a numeral with a sign. -/
def isHexChar (c : Char) : Bool :=
  isDigitOf 16 c || c == '-'

theorem isHexChar_of_mem_leftpad {n width : Nat} {c : Char}
    (member : c ∈ (hexDigits n).leftpad width '0') : isHexChar c = true := by
  rw [List.leftpad, List.mem_append] at member
  cases member with
  | inl zero =>
    obtain ⟨-, rfl⟩ := List.mem_replicate.mp zero
    decide
  | inr digit => rw [isHexChar, isDigitOf_of_mem_hexDigits digit, Bool.true_or]

theorem isHexChar_of_mem_hex {width : Nat} {value : Int} {c : Char} (member : c ∈ hex width value) :
    isHexChar c = true := by
  cases value with
  | ofNat n => exact isHexChar_of_mem_leftpad member
  | negSucc n =>
    cases List.mem_cons.mp member with
    | inl sign =>
      subst sign
      decide
    | inr digit => exact isHexChar_of_mem_leftpad digit

theorem hex_ne_nil (width : Nat) (value : Int) : hex width value ≠ [] := by
  cases value with
  | ofNat n =>
    intro empty
    have digits : hexDigits n ≠ [] := by simp [hexDigits, Nat.toDigits_ne_nil]
    exact digits (List.append_eq_nil_iff.mp empty).2
  | negSucc n => exact List.cons_ne_nil _ _

/-- A number that fits is written in exactly as many digits as the numeral is wide. -/
theorem length_hex_of_lt {width n : Nat} (wide : 0 < width) (fits : n < 16 ^ width) :
    (hex width n).length = width := by
  show ((hexDigits n).leftpad width '0').length = width
  have bound : (hexDigits n).length ≤ width := by
    rw [hexDigits, List.length_map]
    exact (Nat.length_toDigits_le_iff (by decide) wide).mpr fits
  rw [List.length_leftpad, Nat.max_eq_left bound]

theorem hex_ofNat_inj {width n m : Nat} (same : hex width n = hex width m) : n = m := by
  have value := congrArg (valueOf 16) same
  simpa only [valueOf_hex_ofNat] using value

end LinearSweep.Numeral
