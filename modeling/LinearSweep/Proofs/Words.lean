import LinearSweep.Proofs.Numerals
import LinearSweep.WordList.Layout

/-!
# Written words

The texts that write a number as a word of a word list.  There are many for each number: decimal
digits or hexadecimal ones behind one of three marks, in either letter case, with any number of
zeros in front and with or without a plus sign.  `WritesWord.readWord_eq` says that they are all
read as the number.
-/

namespace LinearSweep.WordList

open Numeral

/-! ## Notations -/

/-- Digits that write a number in a base: in any letter case, with any number of zeros in front. -/
def WritesDigits (base n : Nat) (digits : List Char) : Prop :=
  ∃ zeros, digits.map Char.toLower = List.replicate zeros '0' ++ Nat.toDigits base n

/-- A text that writes a number without a sign. -/
inductive WritesMagnitude (n : Nat) : List Char → Prop where
  | decimal {digits : List Char} :
      WritesDigits 10 n digits → digits.length ≤ 4300 → WritesMagnitude n digits
  | hex {mark digits : List Char} :
      mark ∈ [['0', 'x'], ['0', 'X'], ['$']] → WritesDigits 16 n digits →
      WritesMagnitude n (mark ++ digits)

/-- A text that writes a number as a word of a word list. -/
inductive WritesWord : Int → List Char → Prop where
  | unsigned {n : Nat} {text : List Char} : WritesMagnitude n text → WritesWord n text
  | plus {n : Nat} {text : List Char} : WritesMagnitude n text → WritesWord n ('+' :: text)
  | minus {n : Nat} {text : List Char} : WritesMagnitude n text → WritesWord (-n) ('-' :: text)

/-! ## Digits -/

namespace WritesDigits

variable {base n : Nat} {digits : List Char}

theorem valueOf_eq (writes : WritesDigits base n digits) (positional : 1 < base)
    (small : base ≤ 16) : valueOf base digits = n := by
  obtain ⟨zeros, lower⟩ := writes
  rw [← valueOf_map_toLower, lower, valueOf_replicate_append, valueOf_toDigits positional small]

theorem isDigitOf_of_mem (writes : WritesDigits base n digits) (positional : 1 < base)
    (small : base ≤ 16) {c : Char} (member : c ∈ digits) : isDigitOf base c = true := by
  obtain ⟨zeros, lower⟩ := writes
  have lowerMember : c.toLower ∈ List.replicate zeros '0' ++ Nat.toDigits base n := by
    rw [← lower]
    exact List.mem_map_of_mem member
  have bound : digitValue c.toLower < base := by
    cases List.mem_append.mp lowerMember with
    | inl zero =>
      rw [(List.mem_replicate.mp zero).2]
      exact Nat.lt_trans Nat.zero_lt_one positional
    | inr digit =>
      obtain ⟨d, within, eq⟩ := exists_digitChar_of_mem_toDigits positional digit
      rw [eq, digitValue_digitChar (Nat.lt_of_lt_of_le within small)]
      exact within
  rw [digitValue_toLower] at bound
  exact decide_eq_true bound

theorem areDigitsOf_eq_true (writes : WritesDigits base n digits) (positional : 1 < base)
    (small : base ≤ 16) : areDigitsOf base digits = true := by
  have filled : digits ≠ [] := by
    rintro rfl
    obtain ⟨zeros, lower⟩ := writes
    simp [Nat.toDigits_ne_nil] at lower
  rw [areDigitsOf, Bool.and_eq_true, List.all_eq_true]
  refine ⟨?_, fun c member => writes.isDigitOf_of_mem positional small member⟩
  simpa using filled

end WritesDigits

theorem notation?_decimal {digits : List Char} (decimal : ∀ c ∈ digits, isDigitOf 10 c = true) :
    notation? digits = (10, digits) := by
  unfold notation?
  split
  · exact absurd (decimal '$' (by simp)) (by decide)
  · exact absurd (decimal 'x' (by simp)) (by decide)
  · exact absurd (decimal 'X' (by simp)) (by decide)
  · rfl

theorem notation?_hex {mark digits : List Char} (known : mark ∈ [['0', 'x'], ['0', 'X'], ['$']]) :
    notation? (mark ++ digits) = (16, digits) := by
  simp only [List.mem_cons, List.not_mem_nil, or_false] at known
  obtain rfl | rfl | rfl := known <;> rfl


/-! ## Characters -/

/-- A character that may stand in a written word. -/
def isWordChar (c : Char) : Bool :=
  c ∈ ['+', '-', '$'] || isDigitOf 36 c

theorem isWordChar_of_isDigitOf {base : Nat} {c : Char} (small : base ≤ 36)
    (digit : isDigitOf base c = true) : isWordChar c = true := by
  rw [isWordChar, Bool.or_eq_true]
  exact .inr (decide_eq_true (Nat.lt_of_lt_of_le (of_decide_eq_true digit) small))

/-- Nothing that ends a token can stand in a word. -/
theorem outside_of_isWordChar {c : Char} (inside : isWordChar c = true) :
    isSeparator c = false ∧ startsComment c = false := by
  rw [isWordChar, Bool.or_eq_true, decide_eq_true_eq] at inside
  cases inside with
  | inl mark =>
    simp only [List.mem_cons, List.not_mem_nil, or_false] at mark
    obtain rfl | rfl | rfl := mark <;> decide
  | inr digit =>
    have code := code_of_isDigitOf digit
    constructor
    · have comma : c ≠ ',' := by
        rintro rfl
        exact absurd digit (by decide)
      rw [isSeparator, decide_eq_false comma, Bool.false_or, Text.isBlank, Text.blankRanges]
      simp only [List.any_cons, List.any_nil, Bool.or_false, Bool.or_eq_false_iff,
        Bool.and_eq_false_iff, decide_eq_false_iff_not]
      omega
    · rw [startsComment, Bool.or_eq_false_iff, decide_eq_false_iff_not, decide_eq_false_iff_not]
      constructor <;> rintro rfl <;> exact absurd digit (by decide)

/-- Nothing in a word has to be replaced or taken off before it can be read. -/
theorem kept_of_isWordChar {c : Char} (inside : isWordChar c = true) :
    Text.isBlank c = false ∧ c.toNat < 0x80 := by
  have outside := (outside_of_isWordChar inside).1
  rw [isSeparator, Bool.or_eq_false_iff] at outside
  refine ⟨outside.2, ?_⟩
  rw [isWordChar, Bool.or_eq_true, decide_eq_true_eq] at inside
  cases inside with
  | inl mark =>
    simp only [List.mem_cons, List.not_mem_nil, or_false] at mark
    obtain rfl | rfl | rfl := mark <;> decide
  | inr digit =>
    have code := code_of_isDigitOf digit
    omega

/-! ## Reading -/

namespace WritesMagnitude

variable {n : Nat} {text : List Char}

theorem isWordChar_of_mem (writes : WritesMagnitude n text) {c : Char} (member : c ∈ text) :
    isWordChar c = true := by
  have digit {base : Nat} {digits : List Char} (writes : WritesDigits base n digits)
      (positional : 1 < base) (small : base ≤ 16) (member : c ∈ digits) : isWordChar c = true :=
    isWordChar_of_isDigitOf (by omega) (writes.isDigitOf_of_mem positional small member)
  cases writes with
  | decimal digits _ => exact digit digits (by decide) (by decide) member
  | hex known digits =>
    cases List.mem_append.mp member with
    | inl mark =>
      have marks : ∀ mark ∈ [['0', 'x'], ['0', 'X'], ['$']], mark.all isWordChar = true := by
        decide
      exact List.all_eq_true.mp (marks _ known) _ mark
    | inr behind => exact digit digits (by decide) (by decide) behind

/-- What the reader finds in a text that writes a number without a sign. -/
theorem exists_digits (writes : WritesMagnitude n text) :
    ∃ base digits, notation? text = (base, digits) ∧ areDigitsOf base digits = true ∧
      ¬ (base = 10 ∧ maxDigits < digits.length) ∧ valueOf base digits = n := by
  cases writes with
  | decimal writes short =>
    refine ⟨10, text, notation?_decimal fun c => writes.isDigitOf_of_mem (by decide) (by decide),
      writes.areDigitsOf_eq_true (by decide) (by decide), ?_,
      writes.valueOf_eq (by decide) (by decide)⟩
    exact fun long => absurd long.2 (Nat.not_lt_of_le short)
  | hex known writes =>
    exact ⟨16, _, notation?_hex known, writes.areDigitsOf_eq_true (by decide) (by decide),
      by simp, writes.valueOf_eq (by decide) (by decide)⟩

theorem ne_nil (writes : WritesMagnitude n text) : text ≠ [] := by
  rintro rfl
  obtain ⟨base, digits, parts, known, -⟩ := writes.exists_digits
  cases parts
  simp [areDigitsOf] at known

/-- A number that is written without a sign does not begin with one. -/
theorem sign_eq (writes : WritesMagnitude n text) : Literal.sign text = (false, text) := by
  obtain ⟨base, digits, parts, known, -⟩ := writes.exists_digits
  unfold Literal.sign
  split
  · cases parts
    simp [areDigitsOf, isDigitOf, digitValue] at known
  · cases parts
    simp [areDigitsOf, isDigitOf, digitValue] at known
  · rfl

end WritesMagnitude

namespace WritesWord

variable {w : Int} {text : List Char}

theorem isWordChar_of_mem (writes : WritesWord w text) {c : Char} (member : c ∈ text) :
    isWordChar c = true := by
  cases writes with
  | unsigned magnitude => exact magnitude.isWordChar_of_mem member
  | plus magnitude | minus magnitude =>
    cases List.mem_cons.mp member with
    | inl sign =>
      rw [sign]
      decide
    | inr digit => exact magnitude.isWordChar_of_mem digit

theorem ne_nil (writes : WritesWord w text) : text ≠ [] := by
  cases writes with
  | unsigned magnitude => exact magnitude.ne_nil
  | plus _ | minus _ => exact List.cons_ne_nil _ _

/-- A word is read as the number that it writes. -/
theorem readWord_eq (writes : WritesWord w text) (position : Option Int) :
    readWord text position = .ok w := by
  have whole : dropLineFeed text = text := by
    apply if_neg
    intro last
    exact absurd (writes.isWordChar_of_mem (List.mem_of_getLast? last)) (by decide)
  have magnitude {negative : Bool} {n : Nat} {unsigned : List Char}
      (sign : Literal.sign text = (negative, unsigned)) (number : WritesMagnitude n unsigned) :
      readWord text position = .ok (if negative then -(n : Int) else n) := by
    obtain ⟨base, digits, parts, known, short, value⟩ := number.exists_digits
    simp only [readWord, whole, sign, parts, known, short, value]
    rfl
  cases writes with
  | unsigned number => exact magnitude number.sign_eq number
  | plus number => exact magnitude rfl number
  | minus number => exact magnitude rfl number

end WritesWord

end LinearSweep.WordList
