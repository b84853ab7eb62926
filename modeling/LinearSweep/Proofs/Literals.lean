import LinearSweep.Proofs.Tokens
import LinearSweep.Proofs.Words

/-!
# Integer literals of word lists

What the reader of words takes for a literal, `Spelling`: a sign, a mark of base sixteen, and digits
of the base.  A token is read as the number that its spelling writes, `readWord_of_spelling`, unless
the decimal numeral is too long to be read; a token without a spelling is a defect,
`readWord_of_not_spelled`.
-/

namespace LinearSweep.WordList

open Numeral

/-! ## Spellings -/

inductive Sign where
  | none
  | plus
  | minus
  deriving DecidableEq, Repr

def Sign.text : Sign → List Char
  | none => []
  | plus => ['+']
  | minus => ['-']

/-- What stands in front of the digits to tell their base. -/
inductive Mark where
  | none
  | dollar
  | lowerX
  | upperX
  deriving DecidableEq, Repr

def Mark.text : Mark → List Char
  | none => []
  | dollar => ['$']
  | lowerX => ['0', 'x']
  | upperX => ['0', 'X']

def Mark.base : Mark → Nat
  | none => 10
  | dollar | lowerX | upperX => 16

theorem Mark.all_text (mark : Mark) :
    mark.text.all (fun c => c = '$' || isDigitOf 36 c) = true := by
  cases mark <;> rfl

/-- An integer literal, part by part. -/
structure Spelling where
  sign : Sign
  mark : Mark
  digits : List Char
  filled : digits ≠ []
  known : ∀ c ∈ digits, isDigitOf mark.base c = true

namespace Spelling

def unsigned (s : Spelling) : List Char :=
  s.mark.text ++ s.digits

def text (s : Spelling) : List Char :=
  s.sign.text ++ s.unsigned

def magnitude (s : Spelling) : Nat :=
  valueOf s.mark.base s.digits

def value (s : Spelling) : Int :=
  if s.sign = .minus then -s.magnitude else s.magnitude

/-- Whether there are more decimal digits than can be read. -/
def isLong (s : Spelling) : Bool :=
  s.mark = .none && maxDigits < s.digits.length

/-! ## Parts of a spelling -/

theorem areDigitsOf_digits (s : Spelling) : areDigitsOf s.mark.base s.digits = true := by
  rw [areDigitsOf, Bool.and_eq_true, List.all_eq_true]
  refine ⟨?_, s.known⟩
  simpa using s.filled

theorem notation?_unsigned (s : Spelling) : notation? s.unsigned = (s.mark.base, s.digits) := by
  obtain ⟨sign, mark, digits, filled, known⟩ := s
  cases mark with
  | none => exact notation?_decimal known
  | dollar | lowerX | upperX => rfl

/-- Only letters, digits and the dollar sign stand in a literal without its sign. -/
theorem mem_unsigned {s : Spelling} {c : Char} (member : c ∈ s.unsigned) :
    c = '$' ∨ isDigitOf 36 c = true := by
  cases List.mem_append.mp member with
  | inl mark => simpa using List.all_eq_true.mp s.mark.all_text c mark
  | inr digit =>
    right
    have small : s.mark.base ≤ 36 := by
      cases s.mark <;> decide
    exact decide_eq_true (Nat.lt_of_lt_of_le (of_decide_eq_true (s.known c digit)) small)

theorem isWordChar_of_mem {s : Spelling} {c : Char} (member : c ∈ s.text) :
    isWordChar c = true := by
  cases List.mem_append.mp member with
  | inl sign =>
    have signs (sign : Sign) : sign.text.all isWordChar = true := by
      cases sign <;> decide
    exact List.all_eq_true.mp (signs s.sign) c sign
  | inr unsigned =>
    obtain rfl | digit := mem_unsigned unsigned
    · decide
    · exact isWordChar_of_isDigitOf (Nat.le_refl 36) digit

theorem text_ne_nil (s : Spelling) : s.text ≠ [] :=
  List.append_ne_nil_of_right_ne_nil _ (List.append_ne_nil_of_right_ne_nil _ s.filled)

/-- A text that is a literal has no other tokens. -/
theorem tokens_text (s : Spelling) : tokens s.text = [s.text] := by
  have word := @tokens_word s.text [] s.text_ne_nil
    (fun c member => outside_of_isWordChar (isWordChar_of_mem member)) (by simp [EndsWord])
  rwa [List.append_nil] at word

theorem sign_text (s : Spelling) :
    Literal.sign s.text = (decide (s.sign = .minus), s.unsigned) := by
  cases same : s.sign with
  | plus | minus =>
    rw [text, same]
    rfl
  | none =>
    rw [text, same]
    change Literal.sign s.unsigned = (false, s.unsigned)
    unfold Literal.sign
    split
    next minus => exact absurd (mem_unsigned (minus ▸ List.mem_cons_self)) (by decide)
    next plus => exact absurd (mem_unsigned (plus ▸ List.mem_cons_self)) (by decide)
    next => rfl

variable {s t : Spelling}

theorem isLong_iff (s : Spelling) :
    s.isLong = true ↔ s.mark.base = 10 ∧ maxDigits < s.digits.length := by
  have decimal : s.mark = .none ↔ s.mark.base = 10 := by
    cases s.mark <;> decide
  rw [isLong, Bool.and_eq_true, decide_eq_true_eq, decide_eq_true_eq, decimal]

/-- The text of a spelling tells its parts, except for the kind of a mark of base sixteen. -/
theorem parts_of_text_eq (same : s.text = t.text) :
    (s.sign = .minus ↔ t.sign = .minus) ∧ s.mark.base = t.mark.base ∧ s.digits = t.digits := by
  have signs := congrArg Literal.sign same
  rw [sign_text, sign_text, Prod.mk.injEq, decide_eq_decide] at signs
  have notations := congrArg notation? signs.2
  rw [notation?_unsigned, notation?_unsigned, Prod.mk.injEq] at notations
  exact ⟨signs.1, notations⟩

theorem value_eq_of_text_eq (same : s.text = t.text) : s.value = t.value := by
  obtain ⟨sign, base, digits⟩ := parts_of_text_eq same
  simp only [value, magnitude, base, digits, sign]

theorem isLong_eq_of_text_eq (same : s.text = t.text) : s.isLong = t.isLong := by
  obtain ⟨-, base, digits⟩ := parts_of_text_eq same
  rw [Bool.eq_iff_iff, isLong_iff, isLong_iff, base, digits]

end Spelling

/-! ## Spellings of tokens -/

/-- A token is an integer literal that is not too long to be read, and writes a number. -/
def Spells (token : List Char) (number : Int) : Prop :=
  ∃ s : Spelling, s.text = token ∧ s.isLong = false ∧ s.value = number

/-- A token with a spelling is read as the number that it writes, if it can be read at all. -/
theorem readWord_of_spelling {token : List Char} {s : Spelling}
    (spelled : s.text = dropLineFeed token) (position : Option Int) :
    readWord token position =
      if s.isLong then .error (.numeral (.tooManyDigits s.digits.length)) else .ok s.value := by
  simp only [readWord, ← spelled, s.sign_text, s.notation?_unsigned, s.areDigitsOf_digits,
    s.isLong_iff, Bool.not_true, Bool.false_eq_true, if_false, decide_eq_true_eq]
  rfl

theorem exists_sign (text : List Char) :
    ∃ sign : Sign, text = sign.text ++ (Literal.sign text).2 := by
  unfold Literal.sign
  split
  · exact ⟨.minus, rfl⟩
  · exact ⟨.plus, rfl⟩
  · exact ⟨.none, rfl⟩

theorem exists_mark (unsigned : List Char) :
    ∃ mark : Mark, (notation? unsigned).1 = mark.base ∧
      unsigned = mark.text ++ (notation? unsigned).2 := by
  unfold notation?
  split
  · exact ⟨.dollar, rfl, rfl⟩
  · exact ⟨.lowerX, rfl, rfl⟩
  · exact ⟨.upperX, rfl, rfl⟩
  · exact ⟨.none, rfl, rfl⟩

/-- Whatever is taken for digits of a base has a spelling. -/
theorem exists_spelling {text : List Char}
    (known : areDigitsOf (notation? (Literal.sign text).2).1
      (notation? (Literal.sign text).2).2 = true) :
    ∃ s : Spelling, s.text = text := by
  obtain ⟨sign, signed⟩ := exists_sign text
  obtain ⟨mark, base, marked⟩ := exists_mark (Literal.sign text).2
  rw [areDigitsOf, Bool.and_eq_true, List.all_eq_true, base] at known
  let s : Spelling := {
    sign, mark
    digits := (notation? (Literal.sign text).2).2
    filled := by simpa using known.1
    known := known.2 }
  refine ⟨s, ?_⟩
  rw [Spelling.text, Spelling.unsigned, ← marked, ← signed]

/-- Nothing without a spelling is read. -/
theorem readWord_of_not_spelled {token : List Char}
    (unspelled : ∀ s : Spelling, s.text ≠ dropLineFeed token) (position : Option Int) :
    readWord token position = .error (.ofDefect (.notAWord token position)) := by
  apply if_pos
  rw [Bool.not_eq_true', ← Bool.not_eq_true]
  intro known
  obtain ⟨s, spelled⟩ := exists_spelling known
  exact unspelled s spelled

theorem readWord_eq_ok_iff {token : List Char} {position : Option Int} {number : Int} :
    readWord token position = .ok number ↔ Spells (dropLineFeed token) number := by
  constructor
  · intro read
    by_cases spelled : ∃ s : Spelling, s.text = dropLineFeed token
    · obtain ⟨s, spelled⟩ := spelled
      rw [readWord_of_spelling spelled] at read
      split at read
      · cases read
      next short => exact ⟨s, spelled, by simpa using short, Except.ok.inj read⟩
    · rw [readWord_of_not_spelled (not_exists.mp spelled)] at read
      cases read
  · rintro ⟨s, spelled, short, rfl⟩
    rw [readWord_of_spelling spelled, short]
    rfl

/-- No token of a text ends in a line feed. -/
theorem dropLineFeed_of_mem_tokens {text token : List Char} (member : token ∈ tokens text) :
    dropLineFeed token = token := by
  apply if_neg
  intro last
  exact absurd (isSeparator_of_mem_tokens member _ (List.mem_of_getLast? last)) (by decide)

end LinearSweep.WordList
