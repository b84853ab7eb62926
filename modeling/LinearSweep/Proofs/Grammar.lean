import LinearSweep.Proofs.Literals
import Mathlib.Data.List.Basic
import Mathlib.Tactic.Ring

/-!
# The grammar of words

`Denotes` says without the reader which texts are integer literals, and which numbers they stand
for: the digits are looked up in an alphabet, and each of them counts for a power of the base.  The
reader accepts these texts, with one line feed behind them or none, and computes these numbers,
`readWord_iff_denotes`; of anything else it says at which position it is.  It goes through the
digits from the front and never computes a power, which is what `foldl_eq_positional` is about.
-/

namespace LinearSweep.WordList

open Numeral

/-! ## Alphabets -/

def decimalChars : List Char :=
  ['0', '1', '2', '3', '4', '5', '6', '7', '8', '9']

/-- The digits of base sixteen in ascending order. -/
def hexChars : List Char :=
  decimalChars ++ ['a', 'b', 'c', 'd', 'e', 'f']

/-- The characters that may stand behind a mark. -/
def Mark.alphabet : Mark → List Char
  | none => decimalChars
  | dollar | lowerX | upperX => hexChars ++ ['A', 'B', 'C', 'D', 'E', 'F']

/-- How many digits come before a digit, whatever its letter case. -/
def rank (c : Char) : Nat :=
  hexChars.idxOf c.toLower

/-- The number that digits write in a base.  A digit counts as often as there are numerals of the
length of what stands behind it. -/
def positional (base : Nat) : List Char → Nat
  | [] => 0
  | c :: digits => rank c * base ^ digits.length + positional base digits

theorem mem_alphabet_iff {mark : Mark} {c : Char} :
    c ∈ mark.alphabet ↔ isDigitOf mark.base c = true := by
  constructor
  · have digits (mark : Mark) : mark.alphabet.all (isDigitOf mark.base) = true := by
      cases mark <;> decide
    exact List.all_eq_true.mp (digits mark) c
  · intro digit
    have codes (mark : Mark) : ∀ n < 0x7B, isDigitOf mark.base (Char.ofNat n) = true →
        Char.ofNat n ∈ mark.alphabet := by
      cases mark <;> decide
    have small : mark.base ≤ 36 := by
      cases mark <;> decide
    have wide : isDigitOf 36 c = true :=
      decide_eq_true (Nat.lt_of_lt_of_le (of_decide_eq_true digit) small)
    have code := code_of_isDigitOf wide
    have member := codes mark c.toNat (by omega)
    rw [Char.ofNat_toNat] at member
    exact member digit

theorem digitValue_eq_rank {mark : Mark} {c : Char} (known : c ∈ mark.alphabet) :
    digitValue c = rank c := by
  have digits (mark : Mark) : mark.alphabet.all (fun c => digitValue c = rank c) = true := by
    cases mark <;> decide
  simpa using List.all_eq_true.mp (digits mark) c known

/-- What has been read so far is worth a power of the base for each digit that is still to come. -/
theorem foldl_eq_positional {base : Nat} {digits : List Char}
    (known : ∀ c ∈ digits, digitValue c = rank c) (total : Nat) :
    digits.foldl (fun total c => base * total + digitValue c) total =
      total * base ^ digits.length + positional base digits := by
  induction digits generalizing total with
  | nil => simp [positional]
  | cons c digits ih =>
    rw [List.forall_mem_cons] at known
    rw [List.foldl_cons, ih known.2, known.1, positional, List.length_cons, Nat.pow_succ]
    ring

theorem valueOf_eq_positional {base : Nat} {digits : List Char}
    (known : ∀ c ∈ digits, digitValue c = rank c) :
    valueOf base digits = positional base digits := by
  rw [valueOf, foldl_eq_positional known, Nat.zero_mul, Nat.zero_add]

/-! ## Literals -/

/-- A text is an integer literal that stands for a number: behind a sign and a mark, which may both
be missing, there is at least one digit, and all that stands there are digits. -/
def Denotes (literal : List Char) (number : Int) : Prop :=
  ∃ (sign : Sign) (mark : Mark) (digits : List Char),
    literal = sign.text ++ mark.text ++ digits ∧ digits ≠ [] ∧ (∀ c ∈ digits, c ∈ mark.alphabet) ∧
      number = if sign = .minus then -(positional mark.base digits : Int)
        else positional mark.base digits

theorem denotes_iff_spelling {literal : List Char} {number : Int} :
    Denotes literal number ↔ ∃ s : Spelling, s.text = literal ∧ s.value = number := by
  have value (s : Spelling) : s.magnitude = positional s.mark.base s.digits :=
    valueOf_eq_positional fun c member =>
      digitValue_eq_rank (mem_alphabet_iff.mpr (s.known c member))
  constructor
  · rintro ⟨sign, mark, digits, rfl, filled, known, rfl⟩
    let s : Spelling :=
      ⟨sign, mark, digits, filled, fun c member => mem_alphabet_iff.mp (known c member)⟩
    refine ⟨s, (List.append_assoc _ _ _).symm, ?_⟩
    rw [Spelling.value, value]
  · rintro ⟨s, rfl, rfl⟩
    refine ⟨s.sign, s.mark, s.digits, (List.append_assoc _ _ _).symm, s.filled,
      fun c member => mem_alphabet_iff.mpr (s.known c member), ?_⟩
    rw [Spelling.value, value]

namespace Spelling

theorem ne_sign_of_mem_unsigned {s : Spelling} {c : Char} (member : c ∈ s.unsigned) :
    c ≠ '+' ∧ c ≠ '-' := by
  have known := mem_unsigned member
  constructor <;> rintro rfl <;> exact absurd known (by decide)

/-- A sign takes up one character at most. -/
theorem mem_unsigned_of_mem_tail {s : Spelling} {c : Char} (member : c ∈ s.text.tail) :
    c ∈ s.unsigned := by
  rw [text] at member
  cases same : s.sign with
  | none =>
    rw [same] at member
    exact List.mem_of_mem_tail member
  | plus | minus =>
    rw [same] at member
    exact member

end Spelling

/-! ## Tokens -/

/-- One line feed at the end of a token does not count. -/
theorem dropLineFeed_eq_iff {token literal : List Char} (unbroken : '\n' ∉ literal) :
    dropLineFeed token = literal ↔ token = literal ∨ token = literal ++ ['\n'] := by
  constructor
  · rintro rfl
    unfold dropLineFeed
    split
    next last => exact .inr (List.dropLast_append_getLast? '\n' last).symm
    next => exact .inl rfl
  · rintro (rfl | rfl)
    · exact if_neg fun last => unbroken (List.mem_of_getLast? last)
    · simp [dropLineFeed]

theorem Spelling.text_eq_iff {s : Spelling} {token : List Char} :
    s.text = dropLineFeed token ↔ token = s.text ∨ token = s.text ++ ['\n'] := by
  have unbroken : '\n' ∉ s.text := fun member => absurd (isWordChar_of_mem member) (by decide)
  rw [eq_comm, dropLineFeed_eq_iff unbroken]

/-- A defect whose report can be worded is the fault itself. -/
theorem ofDefect_of_message {defect : Defect} {report : Report} {message : String}
    (worded : defect.report = .ok report) (said : report.message = .ok message) :
    Fault.ofDefect defect = .defect defect := by
  have whole : (defect.report >>= Report.message) = .ok message := by
    rw [worded]
    exact said
  rw [Fault.ofDefect, whole]

/-- A report can be worded if its position can be written. -/
theorem exists_message {report : Report}
    (near : ∀ position ∈ report.position, position.natAbs < decimalBound) :
    ∃ message, report.message = .ok message := by
  unfold Report.message
  cases place : report.position with
  | none => exact ⟨_, rfl⟩
  | some position =>
    have written := decimal_eq_ok_iff.mpr ⟨near position place, rfl⟩
    simp only [written]
    exact ⟨_, rfl⟩

/-- A token is read as a number exactly if it is a literal that stands for the number, with one line
feed behind it or none.  Any other token is reported at the position that was given.  So there is
nothing but ASCII in what is read, no underscore, no blank, and no sign but in front; and whichever
way a number is written, with whatever zeros in front, it is the one that is read. -/
theorem readWord_iff_denotes {token : List Char} {position : Option Int}
    (short : ∀ (sign : Sign) (digits : List Char), (∀ c ∈ digits, c ∈ decimalChars) →
      token = sign.text ++ digits ∨ token = sign.text ++ digits ++ ['\n'] → digits.length ≤ 4300)
    (near : ∀ p ∈ position, p.natAbs < decimalBound) :
    (∀ number, readWord token position = .ok number ↔
      ∃ literal, Denotes literal number ∧ (token = literal ∨ token = literal ++ ['\n'])) ∧
    ((∀ number, readWord token position ≠ .ok number) →
      readWord token position = .error (.defect (.notAWord token position)) ∧
        ∃ report message, (Defect.notAWord token position).report = .ok report ∧
          report.position = position ∧ report.message = .ok message) ∧
    (∀ number, readWord token position = .ok number →
      (∀ c ∈ dropLineFeed token, c ≠ '_' ∧ Text.isBlank c = false ∧ c.toNat < 0x80) ∧
        ∀ c ∈ (dropLineFeed token).tail, c ≠ '+' ∧ c ≠ '-') ∧
    ∀ number text, WritesWord number text → readWord text position = .ok number := by
  have readable {s : Spelling} (spelled : s.text = dropLineFeed token) : s.isLong = false := by
    rw [← Bool.not_eq_true, s.isLong_iff]
    rintro ⟨decimal, long⟩
    have unmarked : s.mark = .none := by
      cases mark : s.mark <;> simp [mark, Mark.base] at decimal ⊢
    have text : s.text = s.sign.text ++ s.digits := by
      rw [Spelling.text, Spelling.unsigned, unmarked]
      rfl
    have known : ∀ c ∈ s.digits, c ∈ decimalChars := fun c member => by
      have digit := mem_alphabet_iff.mpr (s.known c member)
      rwa [unmarked] at digit
    have fits := short s.sign s.digits known (text ▸ Spelling.text_eq_iff.mp spelled)
    exact absurd long (Nat.not_lt_of_le fits)
  refine ⟨fun number => ?_, fun unread => ?_, fun number read => ?_,
    fun number text writes => writes.readWord_eq position⟩
  · rw [readWord_eq_ok_iff]
    constructor
    · rintro ⟨s, spelled, -, value⟩
      exact ⟨s.text, denotes_iff_spelling.mpr ⟨s, rfl, value⟩, Spelling.text_eq_iff.mp spelled⟩
    · rintro ⟨literal, denotes, place⟩
      obtain ⟨s, rfl, value⟩ := denotes_iff_spelling.mp denotes
      have spelled := Spelling.text_eq_iff.mpr place
      exact ⟨s, spelled, readable spelled, value⟩
  · have unspelled (s : Spelling) : s.text ≠ dropLineFeed token := fun spelled =>
      unread s.value (readWord_eq_ok_iff.mpr ⟨s, spelled, readable spelled, rfl⟩)
    obtain ⟨report, worded, place⟩ : ∃ report,
        (Defect.notAWord token position).report = .ok report ∧ report.position = position :=
      ⟨_, rfl, rfl⟩
    rw [← place] at near
    obtain ⟨message, said⟩ := exists_message near
    refine ⟨?_, report, message, worded, place, said⟩
    rw [readWord_of_not_spelled unspelled, ofDefect_of_message worded said]
  · obtain ⟨s, spelled, -, -⟩ := readWord_eq_ok_iff.mp read
    rw [← spelled]
    refine ⟨fun c member => ?_, fun c member =>
      Spelling.ne_sign_of_mem_unsigned (Spelling.mem_unsigned_of_mem_tail member)⟩
    have inside := Spelling.isWordChar_of_mem member
    refine ⟨?_, kept_of_isWordChar inside⟩
    rintro rfl
    exact absurd inside (by decide)

/-- A line feed behind a literal does not count, but an underscore between its digits does. -/
theorem readWord_of_broken_line :
    readWord ['-', '0', 'X', '1', 'f', '\n'] (some (-3)) = .ok (-31) ∧
      readWord ['1', '_', '0'] (some (-3)) =
        .error (.defect (.notAWord ['1', '_', '0'] (some (-3)))) := by
  have near : ∀ p ∈ some (-3 : Int), p.natAbs < decimalBound := by
    rintro _ ⟨⟩
    decide +kernel
  have short {token : List Char} (few : token.length ≤ 4300) (sign : Sign) (digits : List Char)
      (_ : ∀ c ∈ digits, c ∈ decimalChars)
      (place : token = sign.text ++ digits ∨ token = sign.text ++ digits ++ ['\n']) :
      digits.length ≤ 4300 := by
    obtain rfl | rfl := place <;> simp only [List.length_append] at few <;> omega
  constructor
  · have denotes : Denotes ['-', '0', 'X', '1', 'f'] (-31) :=
      ⟨.minus, .upperX, ['1', 'f'], rfl, List.cons_ne_nil _ _,
        by simp [Mark.alphabet, hexChars, decimalChars], by decide⟩
    exact ((readWord_iff_denotes (short (by decide)) near).1 (-31)).mpr ⟨_, denotes, .inr rfl⟩
  · obtain ⟨-, unread, plain, -⟩ :=
      @readWord_iff_denotes ['1', '_', '0'] _ (short (by decide)) near
    refine (unread fun number read => ?_).1
    exact absurd rfl ((plain number read).1 '_' (by decide)).1

end LinearSweep.WordList
