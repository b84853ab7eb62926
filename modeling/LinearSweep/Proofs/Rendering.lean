import LinearSweep.Proofs.Addresses
import LinearSweep.Proofs.Grammar
import LinearSweep.Proofs.Operands
import Mathlib.Data.Nat.Digits.Defs

/-!
# Operands written out

The numeral of an operand may have a sign and any number of digits, since nothing keeps the value
within the size of its mode.  `WritesHex` says without the writer what a numeral of an integer is,
and a numeral is read back as the integer, `WritesHex.read_eq`.  So no two values have the same text
in a mode.  Within the size of the mode the text tells the mode as well, as far as it can.
-/

namespace LinearSweep

open Numeral WordList

namespace Numeral

/-! ## Numerals -/

/-- The digits of base sixteen in upper case, in ascending order. -/
def upperChars : List Char :=
  decimalChars ++ ['A', 'B', 'C', 'D', 'E', 'F']

/-- A numeral of base sixteen stands for an integer: behind a minus sign, if the integer is
negative, there is at least one digit, all are in upper case, and they write its absolute value. -/
def WritesHex (value : Int) (numeral : List Char) : Prop :=
  ∃ digits, numeral = (if value < 0 then ['-'] else []) ++ digits ∧ digits ≠ [] ∧
    (∀ c ∈ digits, c ∈ upperChars) ∧ positional 16 digits = value.natAbs

theorem mem_alphabet_of_mem_upperChars {c : Char} (upper : c ∈ upperChars) :
    c ∈ Mark.dollar.alphabet := by
  have all : upperChars.all (· ∈ Mark.dollar.alphabet) = true := by decide
  simpa using List.all_eq_true.mp all c upper

theorem mem_upperChars_of_mem_leftpad {width n : Nat} {c : Char}
    (member : c ∈ (hexDigits n).leftpad width '0') : c ∈ upperChars := by
  rw [List.leftpad, List.mem_append] at member
  cases member with
  | inl zero =>
    rw [(List.mem_replicate.mp zero).2]
    decide
  | inr digit =>
    have digits : ∀ d < 16, (Nat.digitChar d).toUpper ∈ upperChars := by decide
    obtain ⟨lower, written, rfl⟩ := List.mem_map.mp digit
    obtain ⟨d, small, rfl⟩ := exists_digitChar_of_mem_toDigits (by decide) written
    exact digits d small

/-- Zeros fill up a numeral behind its sign. -/
theorem exists_hex_eq (width : Nat) (value : Int) :
    ∃ digits, hex width value =
      (if value < 0 then ['-'] else []) ++ (hexDigits value.natAbs).leftpad digits '0' := by
  cases value with
  | ofNat n => exact ⟨width, rfl⟩
  | negSucc n => exact ⟨width - 1, by simp [hex]⟩

theorem valueOf_eq_positional_of_upper {digits : List Char}
    (known : ∀ c ∈ digits, c ∈ upperChars) : valueOf 16 digits = positional 16 digits :=
  valueOf_eq_positional fun c member =>
    digitValue_eq_rank (mem_alphabet_of_mem_upperChars (known c member))

theorem writesHex_hex (width : Nat) (value : Int) : WritesHex value (hex width value) := by
  obtain ⟨digits, shown⟩ := exists_hex_eq width value
  have known : ∀ c ∈ (hexDigits value.natAbs).leftpad digits '0', c ∈ upperChars :=
    fun _ => mem_upperChars_of_mem_leftpad
  refine ⟨_, shown, hex_ne_nil digits (value.natAbs : Int), known, ?_⟩
  rw [← valueOf_eq_positional_of_upper known]
  exact valueOf_hex_ofNat digits value.natAbs

/-- A numeral is read back as the integer that it stands for. -/
theorem WritesHex.read_eq {value : Int} {numeral : List Char} (writes : WritesHex value numeral) :
    Literal.read 16 numeral = .ok value := by
  obtain ⟨digits, rfl, filled, known, written⟩ := writes
  have all : ∀ c ∈ digits, isDigitOf 16 c = true := fun c member =>
    mem_alphabet_iff.mp (mem_alphabet_of_mem_upperChars (known c member))
  have unsigned : Literal.sign digits = (false, digits) :=
    Literal.sign_of_digits fun c member => isDigitOf_mono (by decide) (all c member)
  have kept : ∀ c ∈ digits, Text.isBlank c = false ∧ c.toNat < 0x80 := fun c member =>
    kept_of_isWordChar (isWordChar_of_isDigitOf (by decide) (all c member))
  have body : (if 16 = 16 then Literal.skipMark digits else digits) = digits :=
    Literal.skipMark_of_digits all
  have short : 16 = 10 → digits.length ≤ maxDigits := fun decimal => absurd decimal (by decide)
  rw [← valueOf_eq_positional_of_upper known] at written
  split
  next negative =>
    have signed : Literal.sign ('-' :: digits) = (true, digits) := rfl
    have minus : ∀ c ∈ '-' :: digits, Text.isBlank c = false ∧ c.toNat < 0x80 :=
      List.forall_mem_cons.mpr ⟨by decide, kept⟩
    have read := Literal.read_of_parts signed body minus (by decide) filled all short
    rw [if_pos rfl, written] at read
    rw [List.singleton_append, read]
    congr 1
    omega
  next positive =>
    have read := Literal.read_of_parts unsigned body kept (by decide) filled all short
    rw [if_neg Bool.false_ne_true, written] at read
    rw [List.nil_append, read]
    congr 1
    omega

end Numeral

namespace Operand

variable {mode : Mode} {before behind : String}

/-! ## Texts -/

theorem text_of_template? (template : mode.template? = some (before, behind)) (value : Int) :
    text mode value = before ++ String.ofList (hex (2 * mode.operandSize) value) ++ behind := by
  simp only [text, template]

theorem shown_of_template? (template : mode.template? = some (before, behind)) :
    0 < mode.operandSize :=
  (Mode.isSome_template?_iff mode).mp (by simp [template])

/-- Any two values have different texts in a mode with operand bytes. -/
theorem text_inj (shown : 0 < mode.operandSize) {value other : Int}
    (same : text mode value = text mode other) : value = other := by
  have numerals := (parts_of_text_eq shown shown same).2
  have read := (writesHex_hex (2 * mode.operandSize) value).read_eq
  rw [numerals, (writesHex_hex (2 * mode.operandSize) other).read_eq] at read
  exact (Except.ok.inj read).symm

/-- A value within the size of its mode is written in two digits a byte. -/
theorem length_hex_of_fits (shown : 0 < mode.operandSize) {value : Int} (lower : 0 ≤ value)
    (upper : value < 256 ^ mode.operandSize) :
    (hex (2 * mode.operandSize) value).length = 2 * mode.operandSize ∧
      ∀ c ∈ hex (2 * mode.operandSize) value, c ∈ upperChars := by
  obtain ⟨n, rfl⟩ := Int.eq_ofNat_of_zero_le lower
  have fits : n < 16 ^ (2 * mode.operandSize) := by
    rw [Nat.pow_mul]
    exact_mod_cast upper
  exact ⟨length_hex_of_lt (by omega) fits, fun _ => mem_upperChars_of_mem_leftpad⟩

theorem alike_of_text_eq {mode' : Mode} (shown : 0 < mode.operandSize)
    (shown' : 0 < mode'.operandSize) {value value' : Int} (lower : 0 ≤ value)
    (upper : value < 256 ^ mode.operandSize) (lower' : 0 ≤ value')
    (upper' : value' < 256 ^ mode'.operandSize) (same : text mode value = text mode' value') :
    value = value' ∧ Mode.Alike mode mode' := by
  obtain ⟨n, rfl⟩ := Int.eq_ofNat_of_zero_le lower
  obtain ⟨n', rfl⟩ := Int.eq_ofNat_of_zero_le lower'
  have legal {m : Mode} (shown : 0 < m.operandSize) : m ≠ .illegal := by
    rintro rfl
    exact absurd shown (by decide)
  obtain ⟨alike, equal⟩ := eq_of_text_eq (legal shown) (legal shown') (by exact_mod_cast upper)
    (by exact_mod_cast upper') same
  exact ⟨congrArg Nat.cast equal, alike⟩

/-! ## Bytes -/

/-- The low byte comes first. -/
theorem value_eq_ofDigits {bytes : List UInt8} (short : bytes.length ≤ 2) :
    value bytes = Nat.ofDigits 256 (bytes.map UInt8.toNat) := by
  match bytes with
  | [] | [_] | [_, _] => simp [value, Nat.ofDigits]
  | _ :: _ :: _ :: _ =>
    simp only [List.length_cons] at short
    omega

theorem bytes_eq_of_text_eq {bytes bytes' : List UInt8} (length : bytes.length = mode.operandSize)
    (length' : bytes'.length = mode.operandSize)
    (same : text mode (value bytes) = text mode (value bytes')) : bytes = bytes' := by
  have short := mode.operandSize_le
  by_cases shown : 0 < mode.operandSize
  · have values := Int.ofNat.inj (text_inj shown same)
    exact value_inj (by omega) (by omega) values
  · rw [List.length_eq_zero_iff.mp (by omega : bytes.length = 0),
      List.length_eq_zero_iff.mp (by omega : bytes'.length = 0)]

/-- An operand is the template of its mode with a numeral in it that is read back as the value,
whatever the value is, so it tells the value.  For a value within the size of the mode the numeral
has two digits a byte, and the operand tells the mode too, except that a displacement looks like an
address in the zero page.  It also tells the operand bytes, whose value it shows. -/
theorem text_tells_value :
    (∀ (mode : Mode) (before behind : String), mode.template? = some (before, behind) →
      ∀ value : Int, ∃ numeral : List Char,
        text mode value = before ++ String.ofList numeral ++ behind ∧
        WritesHex value numeral ∧ Literal.read 16 numeral = .ok value ∧
        (∀ other, text mode value = text mode other → value = other) ∧
        (0 ≤ value → value < 256 ^ mode.operandSize →
          numeral.length = 2 * mode.operandSize ∧ ∀ c ∈ numeral, c ∈ upperChars)) ∧
    (∀ mode mode' : Mode, mode.template? ≠ none → mode'.template? ≠ none →
      ∀ value value' : Int, 0 ≤ value → value < 256 ^ mode.operandSize →
        0 ≤ value' → value' < 256 ^ mode'.operandSize → text mode value = text mode' value' →
        value = value' ∧ Mode.Alike mode mode') ∧
    ∀ (mode : Mode) (bytes : List UInt8), bytes.length = mode.operandSize →
      Operand.value bytes = Nat.ofDigits 256 (bytes.map UInt8.toNat) ∧
      Operand.value bytes < 256 ^ mode.operandSize ∧
      ∀ bytes' : List UInt8, bytes'.length = mode.operandSize →
        text mode (Operand.value bytes) = text mode (Operand.value bytes') → bytes = bytes' := by
  refine ⟨fun mode before behind template value => ?_, fun mode mode' some some' value value' => ?_,
    fun mode bytes length => ?_⟩
  · have shown := shown_of_template? template
    have writes := writesHex_hex (2 * mode.operandSize) value
    exact ⟨_, text_of_template? template value, writes, writes.read_eq, fun _ => text_inj shown,
      length_hex_of_fits shown⟩
  · rw [← Option.isSome_iff_ne_none, Mode.isSome_template?_iff] at some some'
    exact alike_of_text_eq some some'
  · have short := mode.operandSize_le
    refine ⟨value_eq_ofDigits (by omega), ?_, fun _ => bytes_eq_of_text_eq length⟩
    rw [← length]
    exact value_lt (by omega)

/-- A negative value and one that does not fit keep their mode's template, and a displacement is
written like an address in the zero page. -/
theorem text_tells_value_of_any_size :
    text .absoluteX (-0x2A) = "$-02A,X" ∧ Literal.read 16 ['-', '0', '2', 'A'] = .ok (-0x2A) ∧
      text .immediate 0x1FF = "#$1FF" ∧ text .relative 0xFE = text .zeroPage 0xFE ∧
      Mode.Alike .relative .zeroPage ∧
      Operand.value [0x0F, 0xF0] < 256 ^ Mode.absolute.operandSize := by
  obtain ⟨texts, modes, bytes⟩ := text_tells_value
  obtain ⟨numeral, shown, -, read, -⟩ := texts .absoluteX "$" ",X" rfl (-0x2A)
  have written : text .absoluteX (-0x2A) = "$-02A,X" := by decide
  have numerals : numeral = ['-', '0', '2', 'A'] := by
    have lists := congrArg String.toList (shown.symm.trans written)
    have marks : '$' :: (numeral ++ [',', 'X']) = '$' :: (['-', '0', '2', 'A'] ++ [',', 'X']) := by
      simpa using lists
    exact List.append_cancel_right (List.cons.inj marks).2
  have same : text .relative 0xFE = text .zeroPage 0xFE := by decide
  obtain ⟨-, alike⟩ := modes .relative .zeroPage (by decide) (by decide) 0xFE 0xFE (by decide)
    (by decide) (by decide) (by decide) same
  exact ⟨written, numerals ▸ read, by decide, same, alike, (bytes .absolute _ rfl).2.1⟩

end Operand

end LinearSweep
