import LinearSweep.Numeral.Address
import LinearSweep.Proofs.Words
import Mathlib.Data.List.TakeWhile

/-!
# Addresses read back

What a literal is read as depends on its sign and on the digits behind its mark, `read_of_parts`: in
a text of digits, letters and signs nothing is replaced and nothing is skipped, and a run of digits
of the base holds nothing else.  Blanks around an address do not matter, `trim_surrounded`, and an
address that is shown can be typed again, `Address.read_hexAddress`.
-/

namespace LinearSweep.Numeral

/-! ## Literals -/

theorem isDigitOf_mono {base wider : Nat} {c : Char} (within : base ≤ wider)
    (digit : isDigitOf base c = true) : isDigitOf wider c = true :=
  decide_eq_true (Nat.lt_of_lt_of_le (of_decide_eq_true digit) within)

namespace Literal

variable {base : Nat} {text unsigned digits : List Char}

theorem isSpace_of_unblank {c : Char} (unblank : Text.isBlank c = false) : isSpace c = false := by
  have other : c ≠ ' ' := by
    rintro rfl
    exact absurd unblank (by decide)
  simp only [Text.isBlank, Text.blankRanges, List.any_cons, List.any_nil, Bool.or_eq_false_iff,
    Bool.and_eq_false_iff, decide_eq_false_iff_not] at unblank
  rw [isSpace, decide_eq_false other, Bool.false_or, Bool.and_eq_false_iff,
    decide_eq_false_iff_not, decide_eq_false_iff_not]
  omega

/-- A text of ASCII characters that are no blanks is read from its first character on. -/
theorem front_of_kept (kept : ∀ c ∈ text, Text.isBlank c = false ∧ c.toNat < 0x80) :
    (text.map plain).dropWhile isSpace = text := by
  have plain : text.map plain = text :=
    (List.map_congr_left fun c member => if_pos (kept c member).2).trans (List.map_id text)
  rw [plain]
  cases text with
  | nil => rfl
  | cons c text =>
    have visible := isSpace_of_unblank (kept c List.mem_cons_self).1
    exact List.dropWhile_cons_of_neg (by simp [visible])

theorem sign_of_digits (all : ∀ c ∈ digits, isDigitOf 36 c = true) :
    sign digits = (false, digits) := by
  unfold sign
  split
  · exact absurd (all '-' (by simp)) (by decide)
  · exact absurd (all '+' (by simp)) (by decide)
  · rfl

theorem skipMark_of_digits (all : ∀ c ∈ digits, isDigitOf 16 c = true) :
    skipMark digits = digits := by
  unfold skipMark
  split
  · exact absurd (all 'x' (by simp)) (by decide)
  · exact absurd (all 'X' (by simp)) (by decide)
  · exact absurd (all 'x' (by simp)) (by decide)
  · exact absurd (all 'X' (by simp)) (by decide)
  · rfl

/-- No underscore is taken off with a mark if there is none. -/
theorem skipMark_of_mark {x : Char} (known : x = 'x' ∨ x = 'X')
    (all : ∀ c ∈ digits, isDigitOf 16 c = true) : skipMark ('0' :: x :: digits) = digits := by
  have other : ∀ rest, digits ≠ '_' :: rest := by
    rintro rest rfl
    exact absurd (all '_' List.mem_cons_self) (by decide)
  obtain rfl | rfl := known <;> simp [skipMark]

theorem groups_of_digits (all : ∀ c ∈ digits, isDigitOf base c = true) (small : base ≤ 36) :
    groups base digits = [digits] := by
  have numeral : ∀ c ∈ digits, isNumeralChar base c = true := by
    intro c member
    rw [isNumeralChar, all c member, Bool.true_or]
  have unbroken : ∀ c ∈ digits, (c == '_') = false := by
    intro c member
    rw [beq_eq_false_iff_ne]
    rintro rfl
    exact absurd (isDigitOf_mono small (all '_' member)) (by decide)
  rw [groups, List.takeWhile_eq_self_iff.mpr numeral, List.splitOnP_eq_singleton unbroken]

/-- A literal is read as the number that the digits behind its sign and its mark write. -/
theorem read_of_parts {negative : Bool} (signed : sign text = (negative, unsigned))
    (body : (if base = 16 then skipMark unsigned else unsigned) = digits)
    (kept : ∀ c ∈ text, Text.isBlank c = false ∧ c.toNat < 0x80)
    (small : base ≤ 16) (filled : digits ≠ []) (all : ∀ c ∈ digits, isDigitOf base c = true)
    (short : base = 10 → digits.length ≤ maxDigits) :
    read base text =
      .ok (if negative then -(valueOf base digits : Int) else valueOf base digits) := by
  have rest : digits.dropWhile (isNumeralChar base) = [] := by
    rw [List.dropWhile_eq_nil_iff]
    intro c member
    rw [isNumeralChar, all c member, Bool.true_or]
  have few : ¬ (base = 10 ∧ maxDigits < digits.length) := fun long =>
    absurd long.2 (Nat.not_lt_of_le (short long.1))
  simp [read, front_of_kept kept, signed, body, groups_of_digits all (by omega), filled, few, rest]

/-- Digits of a base are read as the number that they write. -/
theorem read_of_digits (small : base ≤ 16) (filled : digits ≠ [])
    (all : ∀ c ∈ digits, isDigitOf base c = true)
    (short : base = 10 → digits.length ≤ maxDigits) :
    read base digits = .ok (valueOf base digits) := by
  have kept : ∀ c ∈ digits, Text.isBlank c = false ∧ c.toNat < 0x80 := fun c member =>
    WordList.kept_of_isWordChar (WordList.isWordChar_of_isDigitOf (by omega) (all c member))
  have body : (if base = 16 then skipMark digits else digits) = digits := by
    split
    · rename_i hex
      subst hex
      exact skipMark_of_digits all
    · rfl
  have unsigned : sign digits = (false, digits) :=
    sign_of_digits fun c member => isDigitOf_mono (by omega) (all c member)
  exact read_of_parts unsigned body kept small filled all short

end Literal

/-! ## Addresses -/

namespace Address

variable {before text behind : List Char}

theorem dropWhile_surrounded (blank : ∀ c ∈ before, Text.isBlank c = true)
    (unblank : ∀ c ∈ text, Text.isBlank c = false) (filled : text ≠ []) :
    (before ++ (text ++ behind)).dropWhile Text.isBlank = text ++ behind := by
  rw [List.dropWhile_append_of_pos blank]
  obtain ⟨c, others, rfl⟩ := List.exists_cons_of_ne_nil filled
  exact List.dropWhile_cons_of_neg (by simp [unblank c List.mem_cons_self])

/-- Blanks around a text are removed, and no more than these. -/
theorem trim_surrounded (blank : ∀ c ∈ before ++ behind, Text.isBlank c = true)
    (unblank : ∀ c ∈ text, Text.isBlank c = false) (filled : text ≠ []) :
    Text.trim (before ++ text ++ behind) = text := by
  rw [List.forall_mem_append] at blank
  have reversed : (text ++ behind).reverse = behind.reverse ++ (text.reverse ++ []) := by simp
  rw [Text.trim, List.append_assoc, dropWhile_surrounded blank.1 unblank filled, reversed,
    dropWhile_surrounded (by simpa using blank.2) (by simpa using unblank) (by simpa using filled),
    List.append_nil, List.reverse_reverse]

theorem trim_of_unblank (unblank : ∀ c ∈ text, Text.isBlank c = false) (filled : text ≠ []) :
    Text.trim text = text := by
  have bare : Text.trim ([] ++ text ++ []) = text :=
    trim_surrounded (List.forall_mem_nil _) unblank filled
  rwa [List.nil_append, List.append_nil] at bare

/-- Blanks around an address play no part. -/
theorem read_surrounded (blank : ∀ c ∈ before ++ behind, Text.isBlank c = true)
    (unblank : ∀ c ∈ text, Text.isBlank c = false) (filled : text ≠ []) :
    read (before ++ text ++ behind) = read text := by
  rw [read, read, trim_surrounded blank unblank filled, trim_of_unblank unblank filled]

/-- Hexadecimal digits behind their mark are read as the number that they write. -/
theorem read_of_hex {digits : List Char} (filled : digits ≠ [])
    (all : ∀ c ∈ digits, isDigitOf 16 c = true) :
    read ('$' :: digits) = .ok (valueOf 16 digits) := by
  have unblank : ∀ c ∈ '$' :: digits, Text.isBlank c = false := by
    rw [List.forall_mem_cons]
    refine ⟨by decide, fun c member => ?_⟩
    exact (WordList.kept_of_isWordChar
      (WordList.isWordChar_of_isDigitOf (by decide) (all c member))).1
  rw [read, trim_of_unblank unblank (List.cons_ne_nil _ _)]
  exact Literal.read_of_digits (by decide) filled all (fun decimal => absurd decimal (by decide))

/-- An address is read back as it is shown. -/
theorem read_hexAddress {address : Int} (lower : 0 ≤ address) (upper : address < addressSpace) :
    read (hexAddress address).toList = .ok address := by
  obtain ⟨n, rfl⟩ := Int.eq_ofNat_of_zero_le lower
  have digits : ∀ c ∈ hex 4 n, isDigitOf 16 c = true := fun _ => isDigitOf_of_mem_hex_ofNat
  have shown : (hexAddress n).toList = '$' :: hex 4 n := by
    rw [hexAddress, Int.emod_eq_of_lt lower upper]
    simp
  rw [shown, read_of_hex (hex_ne_nil 4 n) digits, valueOf_hex_ofNat]

end Address

end LinearSweep.Numeral
