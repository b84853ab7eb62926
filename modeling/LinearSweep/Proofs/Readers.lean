import LinearSweep.Proofs.Addresses
import LinearSweep.Proofs.Grammar

/-!
# Two readers of numbers

Words and addresses are read in two ways: the ones by a grammar, the others by whatever mark the
text begins with, and then with underscores and the digits of all scripts.  From a literal of the
grammar both read the same number, with one exception, `read_of_readWord`: the reader of addresses
does not see a mark behind a sign, and without it there is no literal.
-/

namespace LinearSweep

open Numeral WordList

namespace WordList.Spelling

variable {s : Spelling} {c : Char}

theorem kept_of_mem (member : c ∈ s.text) : Text.isBlank c = false ∧ c.toNat < 0x80 :=
  kept_of_isWordChar (isWordChar_of_mem member)

/-- The value of a literal, from what the reader takes off it. -/
theorem value_eq (s : Spelling) :
    s.value = if decide (s.sign = .minus) then -(valueOf s.mark.base s.digits : Int)
      else valueOf s.mark.base s.digits := by
  simp only [value, magnitude, decide_eq_true_eq]

theorem mem_of_unmarked (unmarked : s.mark = .none) (member : c ∈ s.text) :
    c ∈ ['+', '-'] ∨ isDigitOf 10 c = true := by
  rw [text, unsigned, unmarked] at member
  cases List.mem_append.mp member with
  | inl sign =>
    have signs (sign : Sign) : sign.text.all (· ∈ ['+', '-']) = true := by
      cases sign <;> decide
    exact .inl (by simpa using List.all_eq_true.mp (signs s.sign) c sign)
  | inr digit =>
    have known := s.known c digit
    rw [unmarked] at known
    exact .inr known

end WordList.Spelling

/-! ## Literals of a base -/

namespace Numeral.Literal

variable {s : Spelling}

/-- A decimal literal that is not too long is read with its sign. -/
theorem read_decimal (unmarked : s.mark = .none) (short : s.isLong = false) :
    read 10 s.text = .ok s.value := by
  have base : s.mark.base = 10 := by
    rw [unmarked]
    rfl
  have body : (if (10 : Nat) = 16 then skipMark s.unsigned else s.unsigned) = s.digits := by
    rw [if_neg (by decide), Spelling.unsigned, unmarked]
    rfl
  have known : ∀ c ∈ s.digits, isDigitOf 10 c = true := base ▸ s.known
  have few : s.digits.length ≤ maxDigits := by
    rw [← Bool.not_eq_true, s.isLong_iff, base] at short
    exact Nat.le_of_not_lt fun long => short ⟨rfl, long⟩
  rw [s.value_eq, base]
  exact read_of_parts s.sign_text body (fun _ => Spelling.kept_of_mem) (by decide) s.filled known
    fun _ => few

/-- In base sixteen a mark that begins with a zero is skipped. -/
theorem read_hex (marked : s.mark = .lowerX ∨ s.mark = .upperX) :
    read 16 s.text = .ok s.value := by
  have base : s.mark.base = 16 := by
    obtain mark | mark := marked <;> rw [mark] <;> rfl
  have known : ∀ c ∈ s.digits, isDigitOf 16 c = true := base ▸ s.known
  have body : (if (16 : Nat) = 16 then skipMark s.unsigned else s.unsigned) = s.digits := by
    rw [if_pos rfl, Spelling.unsigned]
    obtain mark | mark := marked <;> rw [mark]
    · exact skipMark_of_mark (.inl rfl) known
    · exact skipMark_of_mark (.inr rfl) known
  rw [s.value_eq, base]
  exact read_of_parts s.sign_text body (fun _ => Spelling.kept_of_mem) (by decide) s.filled known
    fun decimal => absurd decimal (by decide)

/-- In base ten no mark is skipped, and what stands behind its zero is no blank. -/
theorem read_decimal_of_mark (marked : s.mark ≠ .none) :
    read 10 s.text = .error (.malformed 10 s.text) := by
  have front : sign ((s.text.map plain).dropWhile isSpace) =
      (decide (s.sign = .minus), s.unsigned) := by
    rw [front_of_kept fun _ => Spelling.kept_of_mem, s.sign_text]
  cases mark : s.mark with
  | none => exact absurd mark marked
  | dollar | lowerX | upperX =>
    rw [read, front, Spelling.unsigned, mark]
    rfl

end Numeral.Literal

/-! ## Addresses -/

namespace Numeral.Address

variable {s : Spelling}

/-- What begins with no mark is read in base ten. -/
theorem read_eq_decimal {text : List Char} (trimmed : Text.trim text = text)
    (bare : ∀ rest, text ≠ '$' :: rest ∧ text ≠ '0' :: 'x' :: rest ∧ text ≠ '0' :: 'X' :: rest) :
    read text = Literal.read 10 text := by
  unfold read
  rw [trimmed]
  split
  next rest => exact absurd rfl (bare rest).1
  next rest => exact absurd rfl (bare rest).2.1
  next rest => exact absurd rfl (bare rest).2.2
  next => rfl

theorem read_of_unmarked (trimmed : Text.trim s.text = s.text) (unmarked : s.mark = .none)
    (short : s.isLong = false) : read s.text = .ok s.value := by
  have known (c : Char) (member : c ∈ s.text) := Spelling.mem_of_unmarked unmarked member
  rw [read_eq_decimal trimmed fun rest => ⟨?_, ?_, ?_⟩]
  · exact Literal.read_decimal unmarked short
  all_goals
    intro same
    rw [same] at known
  · exact absurd (known '$' (by simp)) (by decide)
  · exact absurd (known 'x' (by simp)) (by decide)
  · exact absurd (known 'X' (by simp)) (by decide)

theorem read_of_unsigned (trimmed : Text.trim s.text = s.text) (unsigned : s.sign = .none)
    (marked : s.mark ≠ .none) : read s.text = .ok s.value := by
  have text : s.text = s.mark.text ++ s.digits := by
    rw [Spelling.text, unsigned]
    rfl
  cases mark : s.mark with
  | none => exact absurd mark marked
  | dollar =>
    have known : ∀ c ∈ s.digits, isDigitOf 16 c = true := by
      have known := s.known
      rwa [mark] at known
    have value : s.value = valueOf 16 s.digits := by
      rw [s.value_eq, unsigned, mark]
      rfl
    rw [text, mark, value]
    exact read_of_hex s.filled known
  | lowerX =>
    have dispatched : read s.text = Literal.read 16 s.text := by
      rw [read, trimmed, text, mark]
      rfl
    rw [dispatched, Literal.read_hex (.inl mark)]
  | upperX =>
    have dispatched : read s.text = Literal.read 16 s.text := by
      rw [read, trimmed, text, mark]
      rfl
    rw [dispatched, Literal.read_hex (.inr mark)]

/-- Behind a sign no mark is seen. -/
theorem read_of_signed (trimmed : Text.trim s.text = s.text) (signed : s.sign ≠ .none)
    (marked : s.mark ≠ .none) : read s.text = .error (.malformed 10 s.text) := by
  rw [read_eq_decimal trimmed, Literal.read_decimal_of_mark marked]
  intro rest
  rw [Spelling.text]
  cases sign : s.sign with
  | none => exact absurd sign signed
  | plus | minus => simp [Sign.text]

/-- A literal is read as an address unless its sign hides its mark. -/
theorem read_text (s : Spelling) (short : s.isLong = false) :
    read s.text =
      if s.sign = .none ∨ s.mark = .none then .ok s.value else .error (.malformed 10 s.text) := by
  have trimmed : Text.trim s.text = s.text :=
    trim_of_unblank (fun _ member => (Spelling.kept_of_mem member).1) s.text_ne_nil
  by_cases unmarked : s.mark = .none
  · rw [if_pos (.inr unmarked), read_of_unmarked trimmed unmarked short]
  · by_cases unsigned : s.sign = .none
    · rw [if_pos (.inl unsigned), read_of_unsigned trimmed unsigned unmarked]
    · rw [if_neg (not_or.mpr ⟨unsigned, unmarked⟩), read_of_signed trimmed unsigned unmarked]

end Numeral.Address

/-- A token that is read as a word is a literal, and it is read as an address too, as the same
number and with any blanks around it, if it has no sign or no mark.  If it has both, it is no
address. -/
theorem read_of_readWord {token before behind : List Char} {position : Option Int} {number : Int}
    (accepted : readWord token position = .ok number)
    (blank : ∀ c ∈ before ++ behind, Text.isBlank c = true) :
    (∃ s : Spelling, token = s.text ∨ token = s.text ++ ['\n']) ∧
    ∀ s : Spelling, token = s.text ∨ token = s.text ++ ['\n'] →
      Address.read (before ++ token ++ behind) =
        if s.sign = .none ∨ s.mark = .none then .ok number
        else .error (.malformed 10 s.text) := by
  obtain ⟨t, spelled, short, value⟩ := readWord_eq_ok_iff.mp accepted
  refine ⟨⟨t, Spelling.text_eq_iff.mp spelled⟩, fun s place => ?_⟩
  have same : s.text = t.text := (Spelling.text_eq_iff.mpr place).trans spelled.symm
  have bare : Address.read (before ++ token ++ behind) = Address.read s.text := by
    have unblank : ∀ c ∈ s.text, Text.isBlank c = false :=
      fun _ member => (Spelling.kept_of_mem member).1
    obtain rfl | rfl := place
    · exact Address.read_surrounded blank unblank s.text_ne_nil
    · -- The line feed is one of the blanks behind the literal.
      have longer : ∀ c ∈ before ++ '\n' :: behind, Text.isBlank c = true := by
        rw [List.forall_mem_append, List.forall_mem_cons]
        rw [List.forall_mem_append] at blank
        exact ⟨blank.1, by decide, blank.2⟩
      have moved : before ++ (s.text ++ ['\n']) ++ behind = before ++ s.text ++ '\n' :: behind := by
        simp
      rw [moved, Address.read_surrounded longer unblank s.text_ne_nil]
  rw [← Spelling.isLong_eq_of_text_eq same] at short
  rw [← Spelling.value_eq_of_text_eq same] at value
  rw [bare, Address.read_text s short, value]

/-- A sign in front of decimal digits is read by both, a sign in front of a mark by one of them. -/
theorem read_of_signed_words :
    readWord ['-', '0', '7', '\n'] none = .ok (-7) ∧
      Address.read ['\u2003', '-', '0', '7', '\n', ' '] = .ok (-7) ∧
      readWord ['+', '$', 'F', 'f'] none = .ok 255 ∧
      Address.read [' ', '+', '$', 'F', 'f'] = .error (.malformed 10 ['+', '$', 'F', 'f']) := by
  have decimal : readWord ['-', '0', '7', '\n'] none = .ok (-7) := rfl
  have hex : readWord ['+', '$', 'F', 'f'] none = .ok 255 := rfl
  have blank : ∀ c ∈ ['\u2003'] ++ [' '], Text.isBlank c = true := List.all_eq_true.mp rfl
  have space : ∀ c ∈ [' '] ++ [], Text.isBlank c = true := List.all_eq_true.mp rfl
  let negative : Spelling :=
    ⟨.minus, .none, ['0', '7'], List.cons_ne_nil _ _, List.all_eq_true.mp rfl⟩
  let positive : Spelling :=
    ⟨.plus, .dollar, ['F', 'f'], List.cons_ne_nil _ _, List.all_eq_true.mp rfl⟩
  exact ⟨decimal, (read_of_readWord decimal blank).2 negative (.inr rfl), hex,
    (read_of_readWord hex space).2 positive (.inl rfl)⟩

end LinearSweep
