import Mathlib.Algebra.Group.Nat.Defs
import LinearSweep.Operand
import LinearSweep.Proofs.Numerals

/-!
# What an operand tells

An operand in assembler text is a numeral between two marks.  Neither mark has a character of a
numeral next to it, so the three can be told apart, `IsRun.unique`.  The marks and the number of
digits tell the mode, except that a displacement looks like an address in the zero page, and the
numeral tells the operand bytes.
-/

namespace LinearSweep

/-! ## Runs of characters -/

/-- A run of characters of one kind, with characters of the other kind before it and next to its
end. -/
structure IsRun (kind : Char → Bool) (before run behind : List Char) : Prop where
  before_outside : ∀ c ∈ before, kind c = false
  inside : ∀ c ∈ run, kind c = true
  run_ne_nil : run ≠ []
  behind_outside : ∀ c ∈ behind.head?, kind c = false

namespace IsRun

variable {kind : Char → Bool} {before run behind : List Char}

theorem takeWhile_outside (isRun : IsRun kind before run behind) :
    (before ++ (run ++ behind)).takeWhile (fun c => !kind c) = before := by
  obtain ⟨c, others, rfl⟩ := List.exists_cons_of_ne_nil isRun.run_ne_nil
  have first : kind c = true := isRun.inside c (by simp)
  have outside : ∀ c ∈ before, (!kind c) = true := by
    intro c member
    rw [isRun.before_outside c member]
    rfl
  rw [List.takeWhile_append_of_pos outside]
  simp [first]

theorem takeWhile_inside (isRun : IsRun kind before run behind) :
    (run ++ behind).takeWhile kind = run := by
  rw [List.takeWhile_append_of_pos isRun.inside]
  cases behind with
  | nil => simp
  | cons c behind => simp [isRun.behind_outside c rfl]

/-- A text holds a run in one way only, if nothing of the kind stands before it. -/
theorem unique {before' run' behind' : List Char} (left : IsRun kind before run behind)
    (right : IsRun kind before' run' behind')
    (same : before ++ (run ++ behind) = before' ++ (run' ++ behind')) :
    before = before' ∧ run = run' ∧ behind = behind' := by
  have first : before = before' := by
    rw [← left.takeWhile_outside, same, right.takeWhile_outside]
  subst first
  have others := List.append_cancel_left same
  have second : run = run' := by
    rw [← left.takeWhile_inside, others, right.takeWhile_inside]
  subst second
  exact ⟨rfl, rfl, List.append_cancel_left others⟩

end IsRun

/-! ## Modes -/

namespace Mode

/-- Modes that an operand cannot tell apart. -/
def Alike (m m' : Mode) : Prop :=
  m = m' ∨ m = .zeroPage ∧ m' = .relative ∨ m = .relative ∧ m' = .zeroPage

instance (m m' : Mode) : Decidable (Alike m m') :=
  inferInstanceAs (Decidable (_ ∨ _))

theorem alike_of_template? {m m' : Mode} (shown : 0 < m.operandSize)
    (template : m.template? = m'.template?) (size : m.operandSize = m'.operandSize) :
    Alike m m' := by
  have all : 0 < m.operandSize → m.template? = m'.template? → m.operandSize = m'.operandSize →
      Alike m m' := by
    cases m <;> cases m' <;> decide
  exact all shown template size

/-- The marks around a numeral are no part of it. -/
theorem isRun_of_template? {m : Mode} {before behind : String}
    (template : m.template? = some (before, behind)) (width : Nat) (value : Int) :
    IsRun Numeral.isHexChar before.toList (Numeral.hex width value) behind.toList := by
  have marks : ∀ t ∈ m.template?, t.1.toList.any Numeral.isHexChar = false ∧
      t.2.toList.head?.any Numeral.isHexChar = false := by
    cases m <;> decide
  obtain ⟨outside, beside⟩ := marks _ template
  exact {
    before_outside := by simpa using outside
    inside := fun _ => Numeral.isHexChar_of_mem_hex
    run_ne_nil := Numeral.hex_ne_nil width value
    behind_outside := fun c first => by rwa [Option.mem_def.mp first] at beside }

end Mode

namespace Operand

/-! ## Texts -/

@[simp] theorem text_implied (value : Int) : text .implied value = "" := rfl

@[simp] theorem text_accumulator (value : Int) : text .accumulator value = "A" := rfl

@[simp] theorem text_illegal (value : Int) : text .illegal value = "???" := rfl

theorem toList_text_of_template? {m : Mode} {before behind : String}
    (template : m.template? = some (before, behind)) (value : Int) :
    (text m value).toList =
      before.toList ++ (Numeral.hex (2 * m.operandSize) value ++ behind.toList) := by
  simp [text, template]

/-- The marks that the text of a stored operand may begin with. -/
def isMark (c : Char) : Bool :=
  c == '#' || c == '$' || c == '('

theorem marked_of_shown {m : Mode} (shown : 0 < m.operandSize) (value : Int) :
    (text m value).toList.head?.any isMark = true := by
  obtain ⟨⟨before, behind⟩, template⟩ :=
    Option.isSome_iff_exists.mp ((Mode.isSome_template?_iff m).mpr shown)
  have marks : ∀ t ∈ m.template?, t.1.toList.head?.any isMark = true := by
    cases m <;> decide
  have marked := marks _ template
  rw [toList_text_of_template? template, List.head?_append]
  cases first : before.toList.head? with
  | none => simp [first] at marked
  | some c => simpa [first] using marked

theorem text_ne_of_unmarked {m : Mode} (shown : 0 < m.operandSize) (value : Int) {other : String}
    (unmarked : other.toList.head?.any isMark = false) : text m value ≠ other := by
  intro same
  have marked := marked_of_shown shown value
  rw [same, unmarked] at marked
  cases marked

/-- An instruction without a stored operand has one of two modes, or none. -/
theorem mode_of_not_shown {m : Mode} (legal : m ≠ .illegal) (hidden : ¬ 0 < m.operandSize) :
    m = .implied ∨ m = .accumulator := by
  have all : m ≠ .illegal → ¬ 0 < m.operandSize → m = .implied ∨ m = .accumulator := by
    cases m <;> decide
  exact all legal hidden

theorem text_ne_illegalText {m : Mode} (legal : m ≠ .illegal) (value : Int) :
    text m value ≠ illegalText := by
  by_cases shown : 0 < m.operandSize
  · exact text_ne_of_unmarked shown value (by decide)
  · obtain rfl | rfl := mode_of_not_shown legal shown <;> simp [illegalText]

theorem text_ne_truncatedText (m : Mode) (value : Int) : text m value ≠ truncatedText := by
  by_cases shown : 0 < m.operandSize
  · exact text_ne_of_unmarked shown value (by decide)
  · by_cases illegal : m = .illegal
    · simp [illegal, truncatedText]
    · obtain rfl | rfl := mode_of_not_shown illegal shown <;> simp [truncatedText]

/-! ## Values -/

theorem parts_of_text_eq {m m' : Mode} {value value' : Int} (shown : 0 < m.operandSize)
    (shown' : 0 < m'.operandSize) (same : text m value = text m' value') :
    m.template? = m'.template? ∧
      Numeral.hex (2 * m.operandSize) value = Numeral.hex (2 * m'.operandSize) value' := by
  obtain ⟨⟨before, behind⟩, template⟩ :=
    Option.isSome_iff_exists.mp ((Mode.isSome_template?_iff m).mpr shown)
  obtain ⟨⟨before', behind'⟩, template'⟩ :=
    Option.isSome_iff_exists.mp ((Mode.isSome_template?_iff m').mpr shown')
  have lists := congrArg String.toList same
  rw [toList_text_of_template? template, toList_text_of_template? template'] at lists
  obtain ⟨first, run, last⟩ := IsRun.unique (Mode.isRun_of_template? template _ _)
    (Mode.isRun_of_template? template' _ _) lists
  rw [template, template', String.toList_inj.mp first, String.toList_inj.mp last]
  exact ⟨rfl, run⟩

theorem shown_of_text_eq {m m' : Mode} {value value' : Int} (shown : 0 < m.operandSize)
    (legal' : m' ≠ .illegal) (same : text m value = text m' value') : 0 < m'.operandSize := by
  by_cases shown' : 0 < m'.operandSize
  · exact shown'
  · obtain rfl | rfl := mode_of_not_shown legal' shown'
    · rw [text_implied] at same
      exact absurd same (text_ne_of_unmarked shown value (by decide))
    · rw [text_accumulator] at same
      exact absurd same (text_ne_of_unmarked shown value (by decide))

/-- Operands of the size of their modes are told apart by their texts, and so are their modes, as
far as they can be. -/
theorem eq_of_text_eq {m m' : Mode} {value value' : Nat} (legal : m ≠ .illegal)
    (legal' : m' ≠ .illegal) (fits : value < 256 ^ m.operandSize)
    (fits' : value' < 256 ^ m'.operandSize) (same : text m value = text m' value') :
    Mode.Alike m m' ∧ value = value' := by
  by_cases shown : 0 < m.operandSize
  case pos =>
    have shown' := shown_of_text_eq shown legal' same
    obtain ⟨template, numerals⟩ := parts_of_text_eq shown shown' same
    have width {size v : Nat} (positive : 0 < size) (bound : v < 256 ^ size) :
        (Numeral.hex (2 * size) v).length = 2 * size := by
      apply Numeral.length_hex_of_lt (by omega)
      rwa [Nat.pow_mul]
    have size : m.operandSize = m'.operandSize := by
      have lengths := congrArg List.length numerals
      rw [width shown fits, width shown' fits'] at lengths
      omega
    rw [← size] at numerals
    exact ⟨Mode.alike_of_template? shown template size, Numeral.hex_ofNat_inj numerals⟩
  case neg =>
    -- Without operand bytes there is only one value, and two texts.
    have hidden' : ¬ 0 < m'.operandSize := fun shown' =>
      shown (shown_of_text_eq shown' legal same.symm)
    rw [Nat.eq_zero_of_not_pos shown, Nat.pow_zero] at fits
    rw [Nat.eq_zero_of_not_pos hidden', Nat.pow_zero] at fits'
    refine ⟨?_, by omega⟩
    obtain rfl | rfl := mode_of_not_shown legal shown <;>
      obtain rfl | rfl := mode_of_not_shown legal' hidden'
    · exact .inl rfl
    · simp at same
    · simp at same
    · exact .inl rfl

/-! ## Bytes -/

theorem value_lt {bytes : List UInt8} (short : bytes.length ≤ 2) :
    value bytes < 256 ^ bytes.length := by
  match bytes with
  | [] => decide
  | [low] => exact low.toNat_lt
  | [low, high] =>
    have := low.toNat_lt
    have := high.toNat_lt
    simp only [value, List.length_cons, List.length_nil]
    omega
  | _ :: _ :: _ :: _ =>
    simp only [List.length_cons] at short
    omega

theorem value_inj {bytes bytes' : List UInt8} (short : bytes.length ≤ 2)
    (length : bytes.length = bytes'.length) (same : value bytes = value bytes') :
    bytes = bytes' := by
  match bytes, bytes' with
  | [], [] => rfl
  | [low], [low'] =>
    simp only [value] at same
    rw [UInt8.toNat_inj.mp same]
  | [low, high], [low', high'] =>
    have := low.toNat_lt
    have := low'.toNat_lt
    simp only [value] at same
    have lows : low.toNat = low'.toNat := by omega
    have highs : high.toNat = high'.toNat := by omega
    rw [UInt8.toNat_inj.mp lows, UInt8.toNat_inj.mp highs]
  | _ :: _ :: _ :: _, _ =>
    simp only [List.length_cons] at short
    omega

end Operand

end LinearSweep
