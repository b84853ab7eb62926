import LinearSweep.Instruction

/-!
# Reading one instruction

What `Instruction.ofBytes` makes of an opcode and of the bytes behind it.  Everything but the
operand, the size, the bytes and the status is decided by the opcode.  An instruction asks for as
many bytes as `Opcode.length` says; `ofBytes_of_short` is what it looks like when some are missing,
and `status_ofBytes_eq_truncated_iff` and `bytes_ofBytes` are what later modules need to know when
it is unknown whether any are.
-/

namespace LinearSweep

namespace Opcode

/-! ## Lengths -/

theorem meaning?_of_brk {opcode : UInt8} (brk : opcode.toNat = brkCode) :
    meaning? opcode = some (.brk, .implied) := by
  have zero : opcode = 0 := UInt8.toNat_inj.mp brk
  subst zero
  decide

theorem length_of_brk {opcode : UInt8} (brk : opcode.toNat = brkCode) : length opcode = 2 := by
  simp only [length, brk, ↓reduceIte, brkLength]

theorem length_of_ne_brk {opcode : UInt8} (regular : opcode.toNat ≠ brkCode) :
    length opcode = 1 + (mode opcode).operandSize := by
  simp only [length, regular, ↓reduceIte]

theorem one_le_length (opcode : UInt8) : 1 ≤ length opcode := by
  by_cases brk : opcode.toNat = brkCode
  · rw [length_of_brk brk]
    decide
  · rw [length_of_ne_brk brk]
    omega

theorem length_le_three (opcode : UInt8) : length opcode ≤ 3 := by
  by_cases brk : opcode.toNat = brkCode
  · rw [length_of_brk brk]
    decide
  · have bound := (mode opcode).operandSize_le
    rw [length_of_ne_brk brk]
    omega

/-- BRK has a mode, so a byte without one is a single byte by the length table. -/
theorem length_of_illegal {opcode : UInt8} (illegal : mode opcode = .illegal) :
    length opcode = 1 := by
  have regular : opcode.toNat ≠ brkCode := by
    intro brk
    simp [mode, meaning?_of_brk brk] at illegal
  rw [length_of_ne_brk regular, illegal]
  rfl

theorem mode_of_meaning? {opcode : UInt8} {mnemonic : Mnemonic} {m : Mode}
    (known : meaning? opcode = some (mnemonic, m)) : mode opcode = m := by
  simp [mode, known]

theorem mode_of_meaning?_eq_none {opcode : UInt8} (unknown : meaning? opcode = none) :
    mode opcode = .illegal := by
  simp [mode, unknown]

/-- The name under which an opcode is listed. -/
def name (opcode : UInt8) : String :=
  ((meaning? opcode).map (·.1.name)).getD Instruction.unknownText

/-- How an opcode is read that has all its bytes. -/
def status (opcode : UInt8) : Status :=
  match meaning? opcode with
  | none => .unknownOpcode
  | some (_, mode) => if mode = .illegal then .illegalMode else .ok

theorem status_ne_truncated (opcode : UInt8) : status opcode ≠ .truncated := by
  rw [status]
  cases meaning? opcode with
  | none => simp
  | some meaning =>
    by_cases illegal : meaning.2 = .illegal <;> simp [illegal]

end Opcode

namespace Instruction

variable {offset : Nat} {opcode : UInt8} {behind : List UInt8}

/-! ## The parts that the opcode decides -/

theorem opcode_ofBytes : (ofBytes offset opcode behind).opcode = opcode.toNat := by
  simp only [ofBytes]
  repeat' split
  all_goals rfl

theorem mnemonic_ofBytes : (ofBytes offset opcode behind).mnemonic = Opcode.name opcode := by
  cases known : Opcode.meaning? opcode with
  | none => simp [ofBytes, Opcode.name, known]
  | some meaning =>
    simp only [ofBytes, Opcode.name, known]
    repeat' split
    all_goals rfl

theorem mode_ofBytes : (ofBytes offset opcode behind).mode = Opcode.mode opcode := by
  cases known : Opcode.meaning? opcode with
  | none => simp [ofBytes, Opcode.mode, known]
  | some meaning =>
    simp only [ofBytes, Opcode.mode, known]
    repeat' split
    all_goals rfl

theorem length_mnemonic_ofBytes : (ofBytes offset opcode behind).mnemonic.length = 3 := by
  rw [mnemonic_ofBytes, Opcode.name]
  cases Opcode.meaning? opcode with
  | none => rfl
  | some meaning => exact meaning.1.length_name

/-! ## The parts that the bytes behind it decide -/

/-- An instruction some of whose bytes are missing.  Of BRK only the padding can be missing, which
does not matter. -/
theorem ofBytes_of_short (short : behind.length < Opcode.length opcode - 1) :
    ofBytes offset opcode behind =
      { offset := offset
        opcode := opcode.toNat
        mnemonic := Opcode.name opcode
        mode := Opcode.mode opcode
        operand := if opcode.toNat = Opcode.brkCode then "" else Operand.truncatedText
        size := 1 + behind.length
        bytes := [opcode]
        status := if opcode.toNat = Opcode.brkCode then .ok else .truncated } := by
  have legal : Opcode.mode opcode ≠ .illegal := by
    intro illegal
    rw [Opcode.length_of_illegal illegal] at short
    omega
  cases known : Opcode.meaning? opcode with
  | none => exact absurd (Opcode.mode_of_meaning?_eq_none known) legal
  | some meaning =>
    obtain ⟨mnemonic, mode⟩ := meaning
    have modeOf := Opcode.mode_of_meaning? known
    rw [modeOf] at legal
    by_cases brk : opcode.toNat = Opcode.brkCode
    · rw [Opcode.length_of_brk brk] at short
      have empty : behind = [] := List.length_eq_zero_iff.mp (by omega)
      simp [ofBytes, known, legal, brk, empty, Opcode.name, modeOf]
    · rw [Opcode.length_of_ne_brk brk, modeOf] at short
      have missing : behind.length < mode.operandSize := by omega
      simp [ofBytes, known, legal, brk, missing, Opcode.name, modeOf]

/-- An instruction that has all its bytes.  Only an opcode without meaning has no operand text of
its mode. -/
theorem ofBytes_of_full (full : behind.length = Opcode.length opcode - 1) :
    ofBytes offset opcode behind =
      { offset := offset
        opcode := opcode.toNat
        mnemonic := Opcode.name opcode
        mode := Opcode.mode opcode
        operand := if Opcode.status opcode = .unknownOpcode then ""
          else Operand.text (Opcode.mode opcode) (Operand.value behind)
        size := 1 + behind.length
        bytes := opcode :: behind
        status := Opcode.status opcode } := by
  have single (illegal : Opcode.mode opcode = .illegal) : behind = [] := by
    rw [Opcode.length_of_illegal illegal] at full
    exact List.length_eq_zero_iff.mp full
  cases known : Opcode.meaning? opcode with
  | none =>
    have modeOf := Opcode.mode_of_meaning?_eq_none known
    simp [ofBytes, known, single modeOf, Opcode.name, Opcode.status, modeOf]
  | some meaning =>
    obtain ⟨mnemonic, mode⟩ := meaning
    have modeOf := Opcode.mode_of_meaning? known
    by_cases illegal : mode = .illegal
    · rw [illegal] at modeOf
      simp [ofBytes, known, illegal, single modeOf, Opcode.name, Opcode.status, modeOf,
        Operand.value]
    · by_cases brk : opcode.toNat = Opcode.brkCode
      · have implied : mode = .implied := by
          rw [Opcode.meaning?_of_brk brk] at known
          cases known
          rfl
        simp [ofBytes, known, brk, Opcode.name, Opcode.status, modeOf, implied, Operand.text,
          Mode.template?]
      · rw [Opcode.length_of_ne_brk brk, modeOf] at full
        have enough : ¬ behind.length < mode.operandSize := by omega
        simp [ofBytes, known, illegal, brk, enough, Opcode.name, Opcode.status, modeOf]

theorem status_ofBytes_eq_truncated_iff (within : behind.length ≤ Opcode.length opcode - 1) :
    (ofBytes offset opcode behind).status = .truncated ↔
      opcode.toNat ≠ Opcode.brkCode ∧ behind.length < Opcode.length opcode - 1 := by
  by_cases short : behind.length < Opcode.length opcode - 1
  · rw [ofBytes_of_short short]
    by_cases brk : opcode.toNat = Opcode.brkCode <;> simp [brk, short]
  · have full : behind.length = Opcode.length opcode - 1 := by omega
    rw [ofBytes_of_full full]
    simp [Opcode.status_ne_truncated, short]

/-- The bytes of an instruction are its opcode and those behind it, unless it is truncated. -/
theorem bytes_ofBytes (within : behind.length ≤ Opcode.length opcode - 1) :
    (ofBytes offset opcode behind).bytes =
      if (ofBytes offset opcode behind).status = .truncated then [opcode]
      else opcode :: behind := by
  by_cases short : behind.length < Opcode.length opcode - 1
  · rw [ofBytes_of_short short]
    by_cases brk : opcode.toNat = Opcode.brkCode
    · rw [Opcode.length_of_brk brk] at short
      have empty : behind = [] := List.length_eq_zero_iff.mp (by omega)
      simp [brk, empty]
    · simp [brk]
  · have full : behind.length = Opcode.length opcode - 1 := by omega
    rw [ofBytes_of_full full]
    simp [Opcode.status_ne_truncated]

/-! ## The status -/

/-- An instruction that is not whole shows it, in place of its name or of its operand. -/
theorem shows_status :
    match (ofBytes offset opcode behind).status with
    | .ok => True
    | .unknownOpcode => (ofBytes offset opcode behind).mnemonic = unknownText
    | .illegalMode => (ofBytes offset opcode behind).operand = Operand.illegalText
    | .truncated => (ofBytes offset opcode behind).operand = Operand.truncatedText := by
  cases known : Opcode.meaning? opcode with
  | none => simp [ofBytes, known]
  | some meaning =>
    by_cases illegal : meaning.2 = .illegal
    · simp [ofBytes, known, illegal, Operand.text, Mode.template?]
    · by_cases brk : opcode.toNat = Opcode.brkCode
      · simp [ofBytes, known, illegal, brk]
      · by_cases short : behind.length < meaning.2.operandSize
        · simp [ofBytes, known, illegal, brk, short]
        · simp [ofBytes, known, illegal, brk, short]

/-- A whole instruction other than BRK has a legal mode and all its operand bytes. -/
theorem exists_meaning_of_ok (ok : (ofBytes offset opcode behind).status = .ok)
    (regular : opcode.toNat ≠ Opcode.brkCode)
    (within : behind.length ≤ Opcode.length opcode - 1) :
    ∃ mnemonic mode, Opcode.meaning? opcode = some (mnemonic, mode) ∧ mode ≠ .illegal ∧
      behind.length = mode.operandSize ∧
      (ofBytes offset opcode behind).mnemonic = mnemonic.name ∧
      (ofBytes offset opcode behind).operand = Operand.text mode (Operand.value behind) := by
  cases known : Opcode.meaning? opcode with
  | none => simp [ofBytes, known] at ok
  | some meaning =>
    obtain ⟨mnemonic, mode⟩ := meaning
    rw [Opcode.length_of_ne_brk regular, Opcode.mode_of_meaning? known] at within
    by_cases illegal : mode = .illegal
    · simp [ofBytes, known, illegal] at ok
    · by_cases short : behind.length < mode.operandSize
      · simp [ofBytes, known, illegal, regular, short] at ok
      · refine ⟨mnemonic, mode, rfl, illegal, by omega, ?_, ?_⟩ <;>
          simp [ofBytes, known, illegal, regular, short]

end Instruction

end LinearSweep
