import LinearSweep.Opcode.Table
import Mathlib.Data.Int.Bitwise
import Mathlib.Data.Nat.Bitwise
import Mathlib.Tactic.NormNum

/-!
# Codes of any size

The fields of a code are quotients and remainders, and at the same time bits of its two's
complement, `land_two_pow_sub_one`.  `classified?` works a meaning out from these bits, and two
tables hold what it says of the 256 opcodes.  Any integer is classified like its low eight bits,
`entryOfCode_eq_classified`.  Its fields are those of the low eight bits anyway, but an integer with
further bits is no irregular opcode.
-/

namespace LinearSweep.Opcode

/-! ## Masks -/

theorem ldiff_two_pow_sub_one (n bits : Nat) :
    Nat.ldiff (2 ^ bits - 1) n = 2 ^ bits - 1 - n % 2 ^ bits := by
  have small : n % 2 ^ bits < 2 ^ bits := Nat.mod_lt n (Nat.two_pow_pos bits)
  have swapped : 2 ^ bits - 1 - n % 2 ^ bits = 2 ^ bits - (n % 2 ^ bits + 1) := by omega
  apply Nat.eq_of_testBit_eq
  intro i
  rw [swapped, Nat.testBit_ldiff, Nat.testBit_two_pow_sub_one, Nat.testBit_two_pow_sub_succ small,
    Nat.testBit_mod_two_pow]
  by_cases low : i < bits <;> simp [low]

/-- A mask of low bits leaves a remainder, of negative integers too. -/
theorem land_two_pow_sub_one (n : Int) (bits : Nat) :
    Int.land n (2 ^ bits - 1 : Nat) = n % (2 ^ bits : Nat) := by
  cases n with
  | ofNat n =>
    show ((n &&& (2 ^ bits - 1) : Nat) : Int) = _
    rw [Nat.and_two_pow_sub_one_eq_mod]
    rfl
  | negSucc n =>
    show ((Nat.ldiff (2 ^ bits - 1) n : Nat) : Int) = _
    have positive := Nat.two_pow_pos bits
    have small : n % 2 ^ bits < 2 ^ bits := Nat.mod_lt n positive
    rw [ldiff_two_pow_sub_one, Int.negSucc_emod _ (by exact_mod_cast positive)]
    omega

/-! ## Fields -/

theorem land_three (code : Int) : Int.land code 3 = code % 4 :=
  land_two_pow_sub_one code 2

theorem land_seven (code : Int) : Int.land code 7 = code % 8 :=
  land_two_pow_sub_one code 3

theorem land_byte (code : Int) : Int.land code 0xFF = code % 256 :=
  land_two_pow_sub_one code 8

theorem shiftRight_two (code : Int) : code >>> (2 : Nat) = code / 4 :=
  Int.shiftRight_eq_div_pow code 2

theorem shiftRight_five (code : Int) : code >>> (5 : Nat) = code / 32 :=
  Int.shiftRight_eq_div_pow code 5

theorem octal_land (code : Int) : octal (Int.land code 7) = octal code := by
  rw [land_seven, octal, octal, Fin.mk.injEq, Int.emod_emod]

theorem val_octal (code : Int) : ((octal code).val : Int) = code % 8 := by
  show ((code % 8).toNat : Int) = _
  omega

theorem number_ofCode (code : Int) : ((Group.ofCode code).number : Int) = code % 4 := by
  obtain rest | rest | rest | rest : code % 4 = 0 ∨ code % 4 = 1 ∨ code % 4 = 2 ∨ code % 4 = 3 := by
    omega
  all_goals
    rw [Group.ofCode, rest]
    rfl

theorem ofNumber?_number (group : Group) : Group.ofNumber? group.number = some group := by
  cases group <;> rfl

theorem ofNumber?_land (code : Int) :
    Group.ofNumber? (Int.land code 3) = some (Group.ofCode code) := by
  rw [land_three, ← number_ofCode, ofNumber?_number]

/-- The low eight bits have the same fields. -/
theorem fields_mod (code : Int) :
    Group.ofCode (code % 256) = Group.ofCode code ∧
      instructionField (code % 256) = instructionField code ∧
      modeField (code % 256) = modeField code := by
  refine ⟨?_, ?_, ?_⟩
  · have rest : code % 256 % 4 = code % 4 := by omega
    rw [Group.ofCode, Group.ofCode, rest]
  · rw [instructionField, instructionField, octal, octal, Fin.mk.injEq]
    omega
  · rw [modeField, modeField, octal, octal, Fin.mk.injEq]
    omega

theorem instructionField_eq_land (code : Int) :
    ((instructionField code).val : Int) = Int.land (code >>> (5 : Nat)) 7 := by
  rw [instructionField, val_octal, land_seven, shiftRight_five]

theorem modeField_eq_land (code : Int) :
    ((modeField code).val : Int) = Int.land (code >>> (2 : Nat)) 7 := by
  rw [modeField, val_octal, land_seven, shiftRight_two]

/-! ## Classification -/

/-- The instruction that is listed with an integer itself, not with its low bits. -/
def listed? (codes : List (Nat × Mnemonic)) (code : Int) : Option Mnemonic :=
  (codes.find? fun entry => (entry.1 : Int) = code).map (·.2)

/-- What an irregular opcode means.  An integer with further bits is none. -/
def irregular? (code : Int) : Option (Mnemonic × Mode) :=
  (listed? impliedCodes code).map (·, .implied)
    <|> (listed? branchCodes code).map (·, .relative)
    <|> (if code = jsrCode then some (.jsr, .absolute) else none)

/-- What the tables of the groups say of the fields that an integer has in two's complement. -/
def regular? (code : Int) : Option (Mnemonic × Mode) := do
  let group ← Group.ofNumber? (Int.land code 3)
  let mnemonic ← group.mnemonic? (Int.land (code >>> (5 : Nat)) 7)
  return (mnemonic, group.mode (Int.land (code >>> (2 : Nat)) 7))

/-- What an integer means as an opcode, worked out without a table of all opcodes. -/
def classified? (code : Int) : Option (Mnemonic × Mode) :=
  irregular? code <|> regular? code

def modeOf (meaning : Option (Mnemonic × Mode)) : Mode :=
  (meaning.map (·.2)).getD .illegal

/-- The lengths of all opcodes in ascending order, to which BRK is an exception. -/
def lengthTable : List Nat :=
  ((List.range 256).map fun code : Nat => 1 + (modeOf (classified? code)).operandSize).set brkCode
    brkLength

/-- The entries of all opcodes in ascending order. -/
def entryTable : List Entry :=
  (List.range 256).map fun code : Nat => {
    code := code
    mnemonic := (classified? code).map (·.1.name)
    group := Group.ofCode code
    mode := modeOf (classified? code)
    size := (lengthTable[code]?).getD 0 }

theorem regular?_eq (code : Int) :
    regular? code = ((Group.ofCode code).mnemonic? (code / 32)).map
      (·, (Group.ofCode code).mode (code / 4)) := by
  have mnemonic : (Group.ofCode code).mnemonic? (Int.land (code >>> (5 : Nat)) 7) =
      (Group.ofCode code).mnemonic? (code / 32) := by
    simp only [Group.mnemonic?, octal_land, shiftRight_five]
  have mode : (Group.ofCode code).mode (Int.land (code >>> (2 : Nat)) 7) =
      (Group.ofCode code).mode (code / 4) := by
    simp only [Group.mode, octal_land, shiftRight_two]
  rw [regular?, ofNumber?_land]
  simp only [Option.bind_eq_bind, Option.bind_some, mnemonic, mode]
  cases (Group.ofCode code).mnemonic? (code / 32) <;> rfl

theorem regular?_mod (code : Int) : regular? (code % 256) = regular? code := by
  obtain ⟨group, instruction, mode⟩ := fields_mod code
  have mnemonics (g : Group) : g.mnemonic? (code % 256 / 32) = g.mnemonic? (code / 32) :=
    congrArg (fun field : Fin 8 => g.instructions[field]) instruction
  have modes (g : Group) : g.mode (code % 256 / 4) = g.mode (code / 4) :=
    congrArg (fun field : Fin 8 => g.modes[field]) mode
  rw [regular?_eq, regular?_eq, group, mnemonics, modes]

/-- The fields of an integer may be taken for those of its low eight bits. -/
theorem classified?_mod (code : Int) :
    classified? (code % 256) = (irregular? (code % 256) <|> regular? code) := by
  rw [classified?, regular?_mod]

theorem listed?_natCast (codes : List (Nat × Mnemonic)) (code : Nat) :
    listed? codes code = codes.lookup code := by
  induction codes with
  | nil => rfl
  | cons entry codes ih =>
    obtain ⟨key, mnemonic⟩ := entry
    by_cases same : key = code
    · simp [listed?, same]
    · have other : (code == key) = false := by simp [Ne.symm same]
      rw [List.lookup_cons, other, listed?, List.find?_cons_of_neg (by simp [same])]
      exact ih

theorem irregular?_natCast (code : Nat) :
    irregular? code =
      ((impliedCodes.lookup code).map (·, .implied)
        <|> (branchCodes.lookup code).map (·, .relative)
        <|> (if code = jsrCode then some (.jsr, .absolute) else none)) := by
  simp only [irregular?, listed?_natCast, Int.natCast_inj]

/-- The meaning of a byte is worked out from it. -/
theorem meaning?_eq_classified? (byte : UInt8) : meaning? byte = classified? byte.toNat := by
  rw [classified?, regular?_eq, irregular?_natCast, meaning?]
  simp only [Option.orElse_eq_orElse, Option.orElse_eq_or, Option.or_assoc]
  rfl

theorem mode_eq (byte : UInt8) : mode byte = modeOf (classified? byte.toNat) := by
  rw [mode, meaning?_eq_classified?, modeOf]

/-! ## Tables -/

theorem lengthTable_eq (byte : UInt8) : lengthTable[byte.toNat]? = some (length byte) := by
  have inside : byte.toNat < 256 := byte.toNat_lt
  rw [lengthTable, List.getElem?_set, length, mode_eq]
  by_cases brk : byte.toNat = brkCode
  · rw [if_pos brk, if_pos brk.symm, if_pos (by simp [brkCode])]
  · rw [if_neg brk, if_neg (Ne.symm brk), List.getElem?_map, List.getElem?_range inside]
    rfl

theorem entryTable_eq (byte : UInt8) : entryTable[byte.toNat]? = some (entryOfByte byte) := by
  have inside : byte.toNat < 256 := byte.toNat_lt
  rw [entryTable, List.getElem?_map, List.getElem?_range inside, Option.map_some, lengthTable_eq,
    entryOfByte, meaning?_eq_classified?, mode_eq]
  rfl

theorem toNat_byteOf (code : Int) : ((byteOf code).toNat : Int) = code % 256 := by
  rw [byteOf, UInt8.toNat_ofNat']
  omega

theorem fields_sum (code : Int) :
    ((Group.ofCode code).number + 4 * (modeField code).val
      + 32 * (instructionField code).val : Int) = code % 256 := by
  rw [number_ofCode, modeField, instructionField, val_octal, val_octal]
  omega

/-- The entry of a code is worked out from its low eight bits, or, if these are no irregular opcode,
from the fields of the code itself. -/
theorem entryOfCode_eq_classified (code : Int) :
    let meaning := irregular? (code % 256) <|> regular? code
    entryOfCode code = {
      code := code % 256
      mnemonic := meaning.map (·.1.name)
      group := Group.ofCode code
      mode := modeOf meaning
      size := if code % 256 = 0 then 2 else 1 + (modeOf meaning).operandSize } := by
  intro meaning
  have same : classified? (code % 256) = meaning := classified?_mod code
  have brk : (byteOf code).toNat = brkCode ↔ code % 256 = 0 := by
    rw [← toNat_byteOf, brkCode, Int.natCast_eq_zero]
  have size : (length (byteOf code) : Int) =
      (if code % 256 = 0 then 2 else 1 + (modeOf meaning).operandSize : Int) := by
    simp only [length, mode_eq, toNat_byteOf, same, brk]
    split <;> simp [brkLength]
  rw [entryOfCode, entryOfByte, size, meaning?_eq_classified?, mode_eq, toNat_byteOf, same,
    (fields_mod code).1]

/-- Any integer is classified like its low eight bits, which its three fields make up.  The entry is
worked out from the irregular opcodes first and from the fields of the integer after that; it stands
in the table of all opcodes under the low eight bits, and its size in the table of lengths. -/
theorem code_classified_by_fields (code : Int) :
    ((Group.ofCode code).number + 4 * (modeField code).val
      + 32 * (instructionField code).val : Int) = code % 256 ∧
    (Group.ofNumber? (Int.land code 3) = some (Group.ofCode code) ∧
      (modeField code).val = Int.land (code >>> (2 : Nat)) 7 ∧
      (instructionField code).val = Int.land (code >>> (5 : Nat)) 7 ∧
      code % 256 = Int.land code 0xFF) ∧
    let low := code % 256
    let entry := entryOfCode code
    let meaning := irregular? low <|> regular? code
    entry = {
      code := low
      mnemonic := meaning.map (·.1.name)
      group := Group.ofCode code
      mode := modeOf meaning
      size := if low = 0 then 2 else 1 + (modeOf meaning).operandSize } ∧
    meaning = classified? low ∧
    entryTable[(Int.land code 0xFF).toNat]? = some entry ∧
    lengthTable[(Int.land code 0xFF).toNat]? = some (length (byteOf code)) ∧
    length (byteOf code) = entry.size ∧
    entry.size = (if low = 0 then 2 else 1 + entry.mode.operandSize : Int) := by
  refine ⟨fields_sum code, ⟨ofNumber?_land code, modeField_eq_land code,
    instructionField_eq_land code, (land_byte code).symm⟩, ?_⟩
  intro low entry meaning
  have classified := entryOfCode_eq_classified code
  have index : (Int.land code 0xFF).toNat = (byteOf code).toNat := by
    rw [land_byte, ← toNat_byteOf, Int.toNat_natCast]
  rw [index]
  refine ⟨classified, (classified?_mod code).symm, entryTable_eq _, lengthTable_eq _, rfl, ?_⟩
  simp only [entry, classified]
  rfl

/-- An integer with further bits is no irregular opcode, even if its low eight bits are one. -/
example : classified? 0x120 = some (.bit, .immediate) ∧
    (entryOfCode 0x120).mnemonic = some "JSR" := by
  decide

end LinearSweep.Opcode
