import LinearSweep.Opcode.Table
import Mathlib.Data.List.Nodup

/-!
# From instructions back to opcodes

The opcode table read the other way: the opcode of an instruction in an addressing mode.  Every
opcode with a legal mode is the opcode of its instruction, `assemble?_of_meaning?`, except that
jumps have two opcodes in each mode, which differ in one bit.
-/

namespace LinearSweep

namespace Mnemonic

def all : List Mnemonic :=
  [adc, and, asl, bcc, bcs, beq, bit, bmi, bne, bpl, brk, bvc, bvs, clc, cld, cli, clv, cmp, cpx,
   cpy, dec, dex, dey, eor, inc, inx, iny, jmp, jsr, lda, ldx, ldy, lsr, nop, ora, pha, php, pla,
   plp, rol, ror, rti, rts, sbc, sec, sed, sei, sta, stx, sty, tax, tay, tsx, txa, txs, tya]

theorem mem_all (m : Mnemonic) : m ∈ all := by
  cases m <;> decide

theorem name_injective : Function.Injective name := by
  have distinct : (all.map fun m => m.name.toList).Nodup := by decide +kernel
  intro m m' same
  exact List.inj_on_of_nodup_map distinct (mem_all m) (mem_all m') (congrArg String.toList same)

end Mnemonic

namespace Opcode

/-- The bit in which the two opcodes of a jump differ. -/
def jumpBit : UInt8 := 0x20

/-- The opcode of an instruction in a mode, by the irregular opcodes or else by the fields of the
first group that has both.  Of the two opcodes of a jump it is the one without `jumpBit`. -/
def assemble? (mnemonic : Mnemonic) (mode : Mode) : Option UInt8 :=
  let code? : Option Nat :=
    match mode with
    | .implied => (impliedCodes.find? (·.2 = mnemonic)).map (·.1)
    | .relative => (branchCodes.find? (·.2 = mnemonic)).map (·.1)
    | mode =>
      if mnemonic = .jsr ∧ mode = .absolute then some jsrCode
      else
        [Group.control, Group.arithmetic, Group.shift].findSome? fun group => do
          let row ← group.instructions.toList.findIdx? (· = some mnemonic)
          let column ← group.modes.toList.findIdx? (· = mode)
          return 32 * row + 4 * column + group.number
  code?.map UInt8.ofNat

theorem flip_flip (byte : UInt8) : byte ^^^ jumpBit ^^^ jumpBit = byte := by
  rw [UInt8.xor_assoc, UInt8.xor_self, UInt8.xor_zero]

variable {byte byte' : UInt8} {mnemonic : Mnemonic} {mode : Mode}

theorem assemble?_of_meaning? (known : meaning? byte = some (mnemonic, mode))
    (legal : mode ≠ .illegal) :
    assemble? mnemonic mode = some byte ∨
      mnemonic = .jmp ∧ assemble? mnemonic mode = some (byte ^^^ jumpBit) := by
  have table : ∀ n < 256, ∀ meaning ∈ meaning? (UInt8.ofNat n), meaning.2 ≠ .illegal →
      assemble? meaning.1 meaning.2 = some (UInt8.ofNat n) ∨
        meaning.1 = .jmp ∧ assemble? meaning.1 meaning.2 = some (UInt8.ofNat n ^^^ jumpBit) := by
    decide +kernel
  have entry := table byte.toNat byte.toNat_lt
  rw [UInt8.ofNat_toNat] at entry
  exact entry _ known legal

/-- The other opcode of a jump is that of the same jump. -/
theorem meaning?_jump (jump : meaning? byte = some (.jmp, mode)) :
    meaning? (byte ^^^ jumpBit) = some (.jmp, mode) := by
  have table : ∀ n < 256, ∀ meaning ∈ meaning? (UInt8.ofNat n), meaning.1 = .jmp →
      meaning? (UInt8.ofNat n ^^^ jumpBit) = some meaning := by
    decide +kernel
  have entry := table byte.toNat byte.toNat_lt
  rw [UInt8.ofNat_toNat] at entry
  exact entry _ jump rfl

/-- Opcodes with the same legal meaning are equal, or they are the two of a jump. -/
theorem eq_or_jump_of_meaning? (known : meaning? byte = some (mnemonic, mode))
    (known' : meaning? byte' = some (mnemonic, mode)) (legal : mode ≠ .illegal) :
    byte' = byte ∨ mnemonic = .jmp ∧ byte' = byte ^^^ jumpBit := by
  obtain code | ⟨jump, code⟩ := assemble?_of_meaning? known legal <;>
    obtain code' | ⟨jump', code'⟩ := assemble?_of_meaning? known' legal <;>
    have same := Option.some.inj (code.symm.trans code')
  · exact .inl same.symm
  · exact .inr ⟨jump', by rw [same, flip_flip]⟩
  · exact .inr ⟨jump, same.symm⟩
  · exact .inl ((UInt8.xor_left_inj _).mp same).symm

/-- An instruction does not both branch and address the zero page. -/
theorem not_relative_and_zeroPage (relative : meaning? byte = some (mnemonic, .relative))
    (zeroPage : meaning? byte' = some (mnemonic, .zeroPage)) : False := by
  have apart : assemble? mnemonic .relative = none ∨ assemble? mnemonic .zeroPage = none := by
    cases mnemonic <;> decide
  obtain branch | ⟨-, branch⟩ := assemble?_of_meaning? relative (by decide) <;>
    obtain page | ⟨-, page⟩ := assemble?_of_meaning? zeroPage (by decide) <;>
    simp [branch, page] at apart

end Opcode

end LinearSweep
