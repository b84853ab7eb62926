import LinearSweep.Numeral.Decimal
import LinearSweep.Opcode.Mnemonic
import LinearSweep.Opcode.Mode

/-!
# Opcode groups

Most opcodes follow the bit pattern `aaabbbcc`.  The two low bits `cc` select a group, the high bits
`aaa` the instruction within the group, and the middle bits `bbb` its addressing mode.  The fields
are those of an integer in two's complement, so they are defined for negative and for large codes
too, and depend on the low eight bits alone.
-/

namespace LinearSweep

/-- The opcodes with the same two low bits. -/
inductive Group where
  | control
  | arithmetic
  | shift
  | unused
  deriving DecidableEq, Repr

namespace Group

def number : Group → Nat
  | control => 0
  | arithmetic => 1
  | shift => 2
  | unused => 3

def ofCode (code : Int) : Group :=
  match code % 4 with
  | 0 => control
  | 1 => arithmetic
  | 2 => shift
  | _ => unused

def ofNumber? : Int → Option Group
  | 0 => some control
  | 1 => some arithmetic
  | 2 => some shift
  | 3 => some unused
  | _ => none

def unknownMessage (number : Int) : Except NumeralError String := do
  return (← Numeral.decimal number) ++ " is not a valid OpcodeFamily"

def label : Group → String
  | control => "FAMILY_00"
  | arithmetic => "FAMILY_01"
  | shift => "FAMILY_10"
  | unused => "FAMILY_11"

def instructions : Group → Vector (Option Mnemonic) 8
  | control =>
    #v[none, some .bit, some .jmp, some .jmp, some .sty, some .ldy, some .cpy, some .cpx]
  | arithmetic =>
    #v[some .ora, some .and, some .eor, some .adc, some .sta, some .lda, some .cmp, some .sbc]
  | shift =>
    #v[some .asl, some .rol, some .lsr, some .ror, some .stx, some .ldx, some .dec, some .inc]
  | unused => #v[none, none, none, none, none, none, none, none]

def modes : Group → Vector Mode 8
  | control =>
    #v[.immediate, .zeroPage, .illegal, .absolute, .illegal, .zeroPageX, .illegal, .absoluteX]
  | arithmetic =>
    #v[.indexedIndirect, .zeroPage, .immediate, .absolute, .indirectIndexed, .zeroPageX, .absoluteY,
       .absoluteX]
  | shift =>
    #v[.immediate, .zeroPage, .accumulator, .absolute, .illegal, .zeroPageX, .illegal, .absoluteX]
  | unused =>
    #v[.illegal, .illegal, .illegal, .illegal, .illegal, .illegal, .illegal, .illegal]

end Group

namespace Opcode

def octal (n : Int) : Fin 8 :=
  ⟨(n % 8).toNat, by omega⟩

def instructionField (code : Int) : Fin 8 :=
  octal (code / 32)

def modeField (code : Int) : Fin 8 :=
  octal (code / 4)

end Opcode

/-- Only the three low bits of an index count. -/
def Group.mnemonic? (group : Group) (index : Int) : Option Mnemonic :=
  group.instructions[Opcode.octal index]

def Group.mode (group : Group) (index : Int) : Mode :=
  group.modes[Opcode.octal index]

end LinearSweep
