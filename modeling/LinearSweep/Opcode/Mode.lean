/-!
# Addressing modes

An addressing mode says where an instruction finds its operand: how many operand bytes follow the
opcode, and what stands around their value in assembler text.  `Mode.illegal` marks the bit
patterns that name no mode.
-/

namespace LinearSweep

/-- The addressing modes of the 6502, and the mark of a bit pattern that names none. -/
inductive Mode where
  | implied
  | accumulator
  | immediate
  | zeroPage
  | zeroPageX
  | zeroPageY
  | absolute
  | absoluteX
  | absoluteY
  | indexedIndirect
  | indirectIndexed
  | relative
  | illegal
  deriving DecidableEq, Repr

namespace Mode

def all : List Mode :=
  [implied, accumulator, immediate, zeroPage, zeroPageX, zeroPageY, absolute, absoluteX, absoluteY,
   indexedIndirect, indirectIndexed, relative, illegal]

def name : Mode → String
  | implied => "implied"
  | accumulator => "accumulator"
  | immediate => "immediate"
  | zeroPage => "zero-page"
  | zeroPageX => "zero-page-x"
  | zeroPageY => "zero-page-y"
  | absolute => "absolute"
  | absoluteX => "absolute-x"
  | absoluteY => "absolute-y"
  | indexedIndirect => "indexed-indirect"
  | indirectIndexed => "indirect-indexed"
  | relative => "relative"
  | illegal => "illegal"

def operandSize : Mode → Nat
  | implied | accumulator | illegal => 0
  | immediate | zeroPage | zeroPageX | zeroPageY | indexedIndirect | indirectIndexed | relative => 1
  | absolute | absoluteX | absoluteY => 2

/-- What stands before and after the numeral of the operand, for the modes with operand bytes.  A
relative operand is shown as the displacement byte that it is. -/
def template? : Mode → Option (String × String)
  | immediate => some ("#$", "")
  | zeroPage | absolute | relative => some ("$", "")
  | zeroPageX | absoluteX => some ("$", ",X")
  | zeroPageY | absoluteY => some ("$", ",Y")
  | indexedIndirect => some ("($", ",X)")
  | indirectIndexed => some ("($", "),Y")
  | implied | accumulator | illegal => none

theorem mem_all (m : Mode) : m ∈ all := by
  cases m <;> decide

/-- The modes with a template are those with operand bytes. -/
theorem isSome_template?_iff (m : Mode) : m.template?.isSome ↔ 0 < m.operandSize := by
  cases m <;> decide

theorem operandSize_le (m : Mode) : m.operandSize ≤ 2 := by
  cases m <;> decide

end Mode

end LinearSweep
