import LinearSweep.Instruction
import LinearSweep.Text.Raw

/-!
# The log

A note says what the command is doing, or that an instruction is not whole.
-/

namespace LinearSweep

inductive Note where
  | reading (path : RawText)
  | unpacked (words bytes : Nat)
  | image (path : RawText) (size : Nat)
  | base (address : Int)
  | range (start stop : Nat)
  | unknownOpcode (opcode offset : Int)
  | illegalMode (mnemonic : String) (opcode offset : Int)
  | truncated (mnemonic : String) (offset needed available : Int)
  | written (path : RawText)
  | total (count : Nat)
  deriving DecidableEq, Repr

namespace Note

def message : Note → String
  | reading path => s!"Reading packed ROM from {path.escaped}"
  | unpacked words bytes => s!"Unpacked {words} words into {bytes} bytes"
  | image path size => s!"Input file: {path.escaped} ({size} bytes)"
  | base address => s!"Base address: ${String.ofList (Numeral.hex 4 address)}"
  | range start stop => s!"Decode range: {start}-{stop}"
  | unknownOpcode opcode offset =>
    s!"Unknown opcode ${String.ofList (Numeral.hex 2 opcode)} at offset {offset}"
  | illegalMode mnemonic opcode offset =>
    s!"Illegal addressing mode for {mnemonic} (${String.ofList (Numeral.hex 2 opcode)})"
      ++ s!" at offset {offset}"
  | truncated mnemonic offset needed available =>
    s!"Truncated {mnemonic} at offset {offset}: needs {needed} bytes, {available} available"
  | written path => s!"Output written to: {path.escaped}"
  | total count => s!"Instructions disassembled: {count}"

def line (note : Note) : String :=
  s!"DEBUG: {note.message}\n"

end Note

/-- The note about an instruction that is not whole. -/
def Instruction.note? (i : Instruction) : Option Note :=
  match i.status with
  | .ok => none
  | .unknownOpcode => some (.unknownOpcode i.opcode i.offset)
  | .illegalMode => some (.illegalMode i.mnemonic i.opcode i.offset)
  | .truncated => some (.truncated i.mnemonic i.offset (1 + i.mode.operandSize) i.size)

end LinearSweep
