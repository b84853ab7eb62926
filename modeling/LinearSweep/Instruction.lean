import LinearSweep.Opcode.Table
import LinearSweep.Operand

/-!
# Instructions

An instruction as a sweep delivers it: where its opcode stands, what it was read as, the bytes it
was read from, and whether it is whole.  It is shown as assembler text, and as a line of a listing
with the address at which the image is taken to be loaded.

`Instruction.ofBytes` reads the bytes of one instruction and never fails: a byte without meaning, an
illegal mode and an operand beyond the end of the range each have a status of their own.
-/

namespace LinearSweep

inductive Status where
  | ok
  | unknownOpcode
  /-- The instruction is known, but its addressing mode is not. -/
  | illegalMode
  /-- The operand lies beyond the end of the range. -/
  | truncated
  deriving DecidableEq, Repr

namespace Status

def all : List Status :=
  [ok, unknownOpcode, illegalMode, truncated]

def name : Status → String
  | ok => "ok"
  | unknownOpcode => "unknown_opcode"
  | illegalMode => "illegal_mode"
  | truncated => "truncated"

theorem mem_all (s : Status) : s ∈ all := by
  cases s <;> decide

end Status

/-- An instruction at an offset of an image. -/
structure Instruction where
  offset : Int
  opcode : Int
  mnemonic : String
  mode : Mode
  /-- The operand in assembler text, empty if there is none. -/
  operand : String
  /-- The number of bytes that the instruction takes up. -/
  size : Int
  bytes : List UInt8
  status : Status
  deriving DecidableEq, Repr

namespace Instruction

def unknownText : String := "???"

/-! ## Showing -/

def text (i : Instruction) : String :=
  if i.operand = "" then i.mnemonic else i.mnemonic ++ " " ++ i.operand

/-- The address of the instruction in an image that is loaded at `base`. -/
def address (base : Int) (i : Instruction) : Int :=
  (base + i.offset) % Numeral.addressSpace

def addressText (base : Int) (i : Instruction) : String :=
  Numeral.hexAddress (base + i.offset)

/-- The width of the column of bytes, which holds the three bytes of the longest instruction. -/
def bytesWidth : Nat := 8

def bytesColumn (i : Instruction) : String :=
  String.ofList ((Numeral.hexBytes i.bytes).toList.rightpad bytesWidth ' ')

def line (base : Int) (showBytes : Bool) (i : Instruction) : String :=
  if showBytes then i.addressText base ++ ": " ++ i.bytesColumn ++ "  " ++ i.text
  else i.addressText base ++ ": " ++ i.text

/-! ## Reading -/

/-- The instruction with an opcode at an offset, given the bytes behind the opcode that belong to it
and lie within the range. -/
def ofBytes (offset : Nat) (opcode : UInt8) (behind : List UInt8) : Instruction :=
  let size := 1 + behind.length
  match Opcode.meaning? opcode with
  | none =>
    ⟨offset, opcode.toNat, unknownText, .illegal, "", size, [opcode], .unknownOpcode⟩
  | some (mnemonic, mode) =>
    if mode = .illegal then
      ⟨offset, opcode.toNat, mnemonic.name, mode, Operand.text mode 0, size, [opcode], .illegalMode⟩
    -- The byte behind BRK is padding, and BRK is whole without it.
    else if opcode.toNat = Opcode.brkCode then
      ⟨offset, opcode.toNat, mnemonic.name, mode, "", size, opcode :: behind, .ok⟩
    else if behind.length < mode.operandSize then
      ⟨offset, opcode.toNat, mnemonic.name, mode, Operand.truncatedText, size, [opcode], .truncated⟩
    else
      ⟨offset, opcode.toNat, mnemonic.name, mode, Operand.text mode (Operand.value behind), size,
        opcode :: behind, .ok⟩

@[simp] theorem offset_ofBytes {offset : Nat} {opcode : UInt8} {behind : List UInt8} :
    (ofBytes offset opcode behind).offset = offset := by
  unfold ofBytes
  split
  · rfl
  · split <;> (try split) <;> (try split) <;> rfl

@[simp] theorem size_ofBytes {offset : Nat} {opcode : UInt8} {behind : List UInt8} :
    (ofBytes offset opcode behind).size = 1 + behind.length := by
  unfold ofBytes
  split
  · rfl
  · split <;> (try split) <;> (try split) <;> rfl

end Instruction

end LinearSweep
