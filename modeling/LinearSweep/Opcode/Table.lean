import LinearSweep.Numeral.Hex
import LinearSweep.Opcode.Group
import LinearSweep.Text.Quoted

/-!
# The opcode table

What each of the 256 opcode bytes of the 6502 means.  Some opcodes do not follow the bit pattern of
their group, among them those without operand and the conditional branches; they are looked up
first, and the fields of the group decide the rest.  A byte may have no meaning at all, or a known
instruction with an illegal mode.
-/

namespace LinearSweep.Opcode

def brkCode : Nat := 0x00

def jsrCode : Nat := 0x20

/-- The length of BRK, whose opcode is followed by a padding byte. -/
def brkLength : Nat := 2

def impliedCodes : List (Nat × Mnemonic) :=
  [(0x00, .brk), (0x08, .php), (0x18, .clc), (0x28, .plp), (0x38, .sec), (0x40, .rti), (0x48, .pha),
   (0x58, .cli), (0x60, .rts), (0x68, .pla), (0x78, .sei), (0x88, .dey), (0x8A, .txa), (0x98, .tya),
   (0x9A, .txs), (0xA8, .tay), (0xAA, .tax), (0xB8, .clv), (0xBA, .tsx), (0xC8, .iny), (0xCA, .dex),
   (0xD8, .cld), (0xE8, .inx), (0xEA, .nop), (0xF8, .sed)]

def branchCodes : List (Nat × Mnemonic) :=
  [(0x10, .bpl), (0x30, .bmi), (0x50, .bvc), (0x70, .bvs), (0x90, .bcc), (0xB0, .bcs), (0xD0, .bne),
   (0xF0, .beq)]

def byteOf (code : Int) : UInt8 :=
  UInt8.ofNat (code % 256).toNat

/-- The instruction and the addressing mode of an opcode byte, or nothing if it has no meaning. -/
def meaning? (byte : UInt8) : Option (Mnemonic × Mode) :=
  let code := byte.toNat
  let group := Group.ofCode code
  -- The irregular opcodes come first, and the fields of the group decide the rest.
  (impliedCodes.lookup code).map (·, .implied)
    <|> (branchCodes.lookup code).map (·, .relative)
    <|> (if code = jsrCode then some (.jsr, .absolute) else none)
    <|> (group.instructions[instructionField code]).map (·, group.modes[modeField code])

/-- The addressing mode of an opcode byte; an opcode without meaning has an illegal mode. -/
def mode (byte : UInt8) : Mode :=
  ((meaning? byte).map (·.2)).getD .illegal

def length (byte : UInt8) : Nat :=
  if byte.toNat = brkCode then brkLength else 1 + (mode byte).operandSize

/-! ## Entries -/

/-- An entry of the opcode table, open to any values so that other tables can be described too. -/
structure Entry where
  code : Int
  /-- The name of the instruction, if the opcode is known. -/
  mnemonic : Option String
  group : Group
  mode : Mode
  size : Int
  deriving DecidableEq, Repr

namespace Entry

def isKnown (entry : Entry) : Bool :=
  entry.mnemonic.isSome

def operandSize (entry : Entry) : Int :=
  entry.size - 1

def describe (entry : Entry) : Except NumeralError String := do
  let code := String.ofList (Numeral.hex 2 entry.code)
  let mnemonic := (entry.mnemonic.map Text.quoted).getD "None"
  let size ← Numeral.decimal entry.size
  return s!"OpcodeInfo(opcode=${code}, mnemonic={mnemonic}, mode={entry.mode.name}, size={size})"

end Entry

def entryOfByte (byte : UInt8) : Entry where
  code := byte.toNat
  mnemonic := (meaning? byte).map (·.1.name)
  group := Group.ofCode byte.toNat
  mode := mode byte
  size := length byte

/-- The entry of any integer: that of its low eight bits. -/
def entryOfCode (code : Int) : Entry :=
  entryOfByte (byteOf code)

end LinearSweep.Opcode
