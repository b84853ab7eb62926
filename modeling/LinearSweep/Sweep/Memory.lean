import LinearSweep.Instruction
import LinearSweep.Sweep.Span

/-!
# Reading by address

A second account of a sweep, by a machine that has a memory instead of a list of bytes.  It knows
the address of the next instruction and the end of its range, and it must not read an address that
the memory does not have.  It reads an opcode before it knows how many bytes follow, and in each
case it works out for itself how large the instruction is, which bytes it shows and where the next
one begins.
-/

namespace LinearSweep

/-- The bytes at the addresses that can be read. -/
abbrev Memory : Type := Nat → Option UInt8

namespace Memory

def ofSpan (span : Span) (image : List UInt8) : Memory := fun address =>
  if span.start ≤ address ∧ address < span.stop then image[address]? else none

/-- The bytes at a number of addresses in a row, or nothing if one of them cannot be read. -/
def read? (memory : Memory) (address : Nat) : Nat → Option (List UInt8)
  | 0 => some []
  | count + 1 => do
    let byte ← memory address
    let bytes ← memory.read? (address + 1) count
    return byte :: bytes

/-- The instruction at an address below `stop`, and the address of the next one, or nothing if a
byte cannot be read. -/
def fetch? (memory : Memory) (stop address : Nat) : Option (Instruction × Nat) := do
  let opcode ← memory address
  let length := Opcode.length opcode
  match Opcode.meaning? opcode with
  | none =>
    return (⟨address, opcode.toNat, Instruction.unknownText, .illegal, "", 1, [opcode],
      .unknownOpcode⟩, address + 1)
  | some (mnemonic, mode) =>
    if mode = .illegal then
      return (⟨address, opcode.toNat, mnemonic.name, mode, Operand.text mode 0, 1, [opcode],
        .illegalMode⟩, address + 1)
    -- The padding of BRK may lie beyond the end.
    else if opcode.toNat = Opcode.brkCode then
      let next := min (address + length) stop
      let bytes ← memory.read? address (next - address)
      return (⟨address, opcode.toNat, mnemonic.name, mode, "", next - address, bytes, .ok⟩, next)
    -- A truncated instruction shows none of its operand bytes, not even those that are there.
    else if stop < address + length then
      return (⟨address, opcode.toNat, mnemonic.name, mode, Operand.truncatedText, stop - address,
        [opcode], .truncated⟩, stop)
    else
      let operand ← memory.read? (address + 1) (length - 1)
      return (⟨address, opcode.toNat, mnemonic.name, mode,
        Operand.text mode (Operand.value operand), length, opcode :: operand, .ok⟩,
        address + 1 + (length - 1))

/-- The machine reads instructions one after another from an address on, and comes to the end of its
range without a fault. -/
inductive Sweeps (memory : Memory) (stop : Nat) : Nat → List Instruction → Prop where
  | done {address : Nat} : stop ≤ address → Sweeps memory stop address []
  | step {address next : Nat} {i : Instruction} {is : List Instruction} :
      address < stop → memory.fetch? stop address = some (i, next) →
      Sweeps memory stop next is → Sweeps memory stop address (i :: is)

end Memory

end LinearSweep
