import LinearSweep.Proofs.Decoding
import LinearSweep.Sweep.Memory

/-!
# The machine reads what is decoded

A machine that reads its bytes by address arrives at the same instructions as `decode`, and never
asks for a byte outside of the range.  `Holds` says that a memory has a run of bytes at an address;
`fetch?_of_holds` is one step of the machine, and `sweeps_iff_of_holds` its whole run.
-/

namespace LinearSweep.Memory

/-- A memory has a run of bytes at an address. -/
def Holds (memory : Memory) : Nat → List UInt8 → Prop
  | _, [] => True
  | address, byte :: bytes => memory address = some byte ∧ Holds memory (address + 1) bytes

theorem holds_append {memory : Memory} {address : Nat} {bytes more : List UInt8} :
    memory.Holds address (bytes ++ more) ↔
      memory.Holds address bytes ∧ memory.Holds (address + bytes.length) more := by
  induction bytes generalizing address with
  | nil => simp [Holds]
  | cons byte bytes ih =>
    simp only [List.cons_append, Holds, List.length_cons]
    rw [ih, and_assoc, Nat.add_right_comm, Nat.add_assoc]

theorem holds_of_getElem? {memory : Memory} {address : Nat} {bytes : List UInt8}
    (same : ∀ k, k < bytes.length → memory (address + k) = bytes[k]?) :
    memory.Holds address bytes := by
  induction bytes generalizing address with
  | nil => trivial
  | cons byte bytes ih =>
    constructor
    · simpa using same 0 (by simp)
    · apply ih
      intro k bound
      rw [Nat.add_assoc, Nat.add_comm 1 k]
      simpa using same (k + 1) (by simpa using bound)

theorem holds_ofSpan {span : Span} {image : List UInt8} (within : span.stop ≤ image.length) :
    (ofSpan span image).Holds span.start (span.slice image) := by
  apply holds_of_getElem?
  intro k bound
  rw [Span.length_slice within] at bound
  have inside : span.start ≤ span.start + k ∧ span.start + k < span.stop := by omega
  simp only [ofSpan, inside, and_self, ↓reduceIte, Span.slice]
  rw [List.getElem?_take_of_lt bound, List.getElem?_drop]

/-! ## One instruction -/

theorem read?_of_holds {memory : Memory} {address : Nat} {bytes : List UInt8}
    (holds : memory.Holds address bytes) : memory.read? address bytes.length = some bytes := by
  induction bytes generalizing address with
  | nil => rfl
  | cons byte bytes ih =>
    obtain ⟨first, others⟩ := holds
    simp [read?, first, ih others]

section Reach

variable {opcode : UInt8} {behind rest : List UInt8}

/-- The range ends within an instruction exactly if some of its bytes are missing. -/
theorem ends_within_iff (within : behind.length ≤ Opcode.length opcode - 1)
    (missing : behind.length < Opcode.length opcode - 1 → rest = []) (address : Nat) :
    address + (opcode :: (behind ++ rest)).length < address + Opcode.length opcode ↔
      behind.length < Opcode.length opcode - 1 := by
  have positive := Opcode.one_le_length opcode
  simp only [List.length_cons, List.length_append]
  constructor
  · intro beyond
    omega
  · intro short
    rw [missing short, List.length_nil]
    omega

/-- An instruction reaches as far as it asks for, or else to the end of the range. -/
theorem min_reach (within : behind.length ≤ Opcode.length opcode - 1)
    (missing : behind.length < Opcode.length opcode - 1 → rest = []) (address : Nat) :
    min (address + Opcode.length opcode) (address + (opcode :: (behind ++ rest)).length) =
      address + (opcode :: behind).length := by
  have positive := Opcode.one_le_length opcode
  have ends := ends_within_iff within missing address
  simp only [List.length_cons, List.length_append] at ends ⊢
  by_cases short : behind.length < Opcode.length opcode - 1
  · have empty : rest.length = 0 := List.length_eq_zero_iff.mpr (missing short)
    omega
  · omega

end Reach

/-- Each case of the machine agrees with `Instruction.ofBytes`: an opcode without a mode has no
bytes behind it, the padding of BRK is cut off at the end of the range, and an instruction that does
not fit takes all that is left. -/
theorem fetch?_of_holds {memory : Memory} {address : Nat} {opcode : UInt8}
    {behind rest : List UInt8} (within : behind.length ≤ Opcode.length opcode - 1)
    (missing : behind.length < Opcode.length opcode - 1 → rest = [])
    (holds : memory.Holds address (opcode :: (behind ++ rest))) :
    memory.fetch? (address + (opcode :: (behind ++ rest)).length) address =
      some (Instruction.ofBytes address opcode behind, address + 1 + behind.length) := by
  have first : memory address = some opcode := holds.1
  have others : memory.Holds (address + 1) behind := (holds_append.mp holds.2).1
  have single (illegal : Opcode.mode opcode = .illegal) : behind = [] := by
    rw [Opcode.length_of_illegal illegal] at within
    exact List.length_eq_zero_iff.mp (Nat.le_zero.mp within)
  simp only [fetch?, first, Instruction.ofBytes, Option.bind_eq_bind, Option.bind_some,
    min_reach within missing, ends_within_iff within missing]
  cases known : Opcode.meaning? opcode with
  | none => simp [single (Opcode.mode_of_meaning?_eq_none known)]
  | some meaning =>
    obtain ⟨mnemonic, mode⟩ := meaning
    have modeOf := Opcode.mode_of_meaning? known
    simp only
    by_cases illegal : mode = .illegal
    case pos => simp [illegal, single (modeOf.trans illegal)]
    case neg =>
      rw [if_neg illegal, if_neg illegal]
      by_cases brk : opcode.toNat = Opcode.brkCode
      case pos =>
        -- The machine shows what it moves over, padding included.
        have all : memory.Holds address (opcode :: behind) := ⟨first, others⟩
        rw [if_pos brk, if_pos brk, Nat.add_sub_cancel_left, read?_of_holds all]
        simp
        omega
      case neg =>
        have size := Opcode.length_of_ne_brk brk
        rw [modeOf] at size
        have same : behind.length < Opcode.length opcode - 1 ↔
            behind.length < mode.operandSize := by omega
        rw [if_neg brk, if_neg brk]
        by_cases short : behind.length < Opcode.length opcode - 1
        case pos =>
          -- Nothing is left behind the bytes that are there.
          rw [if_pos short, if_pos (same.mp short), missing short]
          simp
          omega
        case neg =>
          have count : Opcode.length opcode - 1 = behind.length := by omega
          rw [if_neg short, if_neg (mt same.mpr short), count, read?_of_holds others]
          simp
          omega

/-! ## A whole run -/

theorem sweeps_decode {memory : Memory} {address : Nat} {bytes : List UInt8}
    (holds : memory.Holds address bytes) :
    memory.Sweeps (address + bytes.length) address (decode address bytes) := by
  induction address, bytes using decode_induction with
  | nil address =>
    rw [decode_nil]
    exact .done (Nat.le_refl _)
  | cons address opcode behind rest within missing ih =>
    have stop : address + (opcode :: (behind ++ rest)).length
        = address + 1 + behind.length + rest.length := by
      simp only [List.length_cons, List.length_append]
      omega
    have fetched := fetch?_of_holds within missing holds
    have others : memory.Holds (address + 1 + behind.length) rest := (holds_append.mp holds.2).2
    rw [decode_append within missing]
    refine .step ?_ fetched ?_
    · simp only [List.length_cons]
      omega
    · rw [stop]
      exact ih others

theorem Sweeps.unique {memory : Memory} {stop address : Nat} {is js : List Instruction}
    (left : memory.Sweeps stop address is) (right : memory.Sweeps stop address js) : is = js := by
  induction left generalizing js with
  | done ended =>
    cases right with
    | done _ => rfl
    | step inside _ _ => omega
  | step inside fetched _ ih =>
    cases right with
    | done ended => omega
    | step _ fetched' others =>
      rw [fetched] at fetched'
      obtain ⟨rfl, rfl⟩ := Prod.mk.inj (Option.some.inj fetched')
      rw [ih others]

/-- The machine comes to the end in one way only, and what it reads is what is decoded. -/
theorem sweeps_iff_of_holds {memory : Memory} {address : Nat} {bytes : List UInt8}
    (holds : memory.Holds address bytes) (is : List Instruction) :
    memory.Sweeps (address + bytes.length) address is ↔ is = decode address bytes := by
  constructor
  · intro sweeps
    exact sweeps.unique (sweeps_decode holds)
  · rintro rfl
    exact sweeps_decode holds

end LinearSweep.Memory
