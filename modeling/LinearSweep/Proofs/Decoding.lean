import LinearSweep.Proofs.Reading
import LinearSweep.Sweep.Cursor

/-!
# Decoding bytes

`decode` reads a run of bytes as instructions by recursion on the bytes.  It is what a cursor does
in as many pulls as it takes: `instructions_eq_decode` says that the instructions a cursor has left
are those of its unread bytes, and `fst_take` and `instructions_take` that any number of pulls takes
that many of them from the front.  A property of a sweep is therefore proved by induction on bytes,
and the pulls never have to be taken apart again.
-/

namespace LinearSweep

/-- The instructions that bytes hold, the first of which is at an offset. -/
def decode (offset : Nat) : List UInt8 → List Instruction
  | [] => []
  | opcode :: rest =>
    let behind := rest.take (Opcode.length opcode - 1)
    Instruction.ofBytes offset opcode behind
      :: decode (offset + 1 + behind.length) (rest.drop behind.length)
  termination_by bytes => bytes.length
  decreasing_by
    rw [List.length_drop, List.length_cons]
    omega

@[simp] theorem decode_nil {offset : Nat} : decode offset [] = [] := by
  rw [decode]

/-- The bytes of the first instruction are split off: as many as it asks for, or all there are. -/
theorem decode_append {offset : Nat} {opcode : UInt8} {behind rest : List UInt8}
    (within : behind.length ≤ Opcode.length opcode - 1)
    (missing : behind.length < Opcode.length opcode - 1 → rest = []) :
    decode offset (opcode :: (behind ++ rest)) =
      Instruction.ofBytes offset opcode behind :: decode (offset + 1 + behind.length) rest := by
  have taken : (behind ++ rest).take (Opcode.length opcode - 1) = behind := by
    cases Nat.lt_or_ge behind.length (Opcode.length opcode - 1) with
    | inl short => rw [missing short, List.append_nil, List.take_of_length_le within]
    | inr full => rw [List.take_append_of_le_length full, List.take_of_length_le within]
  rw [decode]
  simp only [taken, List.drop_left]

theorem decode_eq_nil_iff {offset : Nat} {bytes : List UInt8} :
    decode offset bytes = [] ↔ bytes = [] := by
  cases bytes with
  | nil => simp
  | cons opcode rest => simp [decode]

/-- Every instruction takes a byte at least. -/
theorem length_decode_le (offset : Nat) (bytes : List UInt8) :
    (decode offset bytes).length ≤ bytes.length := by
  fun_induction decode offset bytes with
  | case1 => simp
  | case2 offset opcode rest behind ih =>
    rw [List.length_drop] at ih
    simp only [List.length_cons]
    omega

/-! ## Induction along a sweep -/

/-- The bytes behind an opcode that belong to its instruction, and the others.  If there are fewer
than the instruction asks for, none are left over. -/
theorem split_behind (opcode : UInt8) (rest : List UInt8) :
    ∃ behind others, behind = rest.take (Opcode.length opcode - 1) ∧
      others = rest.drop behind.length ∧ behind ++ others = rest ∧
      behind.length ≤ Opcode.length opcode - 1 ∧
      (behind.length < Opcode.length opcode - 1 → others = []) := by
  have length : (rest.take (Opcode.length opcode - 1)).length
      = min (Opcode.length opcode - 1) rest.length := List.length_take
  refine ⟨_, _, rfl, rfl, ?_, by omega, fun short => List.drop_of_length_le (by omega)⟩
  cases Nat.le_total (Opcode.length opcode - 1) rest.length with
  | inl enough => rw [length, Nat.min_eq_left enough, List.take_append_drop]
  | inr few =>
    rw [length, Nat.min_eq_right few, List.drop_length, List.append_nil]
    exact List.take_of_length_le few

/-- Induction along a sweep: a run of bytes is empty, or it is the opcode of its first instruction,
the bytes that belong to it, and a shorter run. -/
theorem decode_induction {motive : Nat → List UInt8 → Prop}
    (nil : ∀ offset, motive offset [])
    (cons : ∀ offset opcode behind rest,
      behind.length ≤ Opcode.length opcode - 1 →
      (behind.length < Opcode.length opcode - 1 → rest = []) →
      motive (offset + 1 + behind.length) rest → motive offset (opcode :: (behind ++ rest)))
    (offset : Nat) (bytes : List UInt8) : motive offset bytes := by
  fun_induction decode offset bytes with
  | case1 offset => exact nil offset
  | case2 offset opcode rest taken ih =>
    obtain ⟨behind, others, rfl, rfl, split, within, missing⟩ := split_behind opcode rest
    have result := cons offset opcode _ _ within missing ih
    rwa [split] at result

/-- Every instruction of a sweep is read from an opcode and no more bytes than it asks for. -/
theorem ofBytes_of_mem_decode {offset : Nat} {bytes : List UInt8} {i : Instruction}
    (member : i ∈ decode offset bytes) :
    ∃ place opcode behind, i = Instruction.ofBytes place opcode behind ∧
      behind.length ≤ Opcode.length opcode - 1 := by
  induction offset, bytes using decode_induction with
  | nil offset => simp at member
  | cons offset opcode behind rest within missing ih =>
    rw [decode_append within missing, List.mem_cons] at member
    cases member with
    | inl first => exact ⟨offset, opcode, behind, first, within⟩
    | inr later => exact ih later

namespace Cursor

/-! ## One pull -/

theorem decode_of_next?_eq_none {c : Cursor} (none : c.next? = none) :
    decode c.offset c.rest = [] := by
  rw [decode_eq_nil_iff, ← List.isEmpty_iff]
  exact next?_eq_none_iff.mp none

/-- A pull reads an opcode and the bytes that belong to it, and moves behind them. -/
theorem next?_cases {c d : Cursor} {i : Instruction} (next : c.next? = some (i, d)) :
    ∃ opcode behind,
      c.rest = opcode :: (behind ++ d.rest) ∧
      behind.length ≤ Opcode.length opcode - 1 ∧
      (behind.length < Opcode.length opcode - 1 → d.rest = []) ∧
      i = Instruction.ofBytes c.offset opcode behind ∧
      d.offset = c.offset + 1 + behind.length ∧ d.start = c.start := by
  unfold next? at next
  cases unread : c.rest with
  | nil => simp [unread] at next
  | cons opcode rest =>
    obtain ⟨behind, others, taken, dropped, split, within, missing⟩ := split_behind opcode rest
    simp only [unread, ← taken, ← dropped, Option.some.injEq, Prod.mk.injEq] at next
    obtain ⟨rfl, rfl⟩ := next
    exact ⟨opcode, behind, by rw [split], within, missing, rfl, rfl, rfl⟩

theorem decode_of_next? {c d : Cursor} {i : Instruction} (next : c.next? = some (i, d)) :
    decode c.offset c.rest = i :: decode d.offset d.rest := by
  obtain ⟨opcode, behind, unread, within, missing, rfl, moved, -⟩ := next?_cases next
  rw [unread, moved, decode_append within missing]

theorem start_of_next? {c d : Cursor} {i : Instruction} (next : c.next? = some (i, d)) :
    d.start = c.start := by
  obtain ⟨opcode, behind, -, -, -, -, -, same⟩ := next?_cases next
  exact same

/-! ## Any number of pulls -/

private theorem fst_take_eq_decode (count : Nat) (c : Cursor) :
    (c.take count).1 = (decode c.offset c.rest).take count := by
  induction count generalizing c with
  | zero => simp
  | succ count ih =>
    cases next : c.next? with
    | none => simp [take_of_next?_eq_none _ next, decode_of_next?_eq_none next]
    | some pulled =>
      obtain ⟨i, d⟩ := pulled
      rw [take_succ_of_next? count next, decode_of_next? next, List.take_succ_cons, ih d]

theorem instructions_eq_decode (c : Cursor) : c.instructions = decode c.offset c.rest := by
  unfold instructions drain
  rw [fst_take_eq_decode]
  exact List.take_of_length_le (length_decode_le _ _)

/-- Pulling takes instructions from the front. -/
theorem fst_take (count : Nat) (c : Cursor) : (c.take count).1 = c.instructions.take count := by
  rw [fst_take_eq_decode, instructions_eq_decode]

/-- Pulling leaves the instructions behind those that were pulled. -/
theorem instructions_take (count : Nat) (c : Cursor) :
    (c.take count).2.instructions = c.instructions.drop count := by
  simp only [instructions_eq_decode]
  induction count generalizing c with
  | zero => simp
  | succ count ih =>
    cases next : c.next? with
    | none => simp [take_of_next?_eq_none _ next, decode_of_next?_eq_none next]
    | some pulled =>
      obtain ⟨i, d⟩ := pulled
      rw [take_succ_of_next? count next, decode_of_next? next, List.drop_succ_cons, ih d]

/-- What every pull keeps, any number of pulls keeps. -/
theorem take_preserves {motive : Cursor → Prop}
    (step : ∀ {c d : Cursor} {i : Instruction}, c.next? = some (i, d) → motive c → motive d)
    (count : Nat) {c : Cursor} (holds : motive c) : motive (c.take count).2 := by
  induction count generalizing c with
  | zero => exact holds
  | succ count ih =>
    cases next : c.next? with
    | none =>
      rw [take_of_next?_eq_none _ next]
      exact holds
    | some pulled =>
      obtain ⟨i, d⟩ := pulled
      rw [take_succ_of_next? count next]
      exact ih (step next holds)

theorem start_take (count : Nat) (c : Cursor) : (c.take count).2.start = c.start :=
  take_preserves (motive := fun d => d.start = c.start)
    (fun next same => (start_of_next? next).trans same) count rfl

theorem stop_take (count : Nat) (c : Cursor) : (c.take count).2.stop = c.stop :=
  take_preserves (motive := fun d => d.stop = c.stop)
    (fun next same => (stop_of_next? next).trans same) count rfl

/-! ## The end -/

theorem atEnd_iff_instructions {c : Cursor} : c.atEnd = true ↔ c.instructions = [] := by
  rw [instructions_eq_decode, decode_eq_nil_iff, atEnd, List.isEmpty_iff]

/-- A cursor that is at the end stays where it is. -/
theorem take_of_atEnd {c : Cursor} (ended : c.atEnd = true) (count : Nat) :
    c.take count = ([], c) :=
  take_of_next?_eq_none count (next?_eq_none_iff.mpr ended)

theorem length_instructions_le (c : Cursor) : c.instructions.length ≤ c.bytesLeft := by
  rw [instructions_eq_decode]
  exact length_decode_le _ _

end Cursor

end LinearSweep
