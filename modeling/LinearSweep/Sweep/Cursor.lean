import LinearSweep.Instruction
import LinearSweep.Sweep.Span

/-!
# Cursors

A cursor sweeps over a span of an image.  Each pull reads the instruction at the cursor and moves
behind it, so the cursor only moves forward and stops at the end of the span.  A cursor holds the
bytes that it has not read yet and no others: nothing outside the span can influence it.
-/

namespace LinearSweep

/-- A position in a span, with the bytes from there to the end of the span. -/
structure Cursor where
  start : Nat
  /-- The offset of the next instruction. -/
  offset : Nat
  rest : List UInt8
  start_le_offset : start ≤ offset := by omega
  deriving DecidableEq

namespace Cursor

def ofSpan (span : Span) (image : List UInt8) : Cursor :=
  { start := span.start, offset := span.start, rest := span.slice image }

/-- A cursor at the start of the span of an image between two integers. -/
def ofImage (image : List UInt8) (start : Int) (stop : Option Int) : Cursor :=
  ofSpan (Span.clamp image.length start stop) image

def bytesLeft (c : Cursor) : Nat :=
  c.rest.length

def stop (c : Cursor) : Nat :=
  c.offset + c.bytesLeft

/-- A cursor is at the end once all bytes of its span have been read. -/
def atEnd (c : Cursor) : Bool :=
  c.rest.isEmpty

/-! ## Pulling instructions -/

/-- The instruction at the cursor, and the cursor behind it; nothing if the cursor is at the end. -/
def next? (c : Cursor) : Option (Instruction × Cursor) :=
  match c.rest with
  | [] => none
  | opcode :: rest =>
    let behind := rest.take (Opcode.length opcode - 1)
    some (Instruction.ofBytes c.offset opcode behind,
      { start := c.start
        offset := c.offset + 1 + behind.length
        rest := rest.drop behind.length
        start_le_offset := Nat.le_add_right_of_le (Nat.le_add_right_of_le c.start_le_offset) })

/-- Pulls at most `count` instructions and puts them behind those in `done`. -/
def takeOnto (done : Array Instruction) : Nat → Cursor → Array Instruction × Cursor
  | 0, c => (done, c)
  | count + 1, c =>
    match c.next? with
    | none => (done, c)
    | some (instruction, c) => takeOnto (done.push instruction) count c

/-- Pulls at most `count` instructions: those pulled, in order, and the cursor behind them. -/
def take (count : Nat) (c : Cursor) : List Instruction × Cursor :=
  let (done, c) := takeOnto #[] count c
  (done.toList, c)

def drain (c : Cursor) : List Instruction × Cursor :=
  -- Each takes up a byte at least, so there are no more of them than bytes.
  c.take c.bytesLeft

def instructions (c : Cursor) : List Instruction :=
  c.drain.1

/-! ## Equations -/

theorem next?_eq_none_iff {c : Cursor} : c.next? = none ↔ c.atEnd = true := by
  unfold next? atEnd
  cases c.rest <;> simp

/-- The cursor behind an instruction has read exactly the bytes that the instruction takes up. -/
theorem bytesLeft_of_next? {c d : Cursor} {i : Instruction} (h : c.next? = some (i, d)) :
    (c.bytesLeft : Int) = i.size + d.bytesLeft := by
  unfold next? at h
  cases hrest : c.rest with
  | nil => simp [hrest] at h
  | cons opcode rest =>
    simp only [hrest, Option.some.injEq, Prod.mk.injEq] at h
    obtain ⟨rfl, rfl⟩ := h
    simp only [bytesLeft, hrest, List.length_cons, List.length_drop, List.length_take,
      Instruction.size_ofBytes]
    omega

theorem offset_of_next? {c d : Cursor} {i : Instruction} (h : c.next? = some (i, d)) :
    (d.offset : Int) = c.offset + i.size := by
  unfold next? at h
  cases hrest : c.rest with
  | nil => simp [hrest] at h
  | cons opcode rest =>
    simp only [hrest, Option.some.injEq, Prod.mk.injEq] at h
    obtain ⟨rfl, rfl⟩ := h
    simp only [Instruction.size_ofBytes, List.length_take]
    omega

theorem stop_of_next? {c d : Cursor} {i : Instruction} (h : c.next? = some (i, d)) :
    d.stop = c.stop := by
  have := bytesLeft_of_next? h
  have := offset_of_next? h
  simp only [stop]
  omega

theorem takeOnto_eq (done : Array Instruction) (count : Nat) (c : Cursor) :
    takeOnto done count c = (done ++ (takeOnto #[] count c).1, (takeOnto #[] count c).2) := by
  induction count generalizing done c with
  | zero => simp [takeOnto]
  | succ count ih =>
    simp only [takeOnto]
    split
    · simp
    · rename_i i d _
      rw [ih (done.push i) d, ih (#[].push i) d]
      simp

@[simp] theorem take_zero {c : Cursor} : c.take 0 = ([], c) := rfl

theorem take_of_next?_eq_none {c : Cursor} (count : Nat) (h : c.next? = none) :
    c.take count = ([], c) := by
  cases count with
  | zero => rfl
  | succ count => simp [take, takeOnto, h]

theorem take_succ_of_next? {c d : Cursor} {i : Instruction} (count : Nat)
    (h : c.next? = some (i, d)) :
    c.take (count + 1) = (i :: (d.take count).1, (d.take count).2) := by
  simp only [take, takeOnto, h]
  rw [takeOnto_eq]
  simp

end Cursor

end LinearSweep
