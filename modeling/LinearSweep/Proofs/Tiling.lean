import LinearSweep.Proofs.Fetching
import LinearSweep.Proofs.Ranges

/-!
# Sweeps tile their range

The instructions of a range lie side by side from its start to its end, and show its bytes.  Only
the last one can be truncated, and the bytes that are not shown are then those behind its opcode.
Each part is an induction along the sweep; `sweep_tiles_range` puts them together, and adds that a
machine that must not read outside of the range reads exactly these instructions.
-/

namespace LinearSweep

/-- Instructions lie side by side from one offset to another. -/
def SideBySide : Int → List Instruction → Int → Prop
  | start, [], stop => start = stop
  | start, i :: is, stop => i.offset = start ∧ SideBySide (start + i.size) is stop

/-- The last instruction is truncated and hides a byte besides its opcode. -/
def HidesByte (is : List Instruction) : Prop :=
  ∃ i ∈ is.getLast?, i.status = .truncated ∧ i.size = 2

instance (is : List Instruction) : Decidable (HidesByte is) :=
  inferInstanceAs (Decidable (∃ i ∈ is.getLast?, i.status = .truncated ∧ i.size = 2))

/-- Instructions cover a span of an image and show its bytes. -/
structure CoversSpan (image : List UInt8) (span : Span) (is : List Instruction) : Prop where
  /-- They lie side by side from the start of the span to its end. -/
  sideBySide : SideBySide span.start is span.stop
  /-- They have the sizes of instructions. -/
  sizes : ∀ i ∈ is, 1 ≤ i.size ∧ i.size ≤ 3
  /-- There are at least as many as instructions of three bytes would be. -/
  enough : (span.stop - span.start + 2) / 3 ≤ is.length
  /-- There are at most as many as bytes. -/
  notTooMany : is.length ≤ span.stop - span.start
  /-- No instruction follows a truncated one. -/
  truncatedLast : ∀ before i behind,
    is = before ++ i :: behind → i.status = .truncated → behind = []
  /-- A truncated instruction shows its opcode, any other the bytes of the image at its offset. -/
  shown : ∀ i ∈ is, ∃ opcode,
    image[i.offset.toNat]? = some opcode ∧ i.opcode = opcode.toNat ∧
      i.bytes =
        if i.status = .truncated then [opcode] else (image.drop i.offset.toNat).take i.size.toNat
  /-- Together they show all bytes of the span, unless the last one hides a byte. -/
  allShown : ¬ HidesByte is → is.flatMap Instruction.bytes = (image.take span.stop).drop span.start
  /-- A hidden byte is the last one of the span. -/
  lastHidden : HidesByte is →
    is.flatMap Instruction.bytes = (image.take (span.stop - 1)).drop span.start

/-! ## Places and sizes -/

theorem sideBySide_decode (offset : Nat) (bytes : List UInt8) :
    SideBySide offset (decode offset bytes) (offset + bytes.length : Nat) := by
  induction offset, bytes using decode_induction with
  | nil offset => simp [SideBySide]
  | cons offset opcode behind rest within missing ih =>
    rw [decode_append within missing]
    refine ⟨Instruction.offset_ofBytes, ?_⟩
    have next : (offset : Int) + (Instruction.ofBytes offset opcode behind).size
        = (offset + 1 + behind.length : Nat) := by
      rw [Instruction.size_ofBytes]
      omega
    have stop : offset + (opcode :: (behind ++ rest)).length
        = offset + 1 + behind.length + rest.length := by
      simp only [List.length_cons, List.length_append]
      omega
    rw [next, stop]
    exact ih

theorem size_of_mem_decode {offset : Nat} {bytes : List UInt8} {i : Instruction}
    (member : i ∈ decode offset bytes) : 1 ≤ i.size ∧ i.size ≤ 3 := by
  obtain ⟨place, opcode, behind, rfl, within⟩ := ofBytes_of_mem_decode member
  have bound := Opcode.length_le_three opcode
  rw [Instruction.size_ofBytes]
  omega

/-- Sizes between one and three bound the number of instructions on both sides. -/
theorem SideBySide.length_bounds {start stop : Int} {is : List Instruction}
    (tiles : SideBySide start is stop) (sizes : ∀ i ∈ is, 1 ≤ i.size ∧ i.size ≤ 3) :
    (is.length : Int) ≤ stop - start ∧ stop - start ≤ 3 * is.length := by
  induction is generalizing start with
  | nil =>
    have same : start = stop := tiles
    simp [same]
  | cons i is ih =>
    obtain ⟨-, others⟩ := tiles
    obtain ⟨lower, upper⟩ := sizes i (by simp)
    obtain ⟨few, many⟩ := ih others (fun j member => sizes j (by simp [member]))
    simp only [List.length_cons]
    omega

theorem sideBySide_append {start stop : Int} {is js : List Instruction} :
    SideBySide start (is ++ js) stop ↔
      ∃ middle, SideBySide start is middle ∧ SideBySide middle js stop := by
  induction is generalizing start with
  | nil => simp [SideBySide]
  | cons i is ih => simp [SideBySide, ih, and_assoc]

theorem SideBySide.bounds_of_mem {start stop : Int} {is : List Instruction}
    (tiles : SideBySide start is stop) (sizes : ∀ i ∈ is, 1 ≤ i.size ∧ i.size ≤ 3)
    {i : Instruction} (member : i ∈ is) : start ≤ i.offset ∧ i.offset + i.size ≤ stop := by
  induction is generalizing start with
  | nil => cases member
  | cons first is ih =>
    obtain ⟨place, others⟩ := tiles
    have bound := sizes first (by simp)
    have tail : ∀ j ∈ is, 1 ≤ j.size ∧ j.size ≤ 3 := fun j inside => sizes j (by simp [inside])
    have reach := (others.length_bounds tail).1
    cases List.mem_cons.mp member with
    | inl same =>
      subst same
      omega
    | inr inside =>
      have := ih others tail inside
      omega

/-- Instructions that lie side by side do not overlap. -/
theorem SideBySide.apart {start stop : Int} {before behind : List Instruction}
    {x i : Instruction} (tiles : SideBySide start (before ++ x :: behind) stop)
    (sizes : ∀ i ∈ before ++ x :: behind, 1 ≤ i.size ∧ i.size ≤ 3)
    (member : i ∈ before ++ x :: behind) :
    i.offset + i.size ≤ x.offset ∨ i = x ∨ x.offset + x.size ≤ i.offset := by
  obtain ⟨middle, left, place, right⟩ := sideBySide_append.mp tiles
  rw [List.mem_append, List.mem_cons] at member
  rcases member with earlier | same | later
  · left
    rw [place]
    exact (left.bounds_of_mem (fun j inside => sizes j (by simp [inside])) earlier).2
  · right; left
    exact same
  · right; right
    rw [place]
    exact (right.bounds_of_mem (fun j inside => sizes j (by simp [inside])) later).1

/-! ## Truncated instructions -/

/-- A truncated instruction takes all that is left, so nothing can follow it. -/
theorem truncated_last_of_decode {offset : Nat} {bytes : List UInt8}
    {before behind : List Instruction} {i : Instruction}
    (split : decode offset bytes = before ++ i :: behind) (truncated : i.status = .truncated) :
    behind = [] := by
  induction offset, bytes using decode_induction generalizing before with
  | nil offset => simp at split
  | cons offset opcode rest' rest within missing ih =>
    rw [decode_append within missing] at split
    cases before with
    | nil =>
      -- `i` is the first instruction, and the bytes that it lacks are beyond the end.
      obtain ⟨rfl, rfl⟩ := List.cons.inj split
      have short := ((Instruction.status_ofBytes_eq_truncated_iff within).mp truncated).2
      rw [missing short, decode_nil]
    | cons first before =>
      obtain ⟨-, split⟩ := List.cons.inj split
      exact ih split

/-! ## Bytes -/

/-- What an instruction shows, seen from the image.  The range goes on behind the bytes that are
still to be decoded, or the image ends there. -/
theorem shown_of_mem_decode {image : List UInt8} {offset : Nat} {bytes beyond : List UInt8}
    (place : image.drop offset = bytes ++ beyond) {i : Instruction}
    (member : i ∈ decode offset bytes) :
    ∃ opcode, image[i.offset.toNat]? = some opcode ∧ i.opcode = opcode.toNat ∧
      i.bytes = if i.status = .truncated then [opcode]
        else (image.drop i.offset.toNat).take i.size.toNat := by
  induction offset, bytes using decode_induction with
  | nil offset => simp at member
  | cons offset opcode behind rest within missing ih =>
    have split : image.drop offset = (opcode :: behind) ++ (rest ++ beyond) := by
      rw [place]
      simp
    rw [decode_append within missing, List.mem_cons] at member
    cases member with
    | inl first =>
      subst first
      refine ⟨opcode, ?_, Instruction.opcode_ofBytes, ?_⟩
      · rw [Instruction.offset_ofBytes, Int.toNat_natCast, ← List.head?_drop, split]
        rfl
      · have count : (1 + (behind.length : Int)).toNat = (opcode :: behind).length := by
          simp only [List.length_cons]
          omega
        rw [Instruction.bytes_ofBytes within, Instruction.offset_ofBytes, Int.toNat_natCast,
          Instruction.size_ofBytes, count, split, List.take_left]
    | inr later =>
      apply ih _ later
      have next : offset + 1 + behind.length = offset + (opcode :: behind).length := by
        simp only [List.length_cons]
        omega
      rw [next, ← List.drop_drop, split, List.drop_left]

theorem hidesByte_cons {i : Instruction} {is : List Instruction} (others : is ≠ []) :
    HidesByte (i :: is) ↔ HidesByte is := by
  rw [HidesByte, HidesByte, List.getLast?_cons_of_ne_nil others]

/-- The bytes that are shown are all bytes, or all but the last one.  The last byte is missing
exactly if a truncated instruction ends the sweep and is not its opcode alone. -/
theorem flatMap_bytes_decode (offset : Nat) (bytes : List UInt8) :
    (decode offset bytes).flatMap Instruction.bytes =
      if HidesByte (decode offset bytes) then bytes.dropLast else bytes := by
  induction offset, bytes using decode_induction with
  | nil offset => simp
  | cons offset opcode behind rest within missing ih =>
    rw [decode_append within missing, List.flatMap_cons, ih]
    by_cases last : rest = []
    case pos =>
      -- The last instruction hides what it is too short for, which is one byte at most.
      subst last
      have size : (Instruction.ofBytes offset opcode behind).size = 2 ↔ behind.length = 1 := by
        rw [Instruction.size_ofBytes]
        omega
      have bound := Opcode.length_le_three opcode
      simp only [decode_nil, HidesByte, List.getLast?_singleton, List.getLast?_nil, Option.mem_def,
        Option.some.injEq, exists_eq_left', reduceCtorEq, false_and, exists_false, if_false,
        List.append_nil, Instruction.bytes_ofBytes within, size]
      by_cases truncated : (Instruction.ofBytes offset opcode behind).status = .truncated
      · have short := ((Instruction.status_ofBytes_eq_truncated_iff within).mp truncated).2
        match behind with
        | [] => simp [truncated]
        | [hidden] => simp [truncated]
        | _ :: _ :: _ =>
          simp only [List.length_cons] at short
          omega
      · simp [truncated]
    case neg =>
      -- An instruction that others follow is whole and shows all its bytes.
      have full : behind.length = Opcode.length opcode - 1 := by
        have := mt missing last
        omega
      have others : decode (offset + 1 + behind.length) rest ≠ [] := mt decode_eq_nil_iff.mp last
      rw [Instruction.ofBytes_of_full full, List.cons_append]
      simp only [hidesByte_cons others]
      split
      · rw [← List.cons_append, ← List.cons_append, List.dropLast_append_of_ne_nil last]
      · rfl

/-! ## Ranges -/

theorem dropLast_drop_take {image : List UInt8} {start stop : Nat} (inside : start < stop)
    (within : stop ≤ image.length) :
    ((image.take stop).drop start).dropLast = (image.take (stop - 1)).drop start := by
  have length : ((image.take stop).drop start).length = stop - start := by
    rw [List.length_drop, List.length_take, Nat.min_eq_left within]
  rw [List.dropLast_eq_take, length, List.drop_take, List.drop_take, List.take_take]
  congr 1
  omega

theorem coversSpan_decode {image : List UInt8} {span : Span} (within : span.stop ≤ image.length) :
    CoversSpan image span (decode span.start ((image.take span.stop).drop span.start)) := by
  have ordered := span.start_le_stop
  have place : image.drop span.start
      = (image.take span.stop).drop span.start ++ image.drop span.stop := by
    rw [← List.drop_append_of_le_length (by rw [List.length_take]; omega), List.take_append_drop]
  have length : ((image.take span.stop).drop span.start).length = span.stop - span.start := by
    rw [List.length_drop, List.length_take, Nat.min_eq_left within]
  generalize bytes : (image.take span.stop).drop span.start = range at place length ⊢
  have tiles : SideBySide span.start (decode span.start range) span.stop := by
    have whole := sideBySide_decode span.start range
    rwa [length, Nat.add_sub_cancel' ordered] at whole
  obtain ⟨few, many⟩ := tiles.length_bounds fun i => size_of_mem_decode
  have raw := flatMap_bytes_decode span.start range
  constructor
  case sideBySide => exact tiles
  case sizes => exact fun i => size_of_mem_decode
  case enough => omega
  case notTooMany => omega
  case truncatedLast => exact fun before i behind => truncated_last_of_decode
  case shown => exact fun i => shown_of_mem_decode place
  case allShown =>
    intro whole
    rw [raw, if_neg whole]
    exact bytes.symm
  case lastHidden =>
    intro hides
    have inside : span.start < span.stop := by
      obtain ⟨i, last, -, -⟩ := hides
      have present : decode span.start range ≠ [] := by
        intro empty
        rw [empty] at last
        cases last
      have filled := List.length_pos_iff.mpr (mt decode_eq_nil_iff.mpr present)
      omega
    rw [raw, if_pos hides, ← bytes]
    exact dropLast_drop_take inside within

theorem drain_atEnd (c : Cursor) : c.drain.2.atEnd = true := by
  rw [Cursor.atEnd_iff_instructions, Cursor.drain, Cursor.instructions_take]
  exact List.drop_of_length_le c.length_instructions_le

theorem offset_of_atEnd {c : Cursor} (ended : c.atEnd = true) : c.offset = c.stop := by
  rw [Cursor.atEnd, List.isEmpty_iff] at ended
  simp [Cursor.stop, Cursor.bytesLeft, ended]

/-- A sweep comes to the end of its range, and its instructions cover the range.  They are also what
a machine reads that has no memory outside of the range: it never faults, it stops, and it reads
nothing else. -/
theorem sweep_tiles_range (image : List UInt8) (start : Int) (stop : Option Int) :
    let span := Span.clamp image.length start stop
    let cursor := Cursor.ofImage image start stop
    CoversSpan image span cursor.instructions ∧
      cursor.drain.2.atEnd = true ∧ cursor.drain.2.offset = span.stop ∧
      ∀ is, (Memory.ofSpan span image).Sweeps span.stop span.start is ↔
        is = cursor.instructions := by
  intro span cursor
  have within : span.stop ≤ image.length := Span.stop_clamp_le
  have ended := drain_atEnd cursor
  have instructions : cursor.instructions
      = decode span.start ((image.take span.stop).drop span.start) :=
    Cursor.instructions_ofImage image start stop
  refine ⟨?_, ended, ?_, ?_⟩
  -- The instructions tile the range.
  · rw [instructions]
    exact coversSpan_decode within
  -- The sweep ends at the end of the range.
  · rw [offset_of_atEnd ended, Cursor.drain, Cursor.stop_take]
    exact Cursor.stop_ofImage image start stop
  -- The machine has the bytes of the range and reads only them.
  · intro is
    have ordered := span.start_le_stop
    have run := Memory.sweeps_iff_of_holds (Memory.holds_ofSpan within) is
    rw [Span.length_slice within, Nat.add_sub_cancel' ordered, Span.slice_eq] at run
    rw [run, instructions]

end LinearSweep
