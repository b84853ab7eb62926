import LinearSweep.Proofs.Ranges
import LinearSweep.Sweep.Listing

/-!
# Ranges on their own

A sweep sees the bytes of its range and nothing else of the image.  The range can be cut out and
swept on its own: `decode_moved` says that the instructions are the same, except that their offsets
count from elsewhere.  A listing shows addresses of sixteen bits, so moving the image by whole
address spaces does not show either.
-/

namespace LinearSweep

/-- An instruction at another place, a distance behind its own. -/
def Instruction.moved (distance : Int) (i : Instruction) : Instruction :=
  { i with offset := i.offset + distance }

namespace Instruction

theorem moved_ofBytes {offset distance : Nat} {opcode : UInt8} {behind : List UInt8} :
    (ofBytes offset opcode behind).moved distance = ofBytes (offset + distance) opcode behind := by
  cases known : Opcode.meaning? opcode with
  | none => simp [ofBytes, moved, known]
  | some meaning =>
    simp only [ofBytes, moved, known, Int.natCast_add]
    repeat' split
    all_goals rfl

/-- Whether an instruction or the image that it is in is moved does not show. -/
theorem line_moved {base distance : Int} {showBytes : Bool} {i : Instruction} :
    (i.moved distance).line base showBytes = i.line (base + distance) showBytes := by
  have place : base + (i.offset + distance) = base + distance + i.offset := by omega
  have address : (i.moved distance).addressText base = i.addressText (base + distance) := by
    rw [addressText, addressText, moved, place]
  rw [line, line, address]
  rfl

/-- An image that is moved by whole address spaces is listed at the same addresses. -/
theorem line_wrapped {base wraps : Int} {showBytes : Bool} {i : Instruction} :
    i.line (base + 0x10000 * wraps) showBytes = i.line base showBytes := by
  have address : i.addressText (base + 0x10000 * wraps) = i.addressText base := by
    have same : (base + 0x10000 * wraps + i.offset) % Numeral.addressSpace =
        (base + i.offset) % Numeral.addressSpace := by
      rw [Numeral.addressSpace]
      omega
    rw [addressText, addressText, Numeral.hexAddress, Numeral.hexAddress, same]
  rw [line, line, address]

end Instruction

theorem decode_moved (distance offset : Nat) (bytes : List UInt8) :
    decode (offset + distance) bytes = (decode offset bytes).map (Instruction.moved distance) := by
  induction offset, bytes using decode_induction with
  | nil offset => simp
  | cons offset opcode behind rest within missing ih =>
    have next : offset + distance + 1 + behind.length = offset + 1 + behind.length + distance := by
      omega
    rw [decode_append within missing, decode_append within missing, List.map_cons,
      Instruction.moved_ofBytes, next, ih]

/-! ## Slices of an image -/

namespace Span

/-- The range between two offsets is the slice between them, which is empty if they are not in
order. -/
theorem slice_clamp (image : List UInt8) (start stop : Nat) :
    (image.take (clamp image.length start (some stop)).stop).drop
        (clamp image.length start (some stop)).start =
      (image.take stop).drop start := by
  apply List.ext_getElem?
  intro k
  simp only [clamp, Option.map_some, Option.getD_some, Int.toNat_natCast, List.getElem?_drop,
    List.getElem?_take]
  by_cases within : start + k < image.length
  · have start' : min start image.length = start := by omega
    have stop' : start + k < max (min stop image.length) start ↔ start + k < stop := by omega
    simp only [start', stop']
  · -- Behind the image there is nothing to be found on either side.
    rw [List.getElem?_eq_none (i := start + k) (by omega), ite_self]
    split
    · exact List.getElem?_eq_none (by omega)
    · rfl

theorem slice_congr {image other : List UInt8} {start stop : Nat}
    (same : ∀ k, start ≤ k → k < stop → other[k]? = image[k]?) :
    (other.take stop).drop start = (image.take stop).drop start := by
  apply List.ext_getElem?
  intro k
  rw [List.getElem?_drop, List.getElem?_drop, List.getElem?_take, List.getElem?_take]
  by_cases inside : start + k < stop
  · rw [if_pos inside, if_pos inside]
    exact same _ (Nat.le_add_right _ _) inside
  · rw [if_neg inside, if_neg inside]

end Span

namespace Cursor

theorem instructions_ofImage_eq (image : List UInt8) (start : Int) (stop : Option Int) :
    (ofImage image start stop).instructions =
      decode (ofImage image start stop).start
        ((image.take (ofImage image start stop).stop).drop (ofImage image start stop).start) := by
  rw [stop_ofImage]
  exact instructions_ofImage image start stop

theorem instructions_ofImage_whole (image : List UInt8) :
    (ofImage image 0 none).instructions = decode 0 image := by
  rw [instructions_eq_decode]
  simp [ofImage, ofSpan, Span.clamp, Span.slice]

end Cursor

/-- A sweep is that of its range on its own, with offsets that count from the start of the range, so
it is the same whatever lies outside.  The listings differ by the address of the start, and not even
that much if the images are loaded accordingly. -/
theorem sweep_of_range_alone (image : List UInt8) (start : Int) (stop : Option Int) :
    let cursor := Cursor.ofImage image start stop
    let range := (image.take cursor.stop).drop cursor.start
    let alone := Cursor.ofImage range 0 none
    (cursor.start ≤ cursor.stop ∧ cursor.stop ≤ image.length) ∧
      (∀ first last : Nat, start = first → stop = some (last : Int) →
        range = (image.take last).drop first ∧ (last < first → range = [])) ∧
      cursor.instructions = alone.instructions.map (Instruction.moved cursor.start) ∧
      (∀ (other : List UInt8) (first : Int) (last : Option Int),
        let elsewhere := Cursor.ofImage other first last
        elsewhere.start = cursor.start → elsewhere.stop = cursor.stop →
          (∀ k, cursor.start ≤ k → k < cursor.stop → other[k]? = image[k]?) →
          elsewhere.instructions = cursor.instructions) ∧
      ∀ (base wraps : Int) (showBytes marksEnd : Bool),
        cursor.listing { base, showBytes, marksEnd } =
          alone.listing { base := base + cursor.start + 0x10000 * wraps, showBytes, marksEnd } := by
  intro cursor range alone
  have place : cursor.stop = (Span.clamp image.length start stop).stop :=
    Cursor.stop_ofImage image start stop
  have moved : cursor.instructions = alone.instructions.map (Instruction.moved cursor.start) := by
    rw [Cursor.instructions_ofImage_whole, ← decode_moved, Nat.zero_add]
    exact Cursor.instructions_ofImage_eq image start stop
  refine ⟨⟨Nat.le_add_right _ _, ?_⟩, ?_, moved, ?_, ?_⟩
  · rw [place]
    exact Span.stop_clamp_le
  · rintro first last rfl rfl
    have slice : range = (image.take last).drop first := by
      simp only [range, place]
      exact Span.slice_clamp image first last
    refine ⟨slice, fun crossed => ?_⟩
    rw [slice, List.drop_eq_nil_iff, List.length_take]
    omega
  · intro other first last elsewhere sameStart sameStop same
    have others := Cursor.instructions_ofImage_eq other first last
    change elsewhere.instructions = decode elsewhere.start _ at others
    rw [sameStart, sameStop, Span.slice_congr same] at others
    rw [others]
    exact (Cursor.instructions_ofImage_eq image start stop).symm
  · intro base wraps showBytes marksEnd
    have lines : (cursor.instructions.map fun i => i.line base showBytes) =
        alone.instructions.map fun i =>
          i.line (base + cursor.start + 0x10000 * wraps) showBytes := by
      rw [moved, List.map_map]
      apply List.map_congr_left
      intro i _
      rw [Function.comp_apply, Instruction.line_moved, Instruction.line_wrapped]
    simp only [Cursor.listing, Listing.render, Listing.lines]
    rw [lines]

end LinearSweep
