import LinearSweep.Proofs.Decoding

/-!
# Ranges of an image

The instructions of a range are decoded from its bytes alone, `instructions_ofImage`, and a range
whose bounds lie within the image is the one that is asked for, `instructions_between`.
-/

namespace LinearSweep

namespace Span

theorem slice_eq (span : Span) (image : List UInt8) :
    span.slice image = (image.take span.stop).drop span.start := by
  rw [slice, List.drop_take]

/-- Bounds in order and within the image are not moved. -/
theorem clamp_between {size start stop : Nat} (ordered : start ≤ stop) (within : stop ≤ size) :
    clamp size start (some stop) = ⟨start, stop, ordered⟩ := by
  simp only [clamp, Option.map_some, Option.getD_some, Int.toNat_natCast]
  congr 1 <;> omega

/-- A range that starts again at one of its offsets has the same end. -/
theorem clamp_restart {size offset : Nat} {start : Int} {stop : Option Int}
    (reached : (clamp size start stop).start ≤ offset)
    (inside : offset ≤ (clamp size start stop).stop) :
    clamp size offset stop = ⟨offset, (clamp size start stop).stop, inside⟩ := by
  simp only [clamp] at reached inside ⊢
  congr 1 <;> omega

/-- A range that is not empty keeps its start when the image grows, and its end does not come
closer. -/
theorem clamp_grow {size : Nat} {start : Int} {stop : Option Int} (more : Nat)
    (filled : (clamp size start stop).start < (clamp size start stop).stop) :
    (clamp (size + more) start stop).start = (clamp size start stop).start ∧
      (clamp size start stop).stop ≤ (clamp (size + more) start stop).stop := by
  cases stop with
  | none =>
    simp only [clamp, Option.map_none, Option.getD_none] at filled ⊢
    omega
  | some stop =>
    simp only [clamp, Option.map_some, Option.getD_some] at filled ⊢
    omega

end Span

namespace Cursor

theorem stop_ofSpan {span : Span} {image : List UInt8} (within : span.stop ≤ image.length) :
    (ofSpan span image).stop = span.stop := by
  have ordered := span.start_le_stop
  simp only [stop, ofSpan, bytesLeft, Span.length_slice within]
  omega

theorem stop_ofImage (image : List UInt8) (start : Int) (stop : Option Int) :
    (ofImage image start stop).stop = (Span.clamp image.length start stop).stop :=
  stop_ofSpan Span.stop_clamp_le

theorem instructions_ofSpan (span : Span) (image : List UInt8) :
    (ofSpan span image).instructions =
      decode span.start ((image.take span.stop).drop span.start) := by
  rw [instructions_eq_decode, ← Span.slice_eq]
  rfl

theorem instructions_ofImage (image : List UInt8) (start : Int) (stop : Option Int) :
    (ofImage image start stop).instructions =
      decode (Span.clamp image.length start stop).start
        ((image.take (Span.clamp image.length start stop).stop).drop
          (Span.clamp image.length start stop).start) :=
  instructions_ofSpan _ _

theorem instructions_between {image : List UInt8} {start stop : Nat} (ordered : start ≤ stop)
    (within : stop ≤ image.length) :
    (ofImage image start (some stop)).instructions =
      decode start ((image.take stop).drop start) := by
  rw [instructions_ofImage, Span.clamp_between ordered within]

/-! ## Cursors over an image -/

/-- What a cursor has not read are the bytes of an image from its offset to its end. -/
def Over (image : List UInt8) (c : Cursor) : Prop :=
  c.rest = (image.take c.stop).drop c.offset

theorem over_ofImage (image : List UInt8) (start : Int) (stop : Option Int) :
    (ofImage image start stop).Over image := by
  rw [Over, stop_ofImage]
  exact Span.slice_eq _ _

theorem Over.of_next? {image : List UInt8} {c d : Cursor} {i : Instruction} (holds : c.Over image)
    (next : c.next? = some (i, d)) : d.Over image := by
  obtain ⟨opcode, behind, unread, -, -, -, moved, -⟩ := next?_cases next
  have length : d.offset = c.offset + (opcode :: behind).length := by
    rw [moved, List.length_cons]
    omega
  rw [Over, stop_of_next? next, length, ← List.drop_drop, ← holds, unread, ← List.cons_append,
    List.drop_left]

theorem Over.take {image : List UInt8} {c : Cursor} (holds : c.Over image) (count : Nat) :
    (c.take count).2.Over image :=
  take_preserves (fun next kept => Over.of_next? kept next) count holds

/-- A fresh cursor at the offset that another one has reached has the same instructions left. -/
theorem Over.instructions_restart {image : List UInt8} {start : Int} {stop : Option Int}
    {c : Cursor} (holds : c.Over image)
    (reached : (Span.clamp image.length start stop).start ≤ c.offset)
    (end' : c.stop = (Span.clamp image.length start stop).stop) :
    (ofImage image c.offset stop).instructions = c.instructions := by
  have inside : c.offset ≤ (Span.clamp image.length start stop).stop := by
    rw [← end']
    exact Nat.le_add_right _ _
  rw [instructions_ofImage, Span.clamp_restart reached inside, instructions_eq_decode, holds, end']

end Cursor

end LinearSweep
