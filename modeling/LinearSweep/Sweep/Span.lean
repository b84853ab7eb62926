/-!
# Spans

A span is a range of offsets within an image.  Any two integers give one: they are clamped to the
image, and an end before the start gives the empty span at the start.
-/

namespace LinearSweep

/-- The offsets from `start` up to and without `stop`. -/
structure Span where
  start : Nat
  stop : Nat
  start_le_stop : start ≤ stop := by omega

namespace Span

/-- The span of an image of `size` bytes that lies between two integers; the end of the image stands
for a missing end. -/
def clamp (size : Nat) (start : Int) (stop : Option Int) : Span where
  start := min start.toNat size
  stop := max (min ((stop.map Int.toNat).getD size) size) (min start.toNat size)

def slice (span : Span) (image : List UInt8) : List UInt8 :=
  (image.drop span.start).take (span.stop - span.start)

theorem stop_clamp_le {size : Nat} {start : Int} {stop : Option Int} :
    (clamp size start stop).stop ≤ size := by
  simp only [clamp]
  omega

theorem length_slice {span : Span} {image : List UInt8} (h : span.stop ≤ image.length) :
    (span.slice image).length = span.stop - span.start := by
  simp only [slice, List.length_take, List.length_drop]
  omega

end Span

end LinearSweep
