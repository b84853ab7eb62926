import LinearSweep.WordList.Image

/-!
# Packing images

The words that an image is packed into, one for every four bytes.  They fit, and unpacking them
gives the image back, `unpack_pack`.
-/

namespace LinearSweep.WordList

/-- The number that four bytes stand for, the low byte first. -/
def unsigned (low second third high : UInt8) : Nat :=
  low.toNat + 0x100 * second.toNat + 0x10000 * third.toNat + 0x1000000 * high.toNat

/-- The number that four bytes stand for in two's complement: the highest bit makes it negative. -/
def wordOf (low second third high : UInt8) : Int :=
  if unsigned low second third high < 0x80000000 then unsigned low second third high
  else unsigned low second third high - 0x100000000

/-- The words of an image.  Bytes at its end that do not fill a word have none. -/
def pack : List UInt8 → List Int
  | low :: second :: third :: high :: rest => wordOf low second third high :: pack rest
  | _ => []

section

variable {low second third high : UInt8}

theorem unsigned_lt : unsigned low second third high < 0x100000000 := by
  have := low.toNat_lt
  have := second.toNat_lt
  have := third.toNat_lt
  have := high.toNat_lt
  rw [unsigned]
  omega

theorem fits_wordOf : fits (wordOf low second third high) = true := by
  have bound : unsigned low second third high < 0x100000000 := unsigned_lt
  rw [fits, Bool.and_eq_true, decide_eq_true_eq, decide_eq_true_eq, wordOf, minWord, maxWord]
  split <;> omega

theorem wordBytes_wordOf :
    wordBytes (wordOf low second third high) = [low, second, third, high] := by
  have bound : unsigned low second third high < 0x100000000 := unsigned_lt
  have bits : (wordOf low second third high % 0x100000000).toNat =
      unsigned low second third high := by
    rw [wordOf]
    split <;> omega
  have byte {n : Nat} {b : UInt8} (value : n % 0x100 = b.toNat) : UInt8.ofNat n = b :=
    UInt8.toNat_inj.mp (by simpa using value)
  have := low.toNat_lt
  have := second.toNat_lt
  have := third.toNat_lt
  have := high.toNat_lt
  simp only [wordBytes, bits, unsigned]
  rw [byte (b := low), byte (b := second), byte (b := third), byte (b := high)] <;> omega

end

theorem flatMap_wordBytes_pack {image : List UInt8} (whole : 4 ∣ image.length) :
    (pack image).flatMap wordBytes = image := by
  fun_induction pack image with
  | case1 low second third high rest ih =>
    have others : 4 ∣ rest.length := by
      simp only [List.length_cons] at whole
      omega
    rw [List.flatMap_cons, wordBytes_wordOf, ih others]
    rfl
  | case2 image short =>
    match image, short with
    | [], _ => rfl
    | [_], _ | [_, _], _ | [_, _, _], _ => simp at whole
    | _ :: _ :: _ :: _ :: _, short => exact absurd rfl (short _ _ _ _ _)

theorem fits_of_mem_pack {image : List UInt8} {w : Int} (member : w ∈ pack image) :
    fits w = true := by
  fun_induction pack image with
  | case1 low second third high rest ih =>
    cases List.mem_cons.mp member with
    | inl first => rw [first, fits_wordOf]
    | inr other => exact ih other
  | case2 => cases member

theorem unpack_of_fits {words : List Int} (fit : ∀ w ∈ words, fits w = true) :
    unpack words = .ok (words.flatMap wordBytes) := by
  unfold unpack
  split
  · rename_i word i found
    have fitting := fit word (List.fst_mem_of_mem_zipIdx (List.mem_of_find?_eq_some found))
    have unfitting := List.find?_some found
    simp [fitting] at unfitting
  · rfl

/-- Unpacking the words of an image gives the image back, if it is made of whole words. -/
theorem unpack_pack {image : List UInt8} (whole : 4 ∣ image.length) :
    unpack (pack image) = .ok image := by
  rw [unpack_of_fits fun _ => fits_of_mem_pack, flatMap_wordBytes_pack whole]

end LinearSweep.WordList
