import LinearSweep.Proofs.Faults
import LinearSweep.Proofs.Packing

/-!
# Images of words

A list of words and the image that it is unpacked to determine each other.  `pack` takes a number
off the four bytes that it is unpacked to, `pack_wordBytes_append`, so packing undoes unpacking as
well as the other way round, and every image made of whole words is that of exactly one list of
numbers.
-/

namespace LinearSweep.WordList

/-! ## One word -/

section

variable {number : Int} {low second third high : UInt8}

@[simp] theorem length_wordBytes (number : Int) : (wordBytes number).length = 4 := rfl

/-- The low bytes of the quotients of a number by powers of `0x100` are its digits in that base. -/
theorem unsigned_ofNat {bits : Nat} (bound : bits < 0x100000000) :
    unsigned (.ofNat bits) (.ofNat (bits / 0x100)) (.ofNat (bits / 0x10000))
      (.ofNat (bits / 0x1000000)) = bits := by
  simp only [unsigned, UInt8.toNat_ofNat']
  omega

/-- Four bytes that hold the two's complement of a word stand for it: the highest bit is set exactly
if the word is negative. -/
theorem wordOf_eq (word : IsWord number)
    (bits : unsigned low second third high = (number % 0x100000000).toNat) :
    wordOf low second third high = number := by
  obtain ⟨lower, upper⟩ := word
  rw [wordOf, bits]
  split <;> omega

/-- The bytes of a word are packed into the word, whatever follows them. -/
theorem pack_wordBytes_append (word : IsWord number) (rest : List UInt8) :
    pack (wordBytes number ++ rest) = number :: pack rest := by
  have bound : (number % 0x100000000).toNat < 0x100000000 := by omega
  exact congrArg (· :: pack rest) (wordOf_eq word (unsigned_ofNat bound))

end

/-! ## Lists of words -/

variable {numbers others : List Int} {image : List UInt8}

theorem length_flatMap_wordBytes (numbers : List Int) :
    (numbers.flatMap wordBytes).length = 4 * numbers.length := by
  induction numbers with
  | nil => rfl
  | cons number numbers ih =>
    rw [List.flatMap_cons, List.length_append, length_wordBytes, ih, List.length_cons]
    omega

theorem pack_flatMap_wordBytes (words : ∀ number ∈ numbers, IsWord number) :
    pack (numbers.flatMap wordBytes) = numbers := by
  induction numbers with
  | nil => rfl
  | cons number numbers ih =>
    rw [List.forall_mem_cons] at words
    rw [List.flatMap_cons, pack_wordBytes_append words.1, ih words.2]

/-- Only words are unpacked, each to its own bytes. -/
theorem unpack_eq_ok_iff :
    unpack numbers = .ok image ↔
      (∀ number ∈ numbers, IsWord number) ∧ image = numbers.flatMap wordBytes := by
  obtain ⟨unpacked, words⟩ | ⟨i, number, place, misfit, -, faulty⟩ := unpack_cases numbers
  · rw [unpacked, Except.ok.injEq, eq_comm]
    exact (and_iff_right words).symm
  · rw [faulty]
    refine iff_of_false (fun same => by cases same) fun both => ?_
    exact misfit (both.1 number (List.mem_of_getElem? place))

/-- What is unpacked can be packed again. -/
theorem pack_of_unpack (unpacked : unpack numbers = .ok image) : pack image = numbers := by
  obtain ⟨words, rfl⟩ := unpack_eq_ok_iff.mp unpacked
  exact pack_flatMap_wordBytes words

/-- Numbers are unpacked piece by piece. -/
theorem unpack_append :
    unpack (numbers ++ others) = .ok image ↔
      ∃ front behind, unpack numbers = .ok front ∧ unpack others = .ok behind ∧
        image = front ++ behind := by
  simp only [unpack_eq_ok_iff, List.forall_mem_append, List.flatMap_append]
  constructor
  · rintro ⟨⟨words, words'⟩, rfl⟩
    exact ⟨_, _, ⟨words, rfl⟩, ⟨words', rfl⟩, rfl⟩
  · rintro ⟨_, _, ⟨words, rfl⟩, ⟨words', rfl⟩, rfl⟩
    exact ⟨⟨words, words'⟩, rfl⟩

/-- Unpacking takes the lists of numbers that fit in 32 bits in two's complement to the images whose
length is a multiple of four, one to one.  Packing takes them back.  The image of two lists, one
behind the other, is made of their images. -/
theorem unpack_bijective :
    (∀ numbers : List Int, (∀ n ∈ numbers, -0x80000000 ≤ n ∧ n ≤ 0x7FFFFFFF) →
      ∃ image, unpack numbers = .ok image ∧ image.length = 4 * numbers.length ∧
        image.length = imageSize numbers ∧ pack image = numbers) ∧
    (∀ image : List UInt8, 4 ∣ image.length →
      (∀ n ∈ pack image, -0x80000000 ≤ n ∧ n ≤ 0x7FFFFFFF) ∧
        ∀ numbers, unpack numbers = .ok image ↔ numbers = pack image) ∧
    ∀ (numbers others : List Int) (image : List UInt8),
      unpack (numbers ++ others) = .ok image ↔
        ∃ front behind, unpack numbers = .ok front ∧ unpack others = .ok behind ∧
          image = front ++ behind := by
  refine ⟨fun numbers words => ?_, fun image whole => ⟨fun n member => ?_, fun numbers => ?_⟩,
    fun _ _ _ => unpack_append⟩
  · have unpacked : unpack numbers = .ok (numbers.flatMap wordBytes) :=
      unpack_eq_ok_iff.mpr ⟨words, rfl⟩
    have length := length_flatMap_wordBytes numbers
    exact ⟨_, unpacked, length, length, pack_of_unpack unpacked⟩
  · exact fits_iff.mp (fits_of_mem_pack member)
  · constructor
    · exact fun unpacked => (pack_of_unpack unpacked).symm
    · rintro rfl
      exact unpack_pack whole

/-- The extreme words, and one of those between them. -/
theorem unpack_extreme_words :
    let numbers : List Int := [-99, -0x80000000, 0x7FFFFFFF]
    let image : List UInt8 :=
      [0x9D, 0xFF, 0xFF, 0xFF, 0x00, 0x00, 0x00, 0x80, 0xFF, 0xFF, 0xFF, 0x7F]
    (∀ n ∈ numbers, -0x80000000 ≤ n ∧ n ≤ 0x7FFFFFFF) ∧ 4 ∣ image.length ∧
      unpack numbers = .ok image ∧ pack image = numbers := by
  intro numbers image
  have words : ∀ n ∈ numbers, -0x80000000 ≤ n ∧ n ≤ 0x7FFFFFFF := by decide
  have whole : 4 ∣ image.length := by decide
  have packed : numbers = pack image := rfl
  exact ⟨words, whole, ((unpack_bijective.2.1 image whole).2 numbers).mpr packed, packed.symm⟩

end LinearSweep.WordList
