import LinearSweep.WordList.Layout

/-!
# Packed images

Each word stands for four bytes of an image, the low byte first; a negative word stands for its
two's complement.
-/

namespace LinearSweep.WordList

def wordSize : Nat := 4

/-- The size in bytes of the image that words stand for. -/
def imageSize (words : List Int) : Nat :=
  wordSize * words.length

/-- A number fits in a word if it has at most 32 bits in two's complement. -/
def fits (word : Int) : Bool :=
  minWord ≤ word && word ≤ maxWord

def wordBytes (word : Int) : List UInt8 :=
  let bits := (word % 0x100000000).toNat
  [UInt8.ofNat bits, UInt8.ofNat (bits / 0x100), UInt8.ofNat (bits / 0x10000),
   UInt8.ofNat (bits / 0x1000000)]

/-- The image that words stand for.  The first number that does not fit makes the unpacking fail. -/
def unpack (words : List Int) : Except Fault (List UInt8) :=
  match words.zipIdx.find? fun (word, _) => !fits word with
  | some (word, i) => .error (.ofDefect (.outOfRange word i))
  | none => .ok (words.flatMap wordBytes)

end LinearSweep.WordList
