/-!
# Blank characters

The characters that count as white space in any script: the ASCII controls from tab to carriage
return and from file separator to unit separator, the space, and the spaces and line marks beyond
ASCII.  `trim` removes them from both ends of a text.
-/

namespace LinearSweep.Text

/-- Both ends of a range are included. -/
def blankRanges : List (Nat × Nat) :=
  [(0x09, 0x0D), (0x1C, 0x20), (0x85, 0x85), (0xA0, 0xA0), (0x1680, 0x1680), (0x2000, 0x200A),
   (0x2028, 0x2029), (0x202F, 0x202F), (0x205F, 0x205F), (0x3000, 0x3000)]

def isBlank (c : Char) : Bool :=
  blankRanges.any fun range => range.1 ≤ c.toNat && c.toNat ≤ range.2

def trim (text : List Char) : List Char :=
  ((text.dropWhile isBlank).reverse.dropWhile isBlank).reverse

@[simp] theorem trim_nil : trim [] = [] := rfl

end LinearSweep.Text
