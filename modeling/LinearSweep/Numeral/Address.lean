import LinearSweep.Numeral.Literal
import LinearSweep.Text.Raw

/-!
# Address literals

Addresses and offsets are typed as `0x` or `$` hexadecimal or as decimal literals, with blanks
around them.  Which of the three is decided by how the text begins once the blanks are removed.
-/

namespace LinearSweep.Numeral.Address

def read (text : List Char) : Except NumeralError Int :=
  match Text.trim text with
  | '$' :: digits => Literal.read 16 digits
  | '0' :: 'x' :: digits => Literal.read 16 ('0' :: 'x' :: digits)
  | '0' :: 'X' :: digits => Literal.read 16 ('0' :: 'X' :: digits)
  | literal => Literal.read 10 literal

/-- The address that a raw text stands for, if it is text and can be read. -/
def ofRaw? (raw : RawText) : Option Int :=
  raw.chars?.bind fun text => (read text).toOption

@[simp] theorem ofRaw?_ofString (text : String) : ofRaw? text = (read text.toList).toOption := by
  rw [ofRaw?, RawText.chars?_ofString, Option.bind_some]

end LinearSweep.Numeral.Address
