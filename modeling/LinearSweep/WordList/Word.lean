import LinearSweep.Numeral.Literal
import LinearSweep.WordList.Fault

/-!
# Words of a word list

A word is written in ASCII: an optional sign, then `0x`, `0X` or `$` and hexadecimal digits, or
decimal digits alone.  Nothing may stand around or between the digits, except for one line feed at
the very end.
-/

namespace LinearSweep.WordList

def dropLineFeed (token : List Char) : List Char :=
  if token.getLast? = some '\n' then token.dropLast else token

/-- The base and the digits of a token without its sign, whatever the digits are. -/
def notation? : List Char → Nat × List Char
  | '$' :: digits => (16, digits)
  | '0' :: 'x' :: digits | '0' :: 'X' :: digits => (16, digits)
  | digits => (10, digits)

def areDigitsOf (base : Nat) (digits : List Char) : Bool :=
  !digits.isEmpty && digits.all (Numeral.isDigitOf base)

/-- Reads a token as a word; `position` is the index that a report names. -/
def readWord (token : List Char) (position : Option Int) : Except Fault Int :=
  let (negative, unsigned) := Numeral.Literal.sign (dropLineFeed token)
  let (base, digits) := notation? unsigned
  if !areDigitsOf base digits then
    .error (.ofDefect (.notAWord token position))
  else if base = 10 ∧ Numeral.maxDigits < digits.length then
    .error (.numeral (.tooManyDigits digits.length))
  else
    -- The number may still be too large for a word.
    let magnitude : Int := Numeral.valueOf base digits
    .ok (if negative then -magnitude else magnitude)

end LinearSweep.WordList
