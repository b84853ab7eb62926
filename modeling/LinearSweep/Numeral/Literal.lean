import LinearSweep.Numeral.Digit
import LinearSweep.Numeral.Error
import LinearSweep.Text.Blank
import LinearSweep.Text.DecimalDigit

/-!
# Integer literals

A literal of a base, as a person may type it: blanks around it, one sign, and digits of any script
with single underscores between them.  In base sixteen a mark, `0x` or `0X`, may stand in front of
the digits, and an underscore may follow the mark.

Characters beyond ASCII are first replaced by what they stand for, so that the rest of the reading
is about ASCII alone.  Of several faults, a misplaced underscore is reported before too many digits,
and too many digits before anything that follows them.
-/

namespace LinearSweep.Numeral.Literal

/-- The ASCII character that a character stands for in a literal, if there is one. -/
def plain (c : Char) : Char :=
  if c.toNat < 0x80 then c
  else if Text.isBlank c then ' '
  else ((Text.decimalDigit? c).map Nat.digitChar).getD c

def isSpace (c : Char) : Bool :=
  c = ' ' || 0x09 ≤ c.toNat && c.toNat ≤ 0x0D

/-- Whether there is a minus sign in front, and what follows the sign. -/
def sign : List Char → Bool × List Char
  | '-' :: rest => (true, rest)
  | '+' :: rest => (false, rest)
  | text => (false, text)

def skipMark : List Char → List Char
  | '0' :: 'x' :: '_' :: rest | '0' :: 'X' :: '_' :: rest => rest
  | '0' :: 'x' :: rest | '0' :: 'X' :: rest => rest
  | text => text

def isNumeralChar (base : Nat) (c : Char) : Bool :=
  isDigitOf base c || c == '_'

def groups (base : Nat) (text : List Char) : List (List Char) :=
  (text.takeWhile (isNumeralChar base)).splitOnP (· == '_')

def read (base : Nat) (text : List Char) : Except NumeralError Int :=
  let (negative, unsigned) := sign ((text.map plain).dropWhile isSpace)
  let body := if base = 16 then skipMark unsigned else unsigned
  let groups := groups base body
  let digits := groups.flatten
  if groups.any List.isEmpty then
    .error (.malformed base text)
  else if base = 10 ∧ maxDigits < digits.length then
    .error (.tooManyDigits digits.length)
  else if (body.dropWhile (isNumeralChar base)).all isSpace then
    .ok (if negative then -(valueOf base digits : Int) else valueOf base digits)
  else
    .error (.malformed base text)

end LinearSweep.Numeral.Literal
