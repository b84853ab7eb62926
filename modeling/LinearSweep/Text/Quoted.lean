import LinearSweep.Text.Printable

/-!
# Quoted text

A text quoted in a message stands between apostrophes, or between double quotes if it holds an
apostrophe and no double quote.  Inside, the mark in use and the backslash follow a backslash, the
common controls have a letter, and any other character that is not printable is given by its code
point in two, four or eight hexadecimal digits.
-/

namespace LinearSweep.Text

def apostrophe : Char := '\x27'

def doubleQuote : Char := '\x22'

def backslash : Char := '\x5c'

def quoteMark (text : List Char) : Char :=
  if apostrophe ∈ text ∧ doubleQuote ∉ text then doubleQuote else apostrophe

/-- A code point by its number, in lower-case hexadecimal digits. -/
def codePoint (n : Nat) : List Char :=
  let digits := Nat.toDigits 16 n
  if n < 0x100 then backslash :: 'x' :: digits.leftpad 2 '0'
  else if n < 0x10000 then backslash :: 'u' :: digits.leftpad 4 '0'
  else backslash :: 'U' :: digits.leftpad 8 '0'

/-- A character as it stands in a quoted text enclosed by `mark`. -/
def quoteChar (mark c : Char) : List Char :=
  if c = mark ∨ c = backslash then [backslash, c]
  else if c = '\n' then [backslash, 'n']
  else if c = '\r' then [backslash, 'r']
  else if c = '\t' then [backslash, 't']
  else if isPrintable c then [c]
  else codePoint c.toNat

def quote (text : List Char) : List Char :=
  let mark := quoteMark text
  mark :: text.flatMap (quoteChar mark) ++ [mark]

def quoted (text : String) : String :=
  String.ofList (quote text.toList)

end LinearSweep.Text
