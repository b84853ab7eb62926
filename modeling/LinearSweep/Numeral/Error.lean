import LinearSweep.Text.Quoted

/-!
# Faults of numerals

Decimal numerals have at most `maxDigits` digits: a longer one is neither written nor read.  The
bound keeps the conversion between bases, whose cost grows with the square of the length, short.
A numeral to be read may also simply be none.
-/

namespace LinearSweep.Numeral

def maxDigits : Nat := 4300

end LinearSweep.Numeral

namespace LinearSweep

inductive NumeralError where
  | malformed (base : Nat) (text : List Char)
  | tooManyDigits (count : Nat)
  /-- Of a number that is to be written. -/
  | tooLong
  deriving DecidableEq, Repr

namespace NumeralError

def shownLength : Nat := 200

def message : NumeralError → String
  | malformed base text =>
    s!"invalid literal for int() with base {base}: "
      ++ String.ofList ((Text.quote text).take shownLength)
  | tooManyDigits count =>
    s!"Exceeds the limit ({Numeral.maxDigits} digits) for integer string conversion: "
      ++ s!"value has {count} digits; use sys.set_int_max_str_digits() to increase the limit"
  | tooLong =>
    s!"Exceeds the limit ({Numeral.maxDigits} digits) for integer string conversion; "
      ++ "use sys.set_int_max_str_digits() to increase the limit"

end NumeralError

end LinearSweep
