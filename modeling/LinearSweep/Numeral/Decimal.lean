import LinearSweep.Numeral.Error

/-!
# Decimal numerals

A number is written in decimal if it has at most `maxDigits` digits.
-/

namespace LinearSweep.Numeral

/-- The least number with more than `maxDigits` digits. -/
def decimalBound : Nat := Nat.pow 10 maxDigits

def decimal (n : Int) : Except NumeralError String :=
  if n.natAbs < decimalBound then .ok (toString n) else .error .tooLong

theorem decimal_eq_ok_iff {n : Int} {text : String} :
    decimal n = .ok text ↔ n.natAbs < decimalBound ∧ toString n = text := by
  unfold decimal
  split <;> simp [*]

end LinearSweep.Numeral
