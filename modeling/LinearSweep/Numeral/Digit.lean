/-!
# Digits of a numeral

An ASCII digit or letter has a value below thirty-six, whatever its letter case, and a base accepts
the characters of smaller value.  `valueOf` reads a run of digits, most significant first, and
`hexDigits` writes a number in base sixteen in upper case.

The main statement is `valueOf_hexDigits`: reading what was written gives the number back.
-/

namespace LinearSweep.Numeral

/-- Value of an ASCII digit or letter; thirty-six, no digit of any base, for any other character. -/
def digitValue (c : Char) : Nat :=
  if '0' ≤ c ∧ c ≤ '9' then c.toNat - '0'.toNat
  else if 'A' ≤ c ∧ c ≤ 'Z' then c.toNat - 'A'.toNat + 10
  else if 'a' ≤ c ∧ c ≤ 'z' then c.toNat - 'a'.toNat + 10
  else 36

def isDigitOf (base : Nat) (c : Char) : Bool :=
  digitValue c < base

def valueOf (base : Nat) (digits : List Char) : Nat :=
  digits.foldl (fun total c => base * total + digitValue c) 0

def hexDigits (n : Nat) : List Char :=
  (Nat.toDigits 16 n).map Char.toUpper

/-! ## Reading and writing -/

@[simp] theorem valueOf_nil {base : Nat} : valueOf base [] = 0 := rfl

@[simp] theorem valueOf_concat {base : Nat} {digits : List Char} {c : Char} :
    valueOf base (digits ++ [c]) = base * valueOf base digits + digitValue c := by
  simp [valueOf]

@[simp] theorem valueOf_replicate_append {base n : Nat} {digits : List Char} :
    valueOf base (List.replicate n '0' ++ digits) = valueOf base digits := by
  have zeros : ∀ m, List.foldl (fun total c => base * total + digitValue c) 0
      (List.replicate m '0') = 0 := by
    intro m
    induction m with
    | zero => rfl
    | succ m ih => simpa [List.replicate_succ, digitValue] using ih
  simp [valueOf, zeros]

/-- A value below sixteen is written as a digit of that value. -/
theorem digitValue_toUpper_digitChar :
    ∀ {d : Nat}, d < 16 → digitValue (Nat.digitChar d).toUpper = d := by
  decide

theorem hexDigits_of_lt {n : Nat} (h : n < 16) : hexDigits n = [(Nat.digitChar n).toUpper] := by
  simp [hexDigits, Nat.toDigits_of_lt_base h]

theorem hexDigits_of_le {n : Nat} (h : 16 ≤ n) :
    hexDigits n = hexDigits (n / 16) ++ [(Nat.digitChar (n % 16)).toUpper] := by
  simp [hexDigits, Nat.toDigits_of_base_le (by decide) h]

@[simp] theorem valueOf_hexDigits (n : Nat) : valueOf 16 (hexDigits n) = n := by
  induction n using Nat.strongRecOn with
  | _ n ih =>
    by_cases small : n < 16
    · rw [hexDigits_of_lt small, ← List.nil_append [_], valueOf_concat,
        digitValue_toUpper_digitChar small]
      simp
    · rw [hexDigits_of_le (by omega), valueOf_concat, ih (n / 16) (by omega),
        digitValue_toUpper_digitChar (Nat.mod_lt n (by decide))]
      omega

end LinearSweep.Numeral
