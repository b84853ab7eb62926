import LinearSweep.Numeral.Decimal

/-!
# Faults of packed images

What can be wrong with a packed image, and how it is reported: a description, the index of the word
it is about, and a hint, on up to two lines.

A report that would need too long a decimal numeral cannot be worded.  The fault is then that of the
numeral.
-/

namespace LinearSweep

/-! ## Reports -/

structure Report where
  detail : String
  /-- The index of the word that is wrong, if there is one. -/
  position : Option Int := none
  hint : Option String := none
  deriving DecidableEq, Repr

def Report.message (report : Report) : Except NumeralError String := do
  let place ←
    match report.position with
    | none => pure ""
    | some position => do
      let index ← Numeral.decimal position
      pure s!"word {index}: "
  -- An empty hint is no hint.
  let hint := match report.hint with
    | none | some "" => ""
    | some hint => "\nhint: " ++ hint
  return "error: " ++ place ++ report.detail ++ hint

namespace WordList

def minWord : Int := -0x80000000

def maxWord : Int := 0x7FFFFFFF

inductive Defect where
  | notAWord (token : List Char) (position : Option Int)
  | outOfRange (value : Int) (position : Nat)
  | notText
  deriving DecidableEq, Repr

def Defect.report : Defect → Except NumeralError Report
  | .notAWord token position =>
    return {
      detail := "invalid word " ++ String.ofList (Text.quote token)
      position
      hint := "use decimal, 0x-prefixed hex or $-prefixed hex" }
  | .outOfRange value position => do
    let number ← Numeral.decimal value
    return {
      detail := s!"value {number} does not fit in a signed 32-bit word"
      position := (position : Int)
      hint := s!"words must be in the range {minWord}..{maxWord}" }
  | .notText =>
    return {
      detail := "input is not a text word list"
      hint := "packed input must be UTF-8 text; omit --packed for raw binary images" }

/-- Why a packed image cannot be read or unpacked. -/
inductive Fault where
  | defect (defect : Defect)
  | numeral (error : NumeralError)
  deriving DecidableEq, Repr

/-- The fault of a defect, or of the numeral that its report cannot do without. -/
def Fault.ofDefect (defect : Defect) : Fault :=
  match defect.report >>= Report.message with
  | .ok _ => .defect defect
  | .error error => .numeral error

end WordList

end LinearSweep
