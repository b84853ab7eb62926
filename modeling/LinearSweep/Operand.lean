import LinearSweep.Numeral.Hex
import LinearSweep.Opcode.Mode

/-!
# Operands

The value of an operand is stored with its low byte first and written as a hexadecimal numeral of
two digits a byte, inside the template of its addressing mode.
-/

namespace LinearSweep.Operand

def value : List UInt8 → Nat
  | [] => 0
  | [low] => low.toNat
  | low :: high :: _ => low.toNat + 256 * high.toNat

def illegalText : String := "???"

def truncatedText : String := "END"

def text (mode : Mode) (value : Int) : String :=
  match mode.template? with
  | some (before, after) =>
    before ++ String.ofList (Numeral.hex (2 * mode.operandSize) value) ++ after
  | none =>
    match mode with
    | .accumulator => "A"
    | .illegal => illegalText
    | _ => ""

end LinearSweep.Operand
