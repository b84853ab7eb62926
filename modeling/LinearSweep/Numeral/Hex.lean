import LinearSweep.Numeral.Digit

/-!
# Hexadecimal numerals

Bytes, addresses and operands are shown as upper-case hexadecimal numerals of a least width.  The
sign of a negative number counts towards the width, and a number too wide is not cut.
-/

namespace LinearSweep.Numeral

def hex (width : Nat) : Int → List Char
  | .ofNat n => (hexDigits n).leftpad width '0'
  | .negSucc n => '-' :: (hexDigits (n + 1)).leftpad (width - 1) '0'

def hexByte (byte : UInt8) : String :=
  String.ofList (hex 2 byte.toNat)

def hexBytes (bytes : List UInt8) : String :=
  " ".intercalate (bytes.map hexByte)

def addressSpace : Int := 0x10000

def hexAddress (address : Int) : String :=
  "$" ++ String.ofList (hex 4 (address % addressSpace))

@[simp] theorem valueOf_hex_ofNat (width n : Nat) : valueOf 16 (hex width n) = n := by
  show valueOf 16 ((hexDigits n).leftpad width '0') = n
  simp [List.leftpad]

end LinearSweep.Numeral
