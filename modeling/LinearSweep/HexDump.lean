import LinearSweep.Numeral.Hex

/-!
# Hex dumps

A hex dump shows bytes in rows of sixteen, between rules, as comment lines of an assembler listing.
Each row has the address of its first byte, the bytes as pairs of hexadecimal digits in a column of
fixed width, and the bytes as characters.
-/

namespace LinearSweep.HexDump

def rowLength : Nat := 16

def pairsWidth : Nat := 48

/-- The bytes in rows; only the last row may be shorter than the others. -/
def rows : List UInt8 → List (List UInt8)
  | [] => []
  | byte :: bytes => (byte :: bytes.take (rowLength - 1)) :: rows (bytes.drop (rowLength - 1))
  termination_by bytes => bytes.length
  decreasing_by
    rw [List.length_drop, List.length_cons]
    omega

/-- The character of a byte in the last column: itself if it is visible ASCII, a dot otherwise. -/
def shown (byte : UInt8) : Char :=
  if 0x20 ≤ byte.toNat ∧ byte.toNat < 0x7F then Char.ofNat byte.toNat else '.'

def rowLine (address : Int) (row : List UInt8) : String :=
  "; " ++ Numeral.hexAddress address ++ ": "
    ++ String.ofList ((Numeral.hexBytes row).toList.rightpad pairsWidth ' ') ++ " "
    ++ String.ofList (row.map shown)

def rule : String :=
  "; " ++ String.ofList (List.replicate 60 '-')

def lines (bytes : List UInt8) (base : Int) : List String :=
  ["; Hex dump:", rule]
    ++ (rows bytes).zipIdx.map (fun (row, i) => rowLine (base + rowLength * i) row)
    ++ [rule, ""]

theorem flatten_rows (bytes : List UInt8) : (rows bytes).flatten = bytes := by
  fun_induction rows bytes with
  | case1 => rfl
  | case2 byte bytes ih => simp [ih, List.take_append_drop]

end LinearSweep.HexDump
