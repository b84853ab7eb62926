import LinearSweep.Instruction

/-!
# Records in JSON

A report in JSON is a list of flat records, laid out with two spaces for each level.  A field of a
record is a text, a number or a list of texts.  Texts are written in ASCII: a character beyond it is
given by its code units in UTF-16, and so is a control character without a letter of its own.
-/

namespace LinearSweep.Json

inductive Value where
  | text (text : String)
  | number (number : Int)
  | texts (texts : List String)
  deriving DecidableEq, Repr

abbrev Record := List (String × Value)

/-! ## Strings -/

def unit (n : Nat) : List Char :=
  '\x5c' :: 'u' :: (Nat.toDigits 16 n).leftpad 4 '0'

def escape (c : Char) : List Char :=
  match c with
  | '\x22' => ['\x5c', '\x22']
  | '\x5c' => ['\x5c', '\x5c']
  | '\n' => ['\x5c', 'n']
  | '\r' => ['\x5c', 'r']
  | '\t' => ['\x5c', 't']
  | '\x08' => ['\x5c', 'b']
  | '\x0c' => ['\x5c', 'f']
  | c =>
    let n := c.toNat
    if 0x20 ≤ n ∧ n < 0x7F then [c]
    else if n < 0x10000 then unit n
    else unit (0xD800 + (n - 0x10000) / 0x400) ++ unit (0xDC00 + (n - 0x10000) % 0x400)

def string (text : String) : String :=
  String.ofList ('\x22' :: text.toList.flatMap escape ++ ['\x22'])

/-! ## Layout -/

def newline (level : Nat) : String :=
  "\n" ++ String.ofList (List.replicate (2 * level) ' ')

/-- Items between two brackets, each on a line of its own one level below `level`; without items the
brackets stand together. -/
def enclose (level : Nat) (opening closing : String) (items : List String) : String :=
  if items.isEmpty then opening ++ closing
  else
    opening ++ newline (level + 1) ++ ("," ++ newline (level + 1)).intercalate items
      ++ newline level ++ closing

/-- The value of a field of a record whose fields are at `level`. -/
def value (level : Nat) : Value → String
  | .text text => string text
  | .number number => toString number
  | .texts texts => enclose level "[" "]" (texts.map string)

/-- A record in a list at the outermost level. -/
def record (fields : Record) : String :=
  enclose 1 "\x7b" "\x7d" (fields.map fun (name, content) => string name ++ ": " ++ value 2 content)

def render (records : List Record) : String :=
  enclose 0 "[" "]" (records.map record)

end LinearSweep.Json

namespace LinearSweep.Instruction

/-- The record of an instruction of an image that is loaded at `base`. -/
def record (base : Int) (i : Instruction) : Json.Record :=
  [("address", .text (i.addressText base)),
   ("address_int", .number (i.address base)),
   ("offset", .number i.offset),
   ("opcode", .text ("$" ++ String.ofList (Numeral.hex 2 i.opcode))),
   ("mnemonic", .text i.mnemonic),
   ("mode", .text i.mode.name),
   ("operand", .text i.operand),
   ("text", .text i.text),
   ("size", .number i.size),
   ("bytes", .texts (i.bytes.map fun byte => "$" ++ Numeral.hexByte byte)),
   ("status", .text i.status.name)]

end LinearSweep.Instruction
