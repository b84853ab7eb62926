import LinearSweep.Text.Raw

/-!
# Options of the command

What may be given on the command line: switches, which stand alone, and parameters, which take a
value.  Each has a long name, and some have a short one.
-/

namespace LinearSweep.Command

inductive Switch where
  | packed
  | hexDump
  | noBytes
  | noEndMark
  | json
  | verbose
  | version
  | help
  deriving DecidableEq, Repr

inductive Parameter where
  | output
  | address
  | start
  | stop
  | count
  deriving DecidableEq, Repr

inductive Key where
  | switch (switch : Switch)
  | parameter (parameter : Parameter)
  deriving DecidableEq, Repr

def Key.ofLong? : String → Option Key
  | "--output" => some (.parameter .output)
  | "--address" => some (.parameter .address)
  | "--start" => some (.parameter .start)
  | "--end" => some (.parameter .stop)
  | "--count" => some (.parameter .count)
  | "--packed" => some (.switch .packed)
  | "--hex" => some (.switch .hexDump)
  | "--no-bytes" => some (.switch .noBytes)
  | "--no-end-marker" => some (.switch .noEndMark)
  | "--json" => some (.switch .json)
  | "--verbose" => some (.switch .verbose)
  | "--version" => some (.switch .version)
  | "--help" => some (.switch .help)
  | _ => none

/-- The option with a short name, which is a hyphen and one letter. -/
def Key.ofShort? : Char → Option Key
  | 'o' => some (.parameter .output)
  | 'a' => some (.parameter .address)
  | 's' => some (.parameter .start)
  | 'e' => some (.parameter .stop)
  | 'c' => some (.parameter .count)
  | 'v' => some (.switch .verbose)
  | _ => none

/-- What the command line asks for; the address and the offsets are as they were typed. -/
structure Options where
  input : RawText
  output : Option RawText := none
  address : Option RawText := none
  start : Option RawText := none
  stop : Option RawText := none
  count : Option Nat := none
  /-- Whether the image is packed into a list of words. -/
  packed : Bool := false
  hexDump : Bool := false
  noBytes : Bool := false
  noEndMark : Bool := false
  json : Bool := false
  verbose : Bool := false
  deriving DecidableEq, Repr

end LinearSweep.Command
