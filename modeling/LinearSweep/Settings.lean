import LinearSweep.Numeral.Address

/-!
# Settings

The defaults of the command, which environment variables may change.  A variable that is set to
something that cannot be read is an error.
-/

namespace LinearSweep

/-- The values of environment variables by name. -/
abbrev Environment := String → Option RawText

/-- How images are read and listed unless options say otherwise. -/
structure Settings where
  /-- The address at which the image is loaded. -/
  base : Int := 0
  showBytes : Bool := true
  marksEnd : Bool := true
  packed : Bool := false
  deriving DecidableEq, Repr

structure SettingFault where
  name : String
  value : RawText
  /-- What the value should have been. -/
  expected : String
  deriving DecidableEq, Repr

def SettingFault.message (fault : SettingFault) : String :=
  s!"error: invalid value {fault.value.quoted} for {fault.name}: expected {fault.expected}"

namespace Settings

def baseVariable : String := "DISASM6502_BASE_ADDRESS"

def bytesVariable : String := "DISASM6502_SHOW_BYTES"

def endVariable : String := "DISASM6502_END_MARKER"

def packedVariable : String := "DISASM6502_PACKED"

def maxBase : Int := 0xFFFF

/-- The truth value that a word stands for, in any letter case and with blanks around it. -/
def truth? (value : RawText) : Option Bool :=
  value.chars?.bind fun text =>
    let word := String.ofList ((Text.trim text).map Char.toLower)
    if word ∈ ["1", "true", "yes", "on"] then some true
    else if word ∈ ["0", "false", "no", "off"] then some false
    else none

/-- Reads a truth value from a variable; `default` is that of a variable that is not set. -/
def readTruth (environment : Environment) (name : String) (default : Bool) :
    Except SettingFault Bool :=
  match environment name with
  | none => .ok default
  | some value =>
    match truth? value with
    | some truth => .ok truth
    | none => .error ⟨name, value, "a boolean (1/0, true/false, yes/no, on/off)"⟩

def readBase (environment : Environment) : Except SettingFault Int :=
  match environment baseVariable with
  -- An empty variable counts as not set.
  | none | some [] => .ok ({} : Settings).base
  | some value =>
    match Numeral.Address.ofRaw? value with
    | none => .error ⟨baseVariable, value, "an address (0x/$ hex or decimal)"⟩
    | some base =>
      if 0 ≤ base ∧ base ≤ maxBase then .ok base
      else .error ⟨baseVariable, value, "an address in 0x0000-0xFFFF"⟩

def read (environment : Environment) : Except SettingFault Settings := do
  -- Of several faults the first in this order is reported.
  let base ← readBase environment
  let showBytes ← readTruth environment bytesVariable ({} : Settings).showBytes
  let marksEnd ← readTruth environment endVariable ({} : Settings).marksEnd
  let packed ← readTruth environment packedVariable ({} : Settings).packed
  return { base, showBytes, marksEnd, packed }

end Settings

end LinearSweep
