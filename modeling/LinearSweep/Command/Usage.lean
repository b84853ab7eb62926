import LinearSweep.Text.ControlSequence
import LinearSweep.Text.Raw

/-!
# Usage

What the command says about itself, and about a command line that it does not understand.
-/

namespace LinearSweep

/-- A parameter with a value that cannot be used. -/
structure ParameterFault where
  detail : String
  parameter : Option String := none
  deriving DecidableEq, Repr

def ParameterFault.message (fault : ParameterFault) : String :=
  match fault.parameter with
  | none => "Invalid value: " ++ fault.detail
  | some parameter => "Invalid value for " ++ parameter ++ ": " ++ fault.detail

namespace Command

def programName : String := "disasm6502"

def version : String := "1.0.0"

def versionText : String :=
  s!"{programName}, version {version}\n"

def usageLine : String :=
  s!"Usage: {programName} [OPTIONS] INPUT_FILE\n"

def helpText : String :=
  usageLine ++ "\n".intercalate [
    "",
    "  Disassemble MOS 6502 machine code.",
    "",
    "  INPUT_FILE is the binary file to disassemble, or a text file of signed 32-bit",
    "  words when --packed is given.",
    "",
    "  Examples:",
    "",
    "      # Disassemble a ROM mapped at $C000     disasm6502 rom.bin --address",
    "      0xC000",
    "",
    "      # Disassemble the first 20 instructions     disasm6502 rom.bin --count 20",
    "      -o listing.asm",
    "",
    "      # Disassemble a packed word list     disasm6502 rom.txt --packed",
    "",
    "Options:",
    "  -o, --output FILE          Output file (default: stdout)",
    "  -a, --address TEXT         Display address of the first byte (hex with 0x/$",
    "                             prefix or decimal). Default: 0",
    "  -s, --start TEXT           Offset in the input at which to start decoding.",
    "                             Default: 0",
    "  -e, --end TEXT             Offset in the input at which to stop decoding",
    "                             (exclusive). Default: end of input",
    "  -c, --count INTEGER RANGE  Maximum number of instructions to disassemble",
    "                             (default: all)  [x>=0]",
    "  --packed                   Treat the input as a text list of signed 32-bit",
    "                             words instead of raw bytes",
    "  --hex                      Include hex dump before disassembly",
    "  --no-bytes                 Omit raw bytes from output (show only mnemonic and",
    "                             operand)",
    "  --no-end-marker            Omit the .END line after a fully decoded range",
    "  --json                     Emit instructions as a JSON list",
    "  -v, --verbose              Verbose output",
    "  --version                  Show the version and exit.",
    "  --help                     Show this message and exit.",
    ""]

/-! ## Faults -/

inductive UsageFault where
  | unknownOption (name : RawText)
  | missingValue (name : RawText)
  | unexpectedValue (name : RawText)
  | malformedCount (text : RawText)
  | negativeCount (count : Int)
  | outputIsDirectory (path : RawText)
  | missingInput
  | inputAbsent (path : RawText)
  | inputIsDirectory (path : RawText)
  | extraOperands (operands : List RawText)
  deriving DecidableEq, Repr

namespace UsageFault

def inputName : String := "'INPUT_FILE'"

def outputName : String := "'-o' / '--output'"

def countName : String := "'-c' / '--count'"

/-- The wording of a value that cannot be used. -/
def invalid (parameter detail : String) : String :=
  ParameterFault.message { detail, parameter := some parameter }

/-- The file under a path, as a usage error names it. -/
def file (path : RawText) : String :=
  s!"File {Text.quoted path.replaced}"

/-- What is said of a fault.  The names of options like an unknown one, which may be added, are left
out. -/
def message : UsageFault → String
  | unknownOption name => "No such option: " ++ name.escaped
  | missingValue name => s!"Option {name.quoted} requires an argument."
  | unexpectedValue name => s!"Option {name.quoted} does not take a value."
  | malformedCount text => invalid countName s!"{text.quoted} is not a valid integer range."
  | negativeCount count => invalid countName s!"{count} is not in the range x>=0."
  | outputIsDirectory path => invalid outputName s!"{file path} is a directory."
  | missingInput => s!"Missing argument {inputName}."
  | inputAbsent path => invalid inputName s!"{file path} does not exist."
  | inputIsDirectory path => invalid inputName s!"{file path} is a directory."
  | extraOperands operands =>
    let plural := if operands.length = 1 then "" else "s"
    let listed := " ".intercalate (operands.map RawText.escaped)
    s!"Got unexpected extra argument{plural} ({listed})"

/-- The usage is not shown for a fault in giving or leaving out the value of an option. -/
def showsUsage : UsageFault → Bool
  | missingValue _ | unexpectedValue _ => false
  | _ => true

def report (fault : UsageFault) : String :=
  let usage := if fault.showsUsage then
      usageLine ++ s!"Try '{programName} --help' for help.\n\n"
    else ""
  Text.printed (usage ++ s!"Error: {fault.message}\n")

end UsageFault

end Command

end LinearSweep
