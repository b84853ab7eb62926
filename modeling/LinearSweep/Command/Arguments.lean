import LinearSweep.Command.Options
import LinearSweep.Command.Usage
import LinearSweep.Disk.Basic
import LinearSweep.Numeral.Literal

/-!
# Arguments

Arguments are read in two passes.  The first tells options and operands apart, and takes the values
of options from behind an equals sign, from the rest of a bundle of short options, or from the next
argument.  The second looks at what was given: a request for the version or for help comes before
everything else, then the values of options are checked in the order in which they were given, and
operands come last.  Of an option that was given several times the last value counts.
-/

namespace LinearSweep.Command

/-! ## First pass -/

inductive Given where
  | switch (switch : Switch)
  | value (parameter : Parameter) (text : RawText)
  deriving DecidableEq, Repr

/-- The options and operands among arguments, each in order. -/
structure Scan where
  options : List Given := []
  operands : List RawText := []
  deriving DecidableEq, Repr

/-- A parameter whose value is to be the next argument, with the name it was given by. -/
abbrev Pending := Option (Parameter × RawText)

def hyphen : RawChar := .char '-'

/-- Reads the short options that follow a hyphen. -/
def readBundle : RawText → Except UsageFault (List Given × Pending)
  | [] => .ok ([], none)
  | letter :: rest =>
    let name := [hyphen, letter]
    match letter.char?.bind Key.ofShort? with
    | none => .error (.unknownOption name)
    | some (.switch switch) => do
      let (given, pending) ← readBundle rest
      return (.switch switch :: given, pending)
    | some (.parameter parameter) =>
      -- The rest of the bundle is the value, and at its end the next argument is.
      if rest.isEmpty then .ok ([], some (parameter, name))
      else .ok ([.value parameter rest], none)

def splitValue (argument : RawText) : RawText × Option RawText :=
  let name := argument.takeWhile (· ≠ .char '=')
  match argument.dropWhile (· ≠ .char '=') with
  | [] => (name, none)
  | _ :: value => (name, some value)

/-- Reads an argument that begins with a hyphen: a long option, or else a bundle of short ones. -/
def readOption (argument : RawText) : Except UsageFault (List Given × Pending) :=
  let (name, value) := splitValue argument
  match name.text?.bind Key.ofLong?, value with
  | some (.switch switch), none => .ok ([.switch switch], none)
  | some (.switch _), some _ => .error (.unexpectedValue name)
  | some (.parameter parameter), none => .ok ([], some (parameter, name))
  | some (.parameter parameter), some value => .ok ([.value parameter value], none)
  | none, _ =>
    match argument with
    | .char '-' :: .char '-' :: _ => .error (.unknownOption name)
    | _ => readBundle argument.tail

/-- A single hyphen is an operand. -/
def isOption (argument : RawText) : Bool :=
  argument.head? = some hyphen && argument ≠ [hyphen]

def scan : Pending → List RawText → Except UsageFault Scan
  | none, [] => .ok {}
  | some (_, name), [] => .error (.missingValue name)
  | some (parameter, _), text :: arguments => do
    let later ← scan none arguments
    return { later with options := .value parameter text :: later.options }
  | none, argument :: arguments =>
    -- Two hyphens end the options.
    if argument = "--" then .ok { operands := arguments }
    else if isOption argument then do
      let (given, pending) ← readOption argument
      let later ← scan pending arguments
      return { later with options := given ++ later.options }
    else do
      let later ← scan none arguments
      return { later with operands := argument :: later.operands }

namespace Scan

def has (s : Scan) (switch : Switch) : Bool :=
  s.options.contains (.switch switch)

/-- The value that was given last for a parameter. -/
def value? (s : Scan) (parameter : Parameter) : Option RawText :=
  s.options.reverse.findSome? fun
    | .value other text => if other = parameter then some text else none
    | .switch _ => none

end Scan

/-! ## Second pass -/

inductive Halt where
  | version
  | help
  | usage (fault : UsageFault)
  deriving DecidableEq, Repr

/-- The first request for the version or for help among the options given. -/
def halt? (options : List Given) : Option Halt :=
  options.findSome? fun
    | .switch .version => some .version
    | .switch .help => some .help
    | _ => none

def readCount (text : RawText) : Except UsageFault Nat :=
  match text.chars?.map (Numeral.Literal.read 10) with
  | none | some (.error _) => .error (.malformedCount text)
  | some (.ok (.ofNat count)) => .ok count
  | some (.ok (.negSucc n)) => .error (.negativeCount (.negSucc n))

/-- Checks the value of the output, which must not be a directory. -/
def checkOutput (disk : Disk) (path : RawText) : Except UsageFault Unit :=
  match disk.find path with
  | .ok location =>
    if disk.isDirectory location then .error (.outputIsDirectory path) else .ok ()
  | .error _ => .ok ()

/-- Checks the value of the input, which must be a file. -/
def checkInput (disk : Disk) (path : RawText) : Except UsageFault Unit :=
  match disk.find path with
  | .ok location =>
    if disk.isDirectory location then .error (.inputIsDirectory path) else .ok ()
  | .error _ => .error (.inputAbsent path)

/-- Checks the value that counts for an option that was given. -/
def checkGiven (disk : Disk) (s : Scan) : Given → Except UsageFault Unit
  | .value .count _ => (s.value? .count).forM fun text => discard (readCount text)
  | .value .output _ => (s.value? .output).forM (checkOutput disk)
  -- Nothing else can be wrong before the run.
  | _ => .ok ()

/-- The input among operands, which must be the only one and a file. -/
def readInput (disk : Disk) : List RawText → Except UsageFault RawText
  | [] => .error .missingInput
  | path :: extra => do
    checkInput disk path
    if extra.isEmpty then return path else throw (.extraOperands extra)

def Scan.options? (s : Scan) (disk : Disk) : Except UsageFault Options := do
  -- The checks of options come in the order in which they were given, and before the operands.
  s.options.forM (checkGiven disk s)
  let count ← (s.value? .count).mapM readCount
  let input ← readInput disk s.operands
  return {
    input
    output := s.value? .output
    address := s.value? .address
    start := s.value? .start
    stop := s.value? .stop
    count
    packed := s.has .packed
    hexDump := s.has .hexDump
    noBytes := s.has .noBytes
    noEndMark := s.has .noEndMark
    json := s.has .json
    verbose := s.has .verbose }

def readArguments (disk : Disk) (arguments : List RawText) : Except Halt Options := do
  let s ← (scan none arguments).mapError .usage
  match halt? s.options with
  | some halt => throw halt
  | none => (s.options? disk).mapError .usage

end LinearSweep.Command
