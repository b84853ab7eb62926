import LinearSweep.Command.Failure
import LinearSweep.Command.Options
import LinearSweep.HexDump
import LinearSweep.Json
import LinearSweep.Note
import LinearSweep.Sweep.Listing
import LinearSweep.Text.ControlSequence
import LinearSweep.WordList.Image

/-!
# Runs

A run reads the settings and the options, loads the image, sweeps the range and reports the
instructions, as a listing or in JSON, on the standard output or in a file.  It is a function of the
environment, the disk and the options.  The file is opened when everything else has succeeded, but
before the result is encoded.
-/

namespace LinearSweep.Command

/-! ## What is asked for -/

/-- The greatest offset that may be asked for, and the greatest count that can be counted to. -/
def maxOffset : Int := 0x7FFFFFFFFFFFFFFF

/-- A job for one run, with all defaults filled in. -/
structure Job where
  settings : Settings
  start : Int
  /-- The offset at which the sweep stops, if not at the end of the image. -/
  stop : Option Int
  deriving DecidableEq, Repr

def readNumberOption (name : String) (upper : Int) (text : Option RawText) :
    Except Failure (Option Int) :=
  text.mapM fun text => (readNumber upper text).mapError (.number name)

def readJob (environment : Environment) (options : Options) : Except Failure Job := do
  let settings ← (Settings.read environment).mapError .setting
  let base ← readNumberOption "--address" Settings.maxBase options.address
  let start ← readNumberOption "--start" maxOffset options.start
  let stop ← readNumberOption "--end" maxOffset options.stop
  -- Options win over the environment.
  return {
    settings := {
      base := base.getD settings.base
      showBytes := settings.showBytes && !options.noBytes
      marksEnd := settings.marksEnd && !options.noEndMark
      packed := settings.packed || options.packed }
    start := start.getD 0
    stop }

/-! ## Loading -/

/-- Something that was found out or that failed, with what was noted on the way. -/
structure Logged (α : Type) where
  notes : List Note
  result : Except Failure α

def unpackFile (content : List UInt8) : Except Failure (List Int × List UInt8) := do
  let words ← (WordList.readBytes content).mapError .packed
  let image ← (WordList.unpack words).mapError .packed
  return (words, image)

def load (disk : Disk) (path : RawText) (packed : Bool) : Logged (List UInt8) :=
  let shown := Path.shown path
  let content := (disk.read shown).mapError (.unreadable shown)
  if packed then
    match content >>= unpackFile with
    | .ok (words, image) =>
      ⟨[.reading shown, .unpacked words.length image.length], .ok image⟩
    | .error failure => ⟨[.reading shown], .error failure⟩
  else ⟨[], content⟩

/-! ## Reporting -/

/-- The instructions of a sweep, which may have been cut short. -/
structure Sweep where
  cursor : Cursor
  instructions : List Instruction
  /-- Whether the range was swept to its end. -/
  complete : Bool

def sweep (job : Job) (image : List UInt8) (count : Option Nat) : Sweep :=
  let cursor := Cursor.ofImage image job.start job.stop
  -- A sweep that the count cuts short may still have come to the end.
  let (instructions, after) := cursor.take (count.getD cursor.bytesLeft)
  { cursor, instructions, complete := after.atEnd }

def header (name : String) (size : Nat) (base : Int) (cursor : Cursor) : List String :=
  let address := String.ofList (Numeral.hex 4 base)
  let start := String.ofList (Numeral.hex 4 cursor.start)
  let stop := String.ofList (Numeral.hex 4 cursor.stop)
  [s!"; Disassembly of {name}", s!"; Size: {size} bytes", s!"; Base address: ${address}",
   s!"; Range: ${start}-${stop}", ""]

/-- The lines of a listing with its head and, if one is wanted, a hex dump of the range. -/
def listingLines (name : String) (options : Options) (settings : Settings) (image : List UInt8)
    (s : Sweep) : List String :=
  let layout : Listing := { base := settings.base, showBytes := settings.showBytes }
  header name image.length settings.base s.cursor
    ++ (if options.hexDump then HexDump.lines s.cursor.rest (settings.base + s.cursor.start)
      else [])
    ++ layout.lines s.instructions
    ++ (if settings.marksEnd && s.complete then [Listing.endMark] else [])

def listingText (name : String) (options : Options) (settings : Settings) (image : List UInt8)
    (s : Sweep) : String :=
  "\n".intercalate (listingLines name options settings image s) ++ "\n"

def jsonText (settings : Settings) (s : Sweep) : String :=
  Json.render (s.instructions.map (Instruction.record settings.base)) ++ "\n"

/-- The result, if it can be encoded.  A listing cannot if the input, whose name stands in its first
line, has a name that is not text. -/
def resultText? (options : Options) (settings : Settings) (image : List UInt8) (s : Sweep) :
    Option String :=
  if options.json then some (jsonText settings s)
  else
    (Path.fileName options.input).text?.map fun name => listingText name options settings image s

/-! ## Running -/

structure Outcome where
  failure : Option Failure := none
  notes : List Note := []
  output : String := ""
  written : Option (Location × String) := none
  deriving DecidableEq, Repr

namespace Outcome

def status (outcome : Outcome) : Nat :=
  (outcome.failure.map Failure.status).getD 0

def errors (verbose : Bool) (outcome : Outcome) : String :=
  (if verbose then String.join (outcome.notes.map Note.line) else "")
    ++ (outcome.failure.map (Failure.report verbose)).getD ""

end Outcome

def deliver (disk : Disk) (output : Option RawText) (notes : List Note) (result : Option String)
    (total : Nat) : Outcome :=
  match output with
  | none =>
    match result with
    | none => { failure := some .unencodable, notes }
    -- Only what is printed loses its control sequences.
    | some text => { notes := notes ++ [.total total], output := Text.printed text }
  | some path =>
    let shown := Path.shown path
    match disk.place shown with
    | .error fault => { failure := some (.unwritable shown fault), notes }
    | .ok location =>
      match result with
      -- The file has been emptied by the time that the result turns out not to be encodable.
      | none => { failure := some .unencodable, notes, written := some (location, "") }
      | some text =>
        { notes := notes ++ [.written shown, .total total], written := some (location, text) }

def runOn (disk : Disk) (options : Options) (job : Job) (notes : List Note) (image : List UInt8) :
    Outcome :=
  let shown := Path.shown options.input
  if image.isEmpty then { failure := some (.empty shown), notes }
  else
    let s := sweep job image options.count
    let notes := notes ++
      [.image shown image.length, .base job.settings.base, .range s.cursor.start s.cursor.stop]
    -- The range has been noted by the time that the count turns out to be too large.
    if maxOffset < (options.count.getD 0 : Nat) then { failure := some .countTooLarge, notes }
    else
      deliver disk options.output (notes ++ s.instructions.filterMap Instruction.note?)
        (resultText? options job.settings image s) s.instructions.length

def run (environment : Environment) (disk : Disk) (options : Options) : Outcome :=
  match readJob environment options with
  | .error failure => { failure := some failure }
  | .ok job =>
    let loaded := load disk options.input job.settings.packed
    match loaded.result with
    | .error failure => { failure := some failure, notes := loaded.notes }
    | .ok image => runOn disk options job loaded.notes image

end LinearSweep.Command
