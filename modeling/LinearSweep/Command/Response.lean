import LinearSweep.Command.Arguments
import LinearSweep.Command.Run

/-!
# Responses

The response to a whole command line: what is printed, the file that is written, and the status.
-/

namespace LinearSweep.Command

structure Response where
  status : Nat := 0
  /-- Whether the command breaks off without a word of explanation. -/
  brokenOff : Bool := false
  output : String := ""
  errors : String := ""
  written : Option (Location × String) := none
  deriving DecidableEq, Repr

def Outcome.response (verbose : Bool) (outcome : Outcome) : Response where
  status := outcome.status
  brokenOff := outcome.failure.any Failure.breaksOff
  output := outcome.output
  errors := outcome.errors verbose
  written := outcome.written

/-- The response to a command line that ends before a run. -/
def Halt.response : Halt → Response
  | .version => { output := versionText }
  | .help => { output := helpText }
  | .usage fault => { status := 2, errors := fault.report }

def respond (environment : Environment) (disk : Disk) (arguments : List RawText) : Response :=
  match readArguments disk arguments with
  | .error halt => halt.response
  | .ok options => (run environment disk options).response options.verbose

def Response.disk (before : Disk) (response : Response) : Disk :=
  match response.written with
  | some (location, text) => before.write location text.toUTF8.toList
  | none => before

/-- The paths that a command line is about: the input and the output. -/
def paths (arguments : List RawText) : List RawText :=
  match scan none arguments with
  | .ok s => s.operands.take 1 ++ (s.value? .output).toList
  | .error _ => []

end LinearSweep.Command
