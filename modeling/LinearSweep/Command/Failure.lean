import LinearSweep.Command.Usage
import LinearSweep.Disk.Basic
import LinearSweep.Numeral.Address
import LinearSweep.Numeral.Hex
import LinearSweep.Settings
import LinearSweep.Text.ControlSequence
import LinearSweep.WordList.Fault

/-!
# Failures

Why a run of the command fails, once its arguments have been read, and how it ends then: with a
complaint on the standard error and a status that tells the kind of failure.
-/

namespace LinearSweep.Command

/-! ## Numbers given as options -/

inductive NumberFault where
  | notANumber (text : RawText)
  | outOfRange (upper : Int)
  deriving DecidableEq, Repr

def NumberFault.detail : NumberFault → Except NumeralError String
  | notANumber text => return s!"invalid number '{text.escaped}'"
  | outOfRange upper => do
    let decimal ← Numeral.decimal upper
    let hex := String.ofList (Numeral.hex 0 upper)
    return s!"must be 0-{decimal} (0x0-0x{hex})"

/-- Reads a number between zero and `upper`. -/
def readNumber (upper : Int) (text : RawText) : Except NumberFault Int :=
  match Numeral.Address.ofRaw? text with
  | none => .error (.notANumber text)
  | some number =>
    if 0 ≤ number ∧ number ≤ upper then .ok number else .error (.outOfRange upper)

/-! ## Complaints -/

/-- What the command says when it fails, by the kind of failure. -/
inductive Complaint where
  /-- The settings or the image are at fault. -/
  | input (text : String)
  /-- The options or the files are at fault. -/
  | invocation (text : String)
  /-- The file for the result is at fault. -/
  | output (text : String)
  /-- The command itself is at fault. -/
  | internal (text : String)
  deriving DecidableEq, Repr

namespace Complaint

def status : Complaint → Nat
  | input _ => 1
  | invocation _ | output _ => 2
  | internal _ => 3

def traceLine : String := "Traceback (most recent call last):\n"

def message : Complaint → String
  | input text => text
  | invocation text => "Error: " ++ text
  | output text => "Error writing " ++ text
  | internal text => "Internal error: " ++ text

/-- Whether a trace follows a complaint if the log is asked for. -/
def hasTrace : Complaint → Bool
  | internal _ => true
  | input _ | invocation _ | output _ => false

def report (verbose : Bool) (complaint : Complaint) : String :=
  Text.printed (complaint.message ++ "\n")
    ++ if verbose && complaint.hasTrace then traceLine else ""

def ofParameter (fault : ParameterFault) : Complaint :=
  .invocation fault.message

/-- The complaint with a text that a numeral may keep from being written. -/
def ofText (complain : String → Complaint) (text : Except NumeralError String) : Complaint :=
  match text with
  | .ok text => complain text
  | .error error => .internal error.message

end Complaint

/-! ## Failures -/

inductive Failure where
  | setting (fault : SettingFault)
  | number (name : String) (fault : NumberFault)
  | unreadable (path : RawText) (fault : PathFault)
  | packed (fault : WordList.Fault)
  | empty (path : RawText)
  | countTooLarge
  | unwritable (path : RawText) (fault : PathFault)
  /-- The result cannot be encoded in UTF-8. -/
  | unencodable
  deriving DecidableEq, Repr

namespace Failure

def complaintOfUnreadable (path : RawText) (fault : PathFault) : Complaint :=
  match fault with
  | .absent | .isADirectory => .invocation (fault.message path)
  | .notADirectory | .nameTooLong => .internal (fault.message path)

def complaintOfPacked : WordList.Fault → Complaint
  | .defect defect => .ofText .input (defect.report >>= Report.message)
  | .numeral error => .internal error.message

/-- The complaint about a failure.  Nothing is said of a count that is too large, or of a result
that cannot be encoded. -/
def complaint? : Failure → Option Complaint
  | setting fault => some (.input fault.message)
  | number name fault =>
    some (.ofText (fun detail => .ofParameter { detail, parameter := some name }) fault.detail)
  | unreadable path fault => some (complaintOfUnreadable path fault)
  | packed fault => some (complaintOfPacked fault)
  | empty path => some (.invocation s!"{path.escaped} is empty")
  | unwritable path fault => some (.output s!"{path.escaped}: {fault.message path}")
  | countTooLarge | unencodable => none

/-- The command breaks off if there is nothing it says of a failure. -/
def breaksOff (failure : Failure) : Bool :=
  failure.complaint?.isNone

def status (failure : Failure) : Nat :=
  (failure.complaint?.map Complaint.status).getD 1

def report (verbose : Bool) (failure : Failure) : String :=
  (failure.complaint?.map (Complaint.report verbose)).getD ""

end Failure

end LinearSweep.Command
