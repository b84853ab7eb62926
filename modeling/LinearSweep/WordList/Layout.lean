import LinearSweep.Text.Blank
import LinearSweep.WordList.Word

/-!
# The layout of word lists

Words stand between commas and blanks.  A number sign or a semicolon starts a comment, which runs to
the end of its line.  A line feed ends a line; in a file a carriage return does so as well.
-/

namespace LinearSweep.WordList

def startsComment (c : Char) : Bool :=
  c = '#' || c = ';'

def isSeparator (c : Char) : Bool :=
  c = ',' || Text.isBlank c

def lineTokens (line : List Char) : List (List Char) :=
  ((line.takeWhile (!startsComment ·)).splitOnP isSeparator).filter (!·.isEmpty)

def tokens (text : List Char) : List (List Char) :=
  (text.splitOnP (· == '\n')).flatMap lineTokens

/-- Reads the words of a text.  The first token that is no word makes the reading fail. -/
def read (text : List Char) : Except Fault (List Int) :=
  (tokens text).zipIdx.mapM fun (token, i) => readWord token (some (i : Int))

def unifyLineEnds (text : List Char) : List Char :=
  -- Before a line feed a carriage return only adds an empty line.
  text.map fun c => if c = '\r' then '\n' else c

/-- Reads the words of a file, which must hold text in UTF-8. -/
def readBytes (bytes : List UInt8) : Except Fault (List Int) :=
  match String.fromUTF8? bytes.toByteArray with
  | some text => read (unifyLineEnds text.toList)
  | none => .error (.ofDefect .notText)

end LinearSweep.WordList
