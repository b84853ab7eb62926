import LinearSweep.Text.Raw

/-!
# Paths

A path is shown without its redundant parts: empty components, single dots and a slash at the end
go, double dots stay.  What it names on a disk is decided by the path as it was typed.
-/

namespace LinearSweep.Path

def slash : RawChar := .char '/'

def isAbsolute (path : RawText) : Bool :=
  path.head? = some slash

/-- What stands between the slashes of a path, empty components included. -/
def components (path : RawText) : List RawText :=
  path.splitOnP (· == slash)

def names (path : RawText) : List RawText :=
  (components path).filter fun component => component ≠ "" && component ≠ "."

def root (path : RawText) : RawText :=
  match path with
  | .char '/' :: .char '/' :: .char '/' :: _ => "/"
  -- Two slashes at the front stay two, but three do not.
  | .char '/' :: .char '/' :: _ => "//"
  | .char '/' :: _ => "/"
  | _ => ""

/-- A path as messages show it. -/
def shown (path : RawText) : RawText :=
  let text := root path ++ [slash].intercalate (names path)
  if text = "" then "." else text

def fileName (path : RawText) : RawText :=
  (names path).getLast?.getD ""

end LinearSweep.Path
