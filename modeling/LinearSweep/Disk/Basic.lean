import LinearSweep.Disk.Path

/-!
# Disks

A disk holds the files and directories that paths can reach: those below the working directory,
those above it that double dots lead to, and those below the root.  A path is followed component by
component; each but the last must lead to a directory.
-/

namespace LinearSweep

/-- Why a path cannot be followed or a file not be opened. -/
inductive PathFault where
  | absent
  /-- A component that is no directory has components behind it. -/
  | notADirectory
  | isADirectory
  | nameTooLong
  deriving DecidableEq, Repr

def PathFault.message (path : RawText) : PathFault → String
  | absent => s!"[Errno 2] No such file or directory: {path.quoted}"
  | notADirectory => s!"[Errno 20] Not a directory: {path.quoted}"
  | isADirectory => s!"[Errno 21] Is a directory: {path.quoted}"
  | nameTooLong => s!"[Errno 36] File name too long: {path.quoted}"

/-- A place on a disk: the names that lead to it from the working directory.  The name of the root
is a slash, and a place above the working directory begins with double dots.  A name need not be
text. -/
abbrev Location := List RawText

structure Disk where
  files : List (Location × List UInt8) := []
  /-- The directories, apart from those that files lie in. -/
  directories : List Location := []

namespace Disk

def maxNameSize : Nat := 255

def maxPathSize : Nat := 4095

def root : Location := ["/"]

/-- There is a directory at a location: the root, the working directory or one above it, one that is
listed, or one that something lies in. -/
def isDirectory (disk : Disk) (location : Location) : Bool :=
  location = root || location.all (· = "..")
    || disk.directories.any (location.isPrefixOf ·)
    || disk.files.any fun file => location ≠ file.1 && location.isPrefixOf file.1

def content? (disk : Disk) (location : Location) : Option (List UInt8) :=
  disk.files.lookup location

def occupied (disk : Disk) (location : Location) : Bool :=
  disk.isDirectory location || (disk.content? location).isSome

def parent (location : Location) : Location :=
  -- The root lies in itself, and one can always go above the working directory.
  if location = root then location
  else if location.all (· = "..") then location ++ [(".." : RawText)]
  else location.dropLast

/-- The location that one component leads to, whether or not there is something. -/
def enter (disk : Disk) (location : Location) (component : RawText) :
    Except PathFault Location :=
  if !disk.isDirectory location then .error .notADirectory
  else if component = "" || component = "." then .ok location
  else if component = ".." then .ok (parent location)
  else if maxNameSize < component.size then .error .nameTooLong
  else .ok (location ++ [component])

/-- The location that the last of several components leads to. -/
def follow (disk : Disk) (location : Location) : List RawText → Except PathFault Location
  | [] => .ok location
  | [component] => disk.enter location component
  -- The components before the last must lead to something.
  | component :: components => do
    let location ← disk.enter location component
    if disk.occupied location then disk.follow location components else .error .absent

/-- The location of a path, whether or not there is something. -/
def locate (disk : Disk) (path : RawText) : Except PathFault Location :=
  if path = "" then .error .absent
  -- A path that is too long is not followed at all.
  else if maxPathSize < path.size then .error .nameTooLong
  else disk.follow (if Path.isAbsolute path then root else []) (Path.components path)

def find (disk : Disk) (path : RawText) : Except PathFault Location := do
  let location ← disk.locate path
  if disk.occupied location then return location else .error .absent

def read (disk : Disk) (path : RawText) : Except PathFault (List UInt8) := do
  let location ← disk.find path
  match disk.content? location with
  | some content => return content
  | none => .error .isADirectory

/-- The location at which a file can be written under a path, whether it is there already or not. -/
def place (disk : Disk) (path : RawText) : Except PathFault Location := do
  let location ← disk.locate path
  if disk.isDirectory location then .error .isADirectory else return location

def write (disk : Disk) (location : Location) (content : List UInt8) : Disk :=
  { disk with files := (location, content) :: disk.files.filter (·.1 ≠ location) }

@[simp] theorem content?_write_self {disk : Disk} {location : Location} {content : List UInt8} :
    (disk.write location content).content? location = some content := by
  simp [write, content?]

theorem content?_write_of_ne {disk : Disk} {location other : Location} {content : List UInt8}
    (h : other ≠ location) :
    (disk.write location content).content? other = disk.content? other := by
  have hne : (other == location) = false := by simpa using h
  simp only [write, content?, List.lookup_cons, hne]
  induction disk.files with
  | nil => rfl
  | cons file files ih =>
    obtain ⟨name, bytes⟩ := file
    by_cases hname : name = location
    · subst hname
      simpa [List.lookup_cons, hne] using ih
    · simp only [ne_eq, hname, not_false_eq_true, decide_true, List.filter_cons_of_pos,
        List.lookup_cons]
      rw [ih]

end Disk

end LinearSweep
