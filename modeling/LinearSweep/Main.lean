import LinearSweep.Command.Response

/-!
# The command

Looks up the environment and the files that the arguments are about, asks for the response, and does
what it says.  Arguments and values of variables are given as text here, and so all names are text.
-/

namespace LinearSweep

def variableNames : List String :=
  [Settings.baseVariable, Settings.bytesVariable, Settings.endVariable, Settings.packedVariable]

def readEnvironment : IO Environment := do
  let values ← variableNames.mapM fun name => return (name, ← IO.getEnv name)
  return fun name => (values.lookup name).join.map RawText.ofString

/-- Adds what is at a path to a disk, if there is something. -/
def addPath (disk : Disk) (path : String) (location : Location) : IO Disk := do
  try
    let resolved ← IO.FS.realPath path
    if ← resolved.isDir then
      return { disk with directories := location :: disk.directories }
    else
      let content ← IO.FS.readBinFile path
      return disk.write location content.toList
  catch _ => return disk

/-- Adds what is at a path, and at the paths that lead to it, to a disk. -/
def addPaths (disk : Disk) (path : RawText) : IO Disk := do
  let start := if Path.isAbsolute path then Disk.root else []
  let mut disk := disk
  let mut location := start
  let mut behind := ""
  for component in Path.components path do
    behind := behind ++ component.escaped
    if component = ".." then
      location := Disk.parent location
    else if component ≠ "" && component ≠ "." then
      location := location ++ [component]
    unless location = start do
      disk ← addPath disk behind location
    behind := behind ++ "/"
  return disk

def runCommand (arguments : List RawText) : IO UInt32 := do
  let environment ← readEnvironment
  let disk ← (Command.paths arguments).foldlM addPaths {}
  let response := Command.respond environment disk arguments
  if let some (location, text) := response.written then
    let absolute := Disk.root.isPrefixOf location
    let names := (if absolute then location.tail else location).map RawText.escaped
    let path := (if absolute then "/" else "") ++ "/".intercalate names
    try IO.FS.writeFile path text
    catch error =>
      IO.eprintln s!"Error writing {path}: {error}"
      return 2
  IO.print response.output
  IO.eprint response.errors
  return UInt32.ofNat response.status

end LinearSweep

def main (arguments : List String) : IO UInt32 :=
  LinearSweep.runCommand (arguments.map LinearSweep.RawText.ofString)
