import ScriptHost.CommandLine.Run

/-!
# The program

Reads the files that the command line names, does what it asks for, and writes the changed files and
the lines.
-/

namespace ScriptHost.CommandLine

/-- The content of a file. One that cannot be read is taken for bytes that are no text. -/
def readContent (path : String) : IO ByteArray := do
  try IO.FS.readBinFile path
  catch _ => return ⟨#[0xff]⟩

/-- Adds what is at a location, and with `deep` everything below it. -/
partial def addLocation (deep : Bool) (tree : FileTree) (location : Location) : IO FileTree := do
  let path := (← IO.currentDir) / pathText location
  if ← path.isDir then
    let tree := tree.put location .directory
    if !deep then return tree
    (← path.readDir).foldlM (fun tree entry => do
      match (← entry.path.symlinkMetadata).type with
      | .symlink => return tree
      | _ => addLocation deep tree (location ++ [entry.fileName])) tree
  else if ← path.pathExists then
    return tree.put location (.file (← readContent (pathText location)))
  else return tree

/-- Adds what is at the locations that a path leads through, and with `deep` everything below the
last one. -/
def addPath (deep : Bool) (tree : FileTree) (path : String) : IO FileTree := do
  let mut tree := tree
  let mut location := tree.start path
  for part in Path.parts path do
    if part == ".." then location := location.dropLast
    else if !Path.isIdle part then
      location := location ++ [part]
      tree ← addLocation false tree location
  if deep then addLocation true tree location else return tree

/-- The paths that a command names, and whether everything below them counts. -/
def namedPaths : Command → List (String × Bool)
  | .inspect script | .call script .. => [(script, false)]
  | .check directory => [(directory, true)]
  | .run options =>
    (options.script :: options.stateIn?.toList ++ options.stateOut?.toList
      ++ (options.stateOut?.map SavedState.stagingPath).toList).map fun path => (path, false)

/-- The files that a command line names. -/
def readFiles (arguments : List String) : IO FileTree := do
  let names := (Path.parts (← IO.currentDir).toString).filter fun part => !Path.isIdle part
  match Command.parse arguments with
  | .error _ => return FileTree.empty names
  | .ok command =>
    (namedPaths command).foldlM (fun tree (path, deep) => addPath deep tree path)
      (FileTree.empty names)

/-- Takes away the files that are gone, and writes those that are new or changed. -/
def writeFiles (old new : FileTree) : IO Unit := do
  for (location, _) in old.nodes do
    if new.node? location == none then IO.FS.removeFile (pathText location)
  for (location, node) in new.nodes do
    if old.node? location != some node then
      match node with
      | .directory => IO.FS.createDirAll (pathText location)
      | .file content => IO.FS.writeBinFile (pathText location) content

/-- Writes a log line if it is a warning or an error. -/
def writeLog (event : Event) : IO Unit := do
  match event.line? with
  | some (level, text) =>
    if level.rank ≤ Level.warn.rank then
      IO.eprintln (level.name.toUpper ++ " scripting: " ++ text)
  | none => return ()

/-- The path that a command line saves a state to. -/
def statePath (arguments : List String) : String :=
  match Command.parse arguments with
  | .ok (.run options) => options.stateOut?.getD ""
  | _ => ""

/-- Prints some lines. Gives whether all could be printed. -/
def printLines (lines : List String) : IO Bool := do
  try
    for line in lines do IO.println line
    return true
  catch _ => return false

/-- Does what the command line asks for, and gives the exit code. -/
def runProgram (arguments : List String) : IO UInt32 := do
  let files ← readFiles arguments
  match run none files arguments with
  | none => return 1 -- A script goes on for ever, so this is not reached.
  | some outcome =>
    for event in outcome.journal.reverse do writeLog event
    let outcome ←
      try
        writeFiles files outcome.files
        pure outcome
      catch _ => pure (Outcome.failed files [] [] (.stateNotWritten (statePath arguments)))
    let printed ← printLines outcome.lines
    return UInt32.ofNat (if printed then outcome.exitCode else unwrittenCode)

end ScriptHost.CommandLine

/-- The command line program. -/
def main (arguments : List String) : IO UInt32 := ScriptHost.CommandLine.runProgram arguments
