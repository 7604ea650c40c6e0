import ScriptHost.CommandLine.Failure
import ScriptHost.Event
import ScriptHost.Files.Tree
import ScriptHost.HostFunctions
import ScriptHost.Ordered
import ScriptHost.Value.Json

/-!
# The scripts that a command line names

* `loadScript` : one script, by its path.
* `loadScripts` : the scripts in a directory and below it.
* `hostFunctions` : what scripts can call.
-/

namespace ScriptHost.CommandLine

/-- A script that was read from its file. -/
structure LoadedScript where
  /-- The name of the file without its extension. -/
  name : String
  path : String
  source : String
  deriving DecidableEq, Repr

/-! ## Paths -/

/-- A location as a path from the root. -/
def pathText (location : Location) : String := "/" ++ "/".intercalate location

/-- A path from the root, for a path from the working directory. -/
def absolutePath (files : FileTree) (path : String) : String :=
  if Path.isAbsolute path then path else Path.join (pathText files.workingDirectory) path

/-- A path from the root that leads to something. -/
def existingPath (files : FileTree) (path : String) : Except Failure String :=
  let absolute := absolutePath files path
  if files.contains absolute then .ok absolute else .error (.pathMissing absolute)

/-! ## One script -/

/-- The name of the script at a path. -/
def scriptName (path : String) : String := (Path.stem? path).getD "script"

/-- Reads a script. -/
def loadScript (files : FileTree) (path : String) : Except Failure LoadedScript := do
  let path ← existingPath files path
  if !files.isFile path then throw (.scriptNotFile path)
  match files.readText? path with
  | some source => return ⟨scriptName path, path, source⟩
  | none => throw (.scriptNotRead path)

/-! ## The scripts in a directory -/

/-- The extension of scripts. -/
def scriptExtension : String := "lua"

/-- Whether a file is a script, by its name. -/
def isScriptFile (name : String) : Bool := Path.extensionOf? name == some scriptExtension

/-- The files below a directory that are scripts, by the names on the way to them. -/
def scriptFiles (files : FileTree) (directory : Location) : List (Location × ByteArray) :=
  (files.filesBelow directory).filter fun entry =>
    match entry.1.getLast? with
    | some name => isScriptFile name
    | none => false

/-- The names on the way to a file as one text, with a `/` for each backslash. -/
def relativePath (location : Location) : String :=
  ("/".intercalate location).map fun c => if c == '\\' then '/' else c

/-- Reads some scripts of a directory, up to the first that is no text. -/
def readScripts (root : String) (scripts : Entries String) :
    List (Location × ByteArray) → Except Failure (Entries String)
  | [] => .ok scripts
  | (location, content) :: rest =>
    match String.fromUTF8? content with
    | some source => readScripts root (Entries.insert (relativePath location) source scripts) rest
    | none => .error (.scriptNotRead (Path.join root ("/".intercalate location)))

/-- Reads the scripts in a directory and below it. They are known by their relative paths. -/
def loadScripts (files : FileTree) (path : String) : Except Failure (Entries String) := do
  let path ← existingPath files path
  match files.locate? path with
  | none => throw (.notDirectory path)
  | some directory =>
    if !files.isDirectoryAt directory then throw (.notDirectory path)
    let scripts ← readScripts path [] (scriptFiles files directory)
    if scripts.isEmpty then throw (.noScripts path)
    return scripts

/-! ## Host functions -/

/-- A value in a log line: a string as it is, and other values as JSON. -/
def logText : Value → String
  | .string text => text
  | value => value.json.compact

/-- Writes its arguments into the log. -/
def hostLog (arguments : List Value) : Reply :=
  ⟨.ok .nil, [.message (" ".intercalate (arguments.map logText))]⟩

/-- The functions that scripts can call. -/
def hostFunctions : HostFunctions := HostFunctions.empty.register "host_log" hostLog

end ScriptHost.CommandLine
