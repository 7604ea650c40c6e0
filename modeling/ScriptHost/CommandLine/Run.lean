import ScriptHost.CommandLine.Frames
import ScriptHost.Instance
import ScriptHost.Tag

/-!
# Running commands

A command writes lines, which other programs read, and may change files. The first line says whether
it went well. Some of this is missing when a script ends the program: commands are first carried out
as if no script could, and then cut off where one does.

* `inspect`, `checkScripts`, `callFunction` : what the commands find.
* `Outcome.settle` : what a command did, if a script may have ended it.
* `Outcome.printed` : what a command did, if its lines may not be printed.
* `run` : what a command line does.
-/

namespace ScriptHost.CommandLine

/-- What a command line did. -/
structure Outcome where
  /-- Zero when all went well. -/
  exitCode : Nat
  /-- What the command prints; what scripts print is left out. -/
  lines : List String
  /-- The files afterwards. -/
  files : FileTree
  /-- What happened, the latest first. -/
  journal : List Event

/-- A text as a JSON string. -/
def quoted (text : String) : String := (Json.string text).compact

/-- Some texts with bars between them. -/
def fields (texts : List String) : String := "|".intercalate texts

/-- The first line of a command that went well. -/
def successLine : String := "RESULT:OK"

/-- The lines of a command that failed. -/
def failureLines (failure : Failure) : List String :=
  ["RESULT:ERROR", "ERROR_CODE:" ++ failure.code, "ERROR_MSG_JSON:" ++ quoted failure.message]

/-- The outcome of a command that failed. -/
def Outcome.failed (files : FileTree) (journal : List Event) (lines : List String)
    (failure : Failure) : Outcome :=
  ⟨1, lines ++ failureLines failure, files, journal⟩

/-- The outcome of a command that went well. -/
def Outcome.succeeded (files : FileTree) (journal : List Event) (lines : List String) : Outcome :=
  ⟨0, successLine :: lines, files, journal⟩

/-- Builds a script that was read. -/
def buildScript (name source : String) : Except Failure Instance × List Event :=
  let (result, journal) := Instance.build hostFunctions name source
  (result.mapError .ofScript, journal)

/-! ## Inspection -/

/-- The line on a function. -/
def functionLine (tags : TagIndex) (declaration : FunctionDecl) : String :=
  let names := Json.array ((tags.tagsOf declaration.name).map .string)
  "FUNCTION:" ++ fields [declaration.name, toString declaration.arity, names.compact]

/-- The lines on an instance: its functions as they are declared, and its tags. -/
def inspectionLines (inst : Instance) : List String :=
  let declarations := inst.declarations.filter fun declaration =>
    (inst.function? declaration.name declaration.arity).isSome
  ("SCRIPT:" ++ inst.name) :: declarations.map (functionLine inst.tags)
    ++ inst.tags.tags.map (fun tag => "TAG_JSON:" ++ quoted tag)
    ++ (serializedVariables inst.tags.tags).map ("SERIALIZE:" ++ ·)
    ++ (exposedVariables inst.tags.tags).map
      fun entry => "EXPOSED:" ++ fields [entry.typeName, entry.name]

/-- Lists what a script declares. -/
def inspect (files : FileTree) (path : String) : Outcome :=
  match loadScript files path with
  | .error failure => .failed files [] [] failure
  | .ok script =>
    match buildScript script.name script.source with
    | (.error failure, journal) => .failed files journal [] failure
    | (.ok inst, journal) => .succeeded files journal (inspectionLines inst)

/-! ## Checks -/

/-- What the check of one script finds. -/
structure CheckEntry where
  relativePath : String
  /-- The number of functions that the host can call by name. -/
  result : Except Failure Nat

namespace CheckEntry

/-- Whether the script cannot be built. -/
def hasFailed (entry : CheckEntry) : Bool :=
  match entry.result with
  | .ok _ => false
  | .error _ => true

/-- The line on a script. -/
def line (entry : CheckEntry) : String :=
  match entry.result with
  | .ok functions => "SCRIPT_OK:" ++ fields [entry.relativePath, toString functions]
  | .error failure =>
    "SCRIPT_ERROR:" ++ fields [entry.relativePath, failure.code, quoted failure.message]

end CheckEntry

/-- Takes a text off the end of another, as often as it stands there. -/
def trimEnd (ending : List Char) : Nat → List Char → List Char
  | 0, cs => cs
  | bound + 1, cs =>
    if ending.isSuffixOf cs then trimEnd ending bound (cs.take (cs.length - ending.length))
    else cs

/-- The name under which a script of a directory is checked. -/
def checkName (relativePath : String) : String :=
  String.ofList (trimEnd ('.' :: scriptExtension.toList) relativePath.length relativePath.toList)

/-- Checks one script. -/
def checkScript (relativePath source : String) : CheckEntry × List Event :=
  let (result, journal) := buildScript (checkName relativePath) source
  (⟨relativePath, result.map fun inst => inst.registry.names.length⟩, journal)

/-- Checks the scripts of a directory, in ascending order of their relative paths. -/
def checkScripts (files : FileTree) (path : String) :
    Except Failure (List CheckEntry × List Event) := do
  let scripts ← loadScripts files path
  let checked := scripts.map fun (relativePath, source) => checkScript relativePath source
  return (checked.map Prod.fst, (checked.reverse.map Prod.snd).flatten)

/-- Builds every script of a directory. -/
def check (files : FileTree) (path : String) : Outcome :=
  match checkScripts files path with
  | .error failure => .failed files [] [] failure
  | .ok (entries, journal) =>
    let lines := entries.map CheckEntry.line
    let failed := entries.filter CheckEntry.hasFailed
    if failed.isEmpty then .succeeded files journal lines
    else .failed files journal lines (.scriptsFailed failed.length entries.length)

/-! ## Calls -/

/-- The values of arguments in JSON, up to the first that is none. Positions count from one. -/
def readArguments (position : Nat) : List String → Except Failure (List Value)
  | [] => .ok []
  | text :: texts =>
    match Json.parse? text with
    | none => .error (.argumentNotRead position text)
    | some json => (readArguments (position + 1) texts).map (Value.ofJson json :: ·)

/-- Calls a function of a script. What happened is given in any case, the latest first. -/
def callFunction (files : FileTree) (path function : String) (arguments : List String) :
    Except Failure Value × List Event :=
  let prepared : Except Failure (LoadedScript × List Value) := do
    let script ← loadScript files path
    return (script, ← readArguments 1 arguments)
  match prepared with
  | .error failure => (.error failure, [])
  | .ok (script, values) =>
    match buildScript script.name script.source with
    | (.error failure, journal) => (.error failure, journal)
    | (.ok inst, journal) =>
      let (result, inst) := (Instance.call function values).run inst
      (result.mapError .ofScript, inst.journal ++ journal)

/-- Calls one function of a script. -/
def call (files : FileTree) (path function : String) (arguments : List String) : Outcome :=
  match callFunction files path function arguments with
  | (.error failure, journal) => .failed files journal [] failure
  | (.ok value, journal) => .succeeded files journal ["VALUE_JSON:" ++ value.json.compact]

/-! ## Runs -/

/-- The lines on a run. -/
def reportLines (report : RunReport) (stateOut? : Option String) : List String :=
  ["SCRIPT:" ++ report.script, "FRAMES:" ++ toString report.frames,
    "RELOADS:" ++ toString report.reloads]
    ++ report.entries.map (fun entry =>
      "VARIABLE:" ++ fields [entry.name, entry.typeDescriptor, entry.payload])
    ++ ["STATE_OUT:" ++ stateOut?.getD "NONE"]

/-- Drives a script through its life. The state is saved before the report is written. -/
def runScript (files : FileTree) (options : RunOptions) : Outcome :=
  match runReport files options with
  | (.error failure, journal) => .failed files journal [] failure
  | (.ok report, journal) =>
    let lines := reportLines report options.stateOut?
    match options.stateOut? with
    | none => .succeeded files journal lines
    | some path =>
      let state : SavedState := { script := report.script, entries := report.entries }
      match SavedState.save files path state with
      | (.error failure, files) => .failed files journal [] failure
      | (.ok (), files) =>
        .succeeded files (.stateSaved state.script path state.entries.length :: journal) lines

/-! ## The end of a command -/

/-- What a command did that was carried out on some files. Scripts run before anything is printed and
before any file changes, so one that leaves the program takes its exit code and nothing else. There
is no outcome if a script goes on for ever. -/
def Outcome.settle (files : FileTree) (outcome : Outcome) : Option Outcome :=
  match Event.watched (outcome, outcome.journal) with
  | (.ok outcome, _) => some outcome
  | (.error (.exit code), journal) => some ⟨code, [], files, journal⟩
  | (.error .endless, _) => none

/-- The exit code of a program whose output cannot be written. -/
def unwrittenCode : Nat := 101

/-- Prints the lines of a command. If the output takes some lines only, the command breaks off at the
first one that it does not take; the files stay as the command has left them. -/
def Outcome.printed (room? : Option Nat) (outcome : Outcome) : Outcome :=
  match room? with
  | none => outcome
  | some room =>
    if outcome.lines.length ≤ room then outcome
    else { outcome with exitCode := unwrittenCode, lines := outcome.lines.take room }

/-! ## The command line -/

/-- Carries out a command, as if no script could end the program. -/
def carryOut (files : FileTree) : Command → Outcome
  | .inspect script => inspect files script
  | .check directory => check files directory
  | .call script function arguments => call files script function arguments
  | .run options => runScript files options

/-- Executes a command, if no script goes on for ever. -/
def execute (room? : Option Nat) (files : FileTree) (command : Command) : Option Outcome :=
  ((carryOut files command).settle files).map (Outcome.printed room?)

/-- The exit code of a command line that names no command to run. -/
def Refusal.exitCode : Refusal → Nat
  | help => 0
  | invalid => 2

/-- Does what a command line asks for. There is room for some lines only in an output that cannot be
written at some point. -/
def run (room? : Option Nat) (files : FileTree) (arguments : List String) : Option Outcome :=
  match Command.parse arguments with
  | .error refusal => some ⟨refusal.exitCode, [], files, []⟩
  | .ok command => execute room? files command

end ScriptHost.CommandLine
