import ScriptHost.CommandLine.Failure
import ScriptHost.Files.Tree
import ScriptHost.Snapshot

/-!
# Saved states

The variables that a script captured can be saved to a file, and a later run starts from them.

* `SavedState.load` : the state in a file, if it is one of the script.
* `SavedState.save` : writes a state. The text is written to a file beside the old one first, which
  then takes its place, so the old file is kept when the text cannot be written.
-/

namespace ScriptHost.CommandLine

open Json

/-- The layout of state files. -/
def stateLayout : String := "lua-host-state.v1"

/-- The variables of a script, as they are saved. -/
structure SavedState where
  layout : String := stateLayout
  script : String
  entries : List EncodedVariable
  deriving DecidableEq, Repr

namespace SavedState

/-- A state as JSON. -/
def json (state : SavedState) : Json :=
  .object [("schemaVersion", .string state.layout), ("script", .string state.script),
    ("variables", .array (state.entries.map EncodedVariable.json))]

/-- The text of a state. -/
def text (state : SavedState) : String := state.json.pretty

/-- The state of a document. -/
def ofDocument? (document : Document) : Option SavedState :=
  document.record? ["schemaVersion", "script", "variables"] nestingLimit fun depth fields => do
    match ← fields.mapM id with
    | [layout, script, entries] =>
      some ⟨← layout.string?, ← script.string?,
        ← EncodedVariable.listOfDocument? depth entries⟩
    | _ => none

/-- The state of a text. -/
def parse? (text : String) : Option SavedState := (Document.parse? text).bind ofDocument?

/-! ## Reading -/

/-- The first name that stands a second time. -/
def firstRepeated? : List String → List String → Option String
  | _, [] => none
  | seen, name :: names =>
    if seen.contains name then some name else firstRepeated? (name :: seen) names

/-- Takes a state that has the known layout, is one of the script, and names no variable twice. -/
def accept (path script : String) (state : SavedState) : Except Failure SavedState :=
  if state.layout ≠ stateLayout then .error (.stateLayoutUnknown path state.layout stateLayout)
  else if state.script ≠ script then .error (.stateOfOther path state.script script)
  else
    match firstRepeated? [] (state.entries.map EncodedVariable.name) with
    | some name => .error (.stateRepeats path name)
    | none => .ok state

/-- Reads the state of a script from a file. -/
def load (files : FileTree) (path script : String) : Except Failure SavedState :=
  if !files.isFile path then .error (.stateMissing path)
  else
    match files.readText? path with
    | none => .error (.stateNotRead path)
    | some text =>
      match parse? text with
      | none => .error (.stateNotParsed path)
      | some state => accept path script state

/-! ## Writing -/

/-- The path of the file that a state is written to first. -/
def stagingPath (path : String) : String := Path.withExtension path "partial"

/-- Writes a state to a file and makes the directories around it. The files are given in any case,
as they are after the last step that could be taken. -/
def save (files : FileTree) (path : String) (state : SavedState) :
    Except Failure Unit × FileTree :=
  let (files, made) := files.makeParents path
  if !made then (.error (.stateNotWritten path), files)
  else
    match files.writeFile? (stagingPath path) state.text.toUTF8 with
    | none => (.error (.stateNotWritten path), files)
    | some files =>
      match files.rename? (stagingPath path) path with
      | none => (.error (.stateNotWritten path), files)
      | some files => (.ok (), files)

end SavedState

end ScriptHost.CommandLine
