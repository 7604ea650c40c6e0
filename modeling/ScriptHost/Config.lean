import ScriptHost.Error
import ScriptHost.Files.Tree
import ScriptHost.Json.Shape

/-!
# Configuration of a component

Which script a component runs, and how.

* `Config` : the configuration.
* `Config.parse` : a configuration from its JSON text, and `Config.json` as JSON.
* `ScriptSource.load` : the text of a script.
-/

namespace ScriptHost

open Json

/-- Where a component has its script from. -/
inductive ScriptSource where
  /-- The text is part of the configuration. -/
  | literal (text : String)
  /-- The text is in a file, which is read for every build. -/
  | file (path : String)
  deriving DecidableEq, Repr

/-- What a component runs in. -/
inductive ExecutionContext where
  /-- Functions for the editor run, and edits count at once. -/
  | editor
  | playing
  deriving DecidableEq, Repr

/-- The configuration of a component. -/
structure Config where
  name : String
  source : ScriptSource
  context : ExecutionContext := .playing
  /-- How many milliseconds an edit waits for the next one. -/
  reloadDebounce : Nat := 1400
  /-- The values of exposed variables. -/
  initialValues : Entries Json := []

namespace ScriptSource

/-- Whether the text is part of the configuration. -/
def isLiteral : ScriptSource → Bool
  | literal _ => true
  | file _ => false

/-- The text of a script. -/
def load (files : FileTree) : ScriptSource → Except Error String
  | literal text => .ok text
  | file path =>
    match files.readText? path with
    | some text => .ok text
    | none => .error (.sourceNotRead path)

/-- A source as JSON. -/
def json : ScriptSource → Json
  | literal text => .object [("mode", .string "literal"), ("text", .string text)]
  | file path => .object [("mode", .string "file"), ("path", .string path)]

/-- The source with a mode and one further member, which `member?` gives by its name. -/
def ofMode? (member? : String → Option Document) : String → Option ScriptSource
  | "literal" => (member? "text").bind fun text => text.string?.map literal
  | "file" => (member? "path").bind fun path => path.string?.map file
  | _ => none

/-- The source of a document: an object, whose further members only have to be JSON values, or the
list of the mode and the text or path. -/
def ofDocument? (depth : Nat) : Document → Option ScriptSource
  | .object members =>
    match depth with
    | 0 => none
    | depth + 1 => do
      let mode ← (← Document.member? "mode" members).bind Document.string?
      let valid := members.all fun member =>
        member.1.isSome && (Json.ofDocument? depth member.2).isSome
      if !valid then none
      ofMode? (fun key => (Document.member? key members).join) mode
  | .array [mode, value] =>
    match depth with
    | 0 => none
    | depth + 1 =>
      if (Json.ofDocument? depth value).isSome then
        mode.string?.bind (ofMode? fun _ => some value)
      else none
  | _ => none

end ScriptSource

namespace ExecutionContext

/-- The name of a context. -/
def name : ExecutionContext → String
  | editor => "editor"
  | playing => "playing"

/-- The context with a name. -/
def ofName? : String → Option ExecutionContext
  | "editor" => some editor
  | "playing" => some playing
  | _ => none

/-- The context of a document: its name, or an object whose one member has the name as its key and
`null` as its value. -/
def ofDocument? (depth : Nat) : Document → Option ExecutionContext
  | .string value? => value?.bind ofName?
  | .object [(some name, .null)] => if depth = 0 then none else ofName? name
  | _ => none

end ExecutionContext

namespace Config

/-- Whether the component is edited. -/
def isEditor (config : Config) : Bool := config.context = .editor

/-- A configuration as JSON. -/
def json (config : Config) : Json :=
  .object [("name", .string config.name), ("source", config.source.json),
    ("context", .string config.context.name), ("reloadDebounceMs", .integer config.reloadDebounce),
    ("initialValues", .object config.initialValues)]

/-- A field that is read, or has a default. -/
def orDefault {α : Type} (default : α) (read : Document → Option α) : Option Document → Option α
  | none => some default
  | some document => read document

/-- The members of an object of JSON values. -/
def valuesOf? (depth : Nat) (document : Document) : Option (Entries Json) :=
  match Json.ofDocument? depth document with
  | some (.object members) => some members
  | _ => none

/-- The configuration of a document. -/
def ofDocument? (document : Document) : Option Config :=
  document.record? ["name", "source", "context", "reloadDebounceMs", "initialValues"] nestingLimit
    fun depth fields => do
      match fields with
      | [name?, source?, context?, debounce?, values?] =>
        some
          { name := ← (← name?).string?
            source := ← ScriptSource.ofDocument? depth (← source?)
            context := ← orDefault .playing (ExecutionContext.ofDocument? depth) context?
            reloadDebounce := ← orDefault 1400 Document.natural? debounce?
            initialValues := ← orDefault [] (valuesOf? depth) values? }
      | _ => none

/-- A configuration from its text. -/
def parse (text : String) : Except Error Config :=
  match (Document.parse? text).bind ofDocument? with
  | some config => .ok config
  | none => .error .configInvalid

/-- The configuration in a file. -/
def read (files : FileTree) (path : String) : Except Error Config :=
  match files.readText? path with
  | some text => parse text
  | none => .error (.configNotRead path)

end Config

end ScriptHost
