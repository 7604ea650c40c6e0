import ScriptHost.Instance
import ScriptHost.Tag
import ScriptHost.Value.Json

/-!
# Exposed variables

A script exposes globals to its configuration with `Exposed` tags. When the script is built, each
of them is set to its configured value, or to nil.

* `Instance.initialiseExposed` : sets the exposed globals and says which they are.
-/

namespace ScriptHost.Instance

/-- The value that a variable is configured with, nil if there is none. -/
def initialValue (values : Entries Json) (name : String) : Value :=
  ((Entries.find? name values).map Value.ofJson).getD .nil

/-- Sets some exposed globals. One that cannot be set is noted. -/
def setExposed (values : Entries Json) : List ExposedVariable → Action Unit
  | [] => return ()
  | exposed :: rest => do
    match ← setGlobal exposed.name (initialValue values exposed.name) with
    | .ok () => pure ()
    | .error reason =>
      note (.exposedFailed (← get).name exposed.typeName exposed.name reason)
    setExposed values rest

/-- Notes the tags that name no type and variable. -/
def noteIncomplete : List String → Action Unit
  | [] => return ()
  | tag :: rest => do
    note (.exposedIncomplete (← get).name tag)
    noteIncomplete rest

/-- Sets the exposed globals of a script. -/
def initialiseExposed (values : Entries Json) : Action (List ExposedVariable) := do
  let tags := (← get).tags.tags
  noteIncomplete (malformedExposedTags tags)
  let exposed := exposedVariables tags
  setExposed values exposed
  return exposed

end ScriptHost.Instance
