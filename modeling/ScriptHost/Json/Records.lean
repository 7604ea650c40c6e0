import ScriptHost.Declaration
import ScriptHost.Json.Shape
import ScriptHost.Tag

/-!
# Records as JSON

The JSON forms of declarations and of exposed variables, in which other programs read them.
-/

namespace ScriptHost

open Json

/-- A declaration as JSON. -/
def FunctionDecl.json (declaration : FunctionDecl) : Json :=
  .object [("name", .string declaration.name), ("arity", .integer declaration.arity),
    ("line", .integer declaration.line)]

/-- The declaration of a document. -/
def FunctionDecl.ofDocument? (document : Document) : Option FunctionDecl :=
  document.record? ["name", "arity", "line"] nestingLimit fun _ fields => do
    match ← fields.mapM id with
    | [name, arity, line] => some ⟨← name.string?, ← arity.natural?, ← line.natural?⟩
    | _ => none

/-- An exposed variable as JSON. -/
def ExposedVariable.json (entry : ExposedVariable) : Json :=
  .object [("typeName", .string entry.typeName), ("name", .string entry.name)]

/-- The exposed variable of a document. -/
def ExposedVariable.ofDocument? (document : Document) : Option ExposedVariable :=
  document.record? ["typeName", "name"] nestingLimit fun _ fields => do
    match ← fields.mapM id with
    | [typeName, name] => some ⟨← typeName.string?, ← name.string?⟩
    | _ => none

end ScriptHost
