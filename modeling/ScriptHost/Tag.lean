import ScriptHost.Ordered
import ScriptHost.Text.Blank

/-!
# Tags

A tag is one of the comma separated words of a tag line. Most tags are free words of the script's
author; a few shapes are reserved.

* `EditorOnly` marks functions that run in the editor only.
* `Serialize v` asks that the global `v` be kept when the script is torn down.
* `Exposed t = v` asks that the global `v`, of type `t`, be set from the configuration. A tag that
  starts with `Exposed` and is not of this shape is malformed.

`Tag.parse` reads a tag, and `serializedVariables`, `exposedVariables` and `malformedExposedTags`
pick the reserved tags out of a list.
-/

namespace ScriptHost

open Text

/-- What a tag asks for. -/
inductive Tag where
  | editorOnly
  | serialize (variableName : String)
  | exposed (typeName variableName : String)
  /-- Starts with `Exposed`, without the part `type = name`. -/
  | malformedExposed
  /-- Any other word. -/
  | custom (token : String)
  deriving DecidableEq, Repr

/-- A global marked `Exposed type = name`. -/
structure ExposedVariable where
  typeName : String
  name : String
  deriving DecidableEq, Repr

namespace Tag

/-- The tag of functions that run in the editor only. -/
def editorOnlyToken : String := "EditorOnly"

/-- The word in front of the name of a variable to keep. -/
def serializeWord : List Char := "Serialize".toList

/-- The word in front of the type and name of a variable to set. -/
def exposedWord : List Char := "Exposed".toList

/-- A word: at least one character, and no blank. -/
def isWord (cs : List Char) : Bool := !cs.isEmpty && cs.all (fun c => !isBlank c)

/-- What follows `word` and at least one blank, without leading blanks. -/
def afterWord? (word cs : List Char) : Option (List Char) :=
  if word.isPrefixOf cs then
    let rest := cs.drop word.length
    match rest with
    | [] => none
    | c :: _ => if isBlank c then some (trimLeft rest) else none
  else none

/-- The variable of a tag of the shape `Serialize v`. -/
def serialize? (cs : List Char) : Option (List Char) :=
  match afterWord? serializeWord cs with
  | some name => if isWord name then some name else none
  | none => none

/-- The characters that a type name may hold: neither blanks nor the equals sign. -/
def isTypeChar (c : Char) : Bool := !isBlank c && c != '='

/-- The type and the variable of a tag of the shape `Exposed t = v`. -/
def exposed? (cs : List Char) : Option (List Char × List Char) :=
  match afterWord? exposedWord cs with
  | none => none
  | some rest =>
    let typeName := rest.takeWhile isTypeChar
    match trimLeft (rest.dropWhile isTypeChar) with
    | '=' :: value =>
      let name := trimLeft value
      if !typeName.isEmpty && isWord name then some (typeName, name) else none
    | _ => none

/-- Reads a tag. -/
def parse (token : String) : Tag :=
  if token = editorOnlyToken then .editorOnly
  else match serialize? token.toList with
    | some name => .serialize (String.ofList name)
    | none =>
      if exposedWord.isPrefixOf token.toList then
        match exposed? token.toList with
        | some (typeName, name) => .exposed (String.ofList typeName) (String.ofList name)
        | none => .malformedExposed
      else .custom token

end Tag

/-! ## Tag lists -/

/-- Adds a name at the end, unless it is there. -/
def appendNew (names : List String) (name : String) : List String :=
  if names.contains name then names else names ++ [name]

/-- The globals marked `Serialize`, each once, in order of their first tag. -/
def serializedVariables (tags : List String) : List String :=
  tags.foldl (fun names tag =>
    match Tag.parse tag with
    | .serialize name => appendNew names name
    | _ => names) []

/-- Adds a variable at the end, unless its name is there. -/
def appendNewExposed (found : List ExposedVariable) (entry : ExposedVariable) :
    List ExposedVariable :=
  if found.any (fun other => other.name == entry.name) then found
  else found ++ [entry]

/-- The globals marked `Exposed`, each once, in order of their first tag and with its type. -/
def exposedVariables (tags : List String) : List ExposedVariable :=
  tags.foldl (fun found tag =>
    match Tag.parse tag with
    | .exposed typeName name => appendNewExposed found ⟨typeName, name⟩
    | _ => found) []

/-- The tags that start with `Exposed` and name no type and variable. -/
def malformedExposedTags (tags : List String) : List String :=
  tags.filter fun tag => Tag.parse tag = .malformedExposed

end ScriptHost
