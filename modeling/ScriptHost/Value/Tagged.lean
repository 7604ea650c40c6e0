import ScriptHost.Json.Shape
import ScriptHost.Value.Basic

/-!
# Values as tagged JSON

The form in which values are kept: an object with the members `type` and `value`, so that all kinds
of values stay apart. References have no such form.

* `Value.tagged?` : a value in its tagged form.
* `Value.ofTagged?` : the value of a tagged form, in any of its spellings.
-/

namespace ScriptHost.Value

open Json

/-! ## Writing -/

/-- The tagged form of a value of some kind. -/
def tag (kind : String) (payload : Json) : Json :=
  .object [("type", .string kind), ("value", payload)]

mutual

/-- The tagged form of a value; there is none when it holds a reference. -/
def tagged? : Value → Option Json
  | nil => some (.object [("type", .string "nil")])
  | boolean value => some (tag "boolean" (.boolean value))
  | integer value => some (tag "integer" (.integer value.toInt))
  | number value => some (tag "number" (.real value))
  | nan _ => some (tag "number" .null)
  | string value => some (tag "string" (.string value))
  | array items => (taggedItems? items).map fun items => tag "array" (.array items)
  | map entries => (taggedEntries? entries).map fun members => tag "map" (.object members)
  | host _ => none

/-- The tagged forms of some values. -/
def taggedItems? : List Value → Option (List Json)
  | [] => some []
  | item :: items => do
    let first ← tagged? item
    let rest ← taggedItems? items
    some (first :: rest)

/-- The tagged forms of the entries of a map. -/
def taggedEntries? : List (String × Value) → Option (List (String × Json))
  | [] => some []
  | (key, value) :: entries => do
    let first ← tagged? value
    let rest ← taggedEntries? entries
    some ((key, first) :: rest)

end

/-! ## Reading

A payload that stands before its kind is read in two steps: first as some JSON value, and again as
a value of the kind when that is known. What is read in the second step is called *held back*; a
few more spellings of a kind are understood there. -/

/-- The kinds of values that have a tagged form, in the order of their numbers. -/
def kinds : List String := ["nil", "boolean", "integer", "number", "string", "array", "map"]

/-- The kind that a tag names as a member of an object: the tag is a string, or an object whose one
member has the name as its key and `null` as its value, or an empty object if it is held back. -/
def memberKind? (heldBack : Bool) (depth : Nat) : Document → Option String
  | .string value? => value?
  | .object [(some kind, .null)] => if depth = 0 then none else some kind
  | .object [(some kind, .object [])] => if heldBack then some kind else none
  | _ => none

/-- The kind that a tag names as the first item of a list: the tag is a string, or the number of
the kind if it is held back. -/
def itemKind? (heldBack : Bool) : Document → Option String
  | .string value? => value?
  | tag => if heldBack then tag.natural?.bind fun n => kinds[n]? else none

/-- The position of the first member with a key. -/
def position (key : String) (members : List (Option String × Document)) : Nat :=
  members.findIdx fun member => member.1 == some key

/-- A tagged form taken apart. -/
structure Tagged where
  kind : String
  payload? : Option Document
  /-- Whether the payload is held back. -/
  heldBack : Bool

/-- Takes a tagged form apart, which is an object with the members `type` and `value`, or the list
of the two. A payload that stands before the kind has to be a JSON value whatever its kind. -/
def tagged (heldBack : Bool) (depth : Nat) : Document → Option Tagged
  | .object members => do
    if !members.all fun member => member.1.isSome then none
    let type? ← Document.member? "type" members
    let payload? ← Document.member? "value" members
    let kind ← memberKind? heldBack depth (← type?)
    match payload? with
    | none => some ⟨kind, none, heldBack⟩
    | some payload =>
      let first := position "value" members < position "type" members
      if first && !heldBack && (Json.ofDocument? depth payload).isNone then none
      else some ⟨kind, some payload, heldBack || first⟩
  | .array [type, payload] => do some ⟨← itemKind? heldBack type, some payload, heldBack⟩
  | _ => none

/-- The entries of a map, with its values read by `read`; of two entries with one key the later
counts. -/
def entries? {α : Type} (read : Document → Option α)
    (members : List (Option String × Document)) : Option (Entries α) := do
  let pairs ← members.mapM fun member => do some (← member.1, ← read member.2)
  some (Entries.ofList pairs)

/-- The value of a tagged form with at most `depth` levels of arrays and objects. -/
def ofTagged? (heldBack : Bool) : Nat → Document → Option Value
  | 0, _ => none
  | depth + 1, document => do
    let form ← tagged heldBack depth document
    match form.kind, form.payload? with
    | "nil", none => some nil
    | "nil", some .null => some nil
    | "boolean", some payload => payload.flag?.map boolean
    | "integer", some payload => payload.word?.map integer
    | "number", some payload => payload.real?.map number
    | "string", some payload => payload.string?.map string
    | "array", some (.array items) =>
      match depth with
      | 0 => none
      | depth + 1 => (items.mapM (ofTagged? form.heldBack depth)).map array
    | "map", some (.object members) =>
      match depth with
      | 0 => none
      | depth + 1 => (entries? (ofTagged? form.heldBack depth) members).map map
    | _, _ => none

/-- The values of a list of tagged forms with at most `depth` levels of arrays and objects. -/
def ofTaggedItems? (depth : Nat) : Document → Option (List Value)
  | .array items =>
    match depth with
    | 0 => none
    | depth + 1 => items.mapM (ofTagged? false depth)
  | _ => none

/-- The entries of an object of tagged forms with at most `depth` levels of arrays and objects. -/
def ofTaggedEntries? (depth : Nat) : Document → Option (Entries Value)
  | .object members =>
    match depth with
    | 0 => none
    | depth + 1 => entries? (ofTagged? false depth) members
  | _ => none

/-- The value of a text in tagged form. -/
def parseTagged? (text : String) : Option Value :=
  (Document.parse? text).bind (ofTagged? false Json.nestingLimit)

end ScriptHost.Value
