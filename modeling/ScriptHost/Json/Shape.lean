import ScriptHost.Json.Value

/-!
# Shapes of documents

Readers for documents whose shape is known beforehand. A record is written as an object or as the
list of its fields in order.

* `Document.string?`, `Document.flag?`, `Document.natural?`, … : readers of single values.
* `Document.fields?` : the fields of a record.
-/

namespace ScriptHost.Json.Document

/-- A string. -/
def string? : Document → Option String
  | .string value? => value?
  | _ => none

/-- A boolean. -/
def flag? : Document → Option Bool
  | .boolean value => some value
  | _ => none

/-- An integer. -/
def integer? : Document → Option Int
  | .number negative literal =>
    match ofNumber? negative literal with
    | some (.integer value) => some value
    | _ => none
  | _ => none

/-- An integer that is not negative. -/
def natural? (document : Document) : Option Nat :=
  match document.integer? with
  | some (.ofNat value) => some value
  | _ => none

/-- An integer of sixty-four bits with a sign. -/
def word? (document : Document) : Option Int64 :=
  match document.integer? with
  | some value => if value ≤ Int64.maxValue.toInt then some (Int64.ofInt value) else none
  | none => none

/-- A number, as a double. -/
def real? : Document → Option Float
  | .number negative literal =>
    match ofNumber? negative literal with
    | some (.integer value) => some (Float.ofInt value)
    | some (.real value) => some value
    | _ => none
  | _ => none

/-! ## Records -/

/-- The value of the one member with a key; the inner option is empty when there is none, the outer
one when there are several. -/
def member? (key : String) (members : List (Option String × Document)) :
    Option (Option Document) :=
  match members.filter fun member => member.1 == some key with
  | [] => some none
  | [member] => some (some member.2)
  | _ => none

/-- The fields of a record, in the order of their names. Other members of an object count for
nothing, but their keys have to be strings; a list has a value for each field up to some point. -/
def fields? (names : List String) : Document → Option (List (Option Document))
  | .object members =>
    if members.all fun member => member.1.isSome then names.mapM fun name => member? name members
    else none
  | .array items =>
    if items.length ≤ names.length then
      some (items.map some ++ List.replicate (names.length - items.length) none)
    else none
  | _ => none

/-- Reads a record with nesting still allowed to a depth. -/
def record? {α : Type} (names : List String) (depth : Nat)
    (read : Nat → List (Option Document) → Option α) (document : Document) : Option α :=
  match depth with
  | 0 => none
  | depth + 1 => (fields? names document).bind (read depth)

end ScriptHost.Json.Document
