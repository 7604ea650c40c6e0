import ScriptHost.Json.Value
import ScriptHost.Value.Basic

/-!
# Values as plain JSON

The view of values that is printed and that arguments are given in. It forgets the difference
between nil and `null`, and shows a reference as a string.

* `Value.json` : a value as JSON.
* `Value.ofJson` : the value of JSON.
-/

namespace ScriptHost.Value

mutual

/-- A value as plain JSON. Floating point numbers that are not finite become `null`. -/
def json : Value → Json
  | nil => .null
  | boolean value => .boolean value
  | integer value => .integer value.toInt
  | number value => if value.isFinite then .real value else .null
  | nan _ => .null
  | string value => .string value
  | array items => .array (jsonItems items)
  | map entries => .object (jsonEntries entries)
  | host reference => .string ("<host " ++ reference.typeName ++ ">")

/-- Values as plain JSON. -/
def jsonItems : List Value → List Json
  | [] => []
  | item :: items => json item :: jsonItems items

/-- The entries of a map as plain JSON. -/
def jsonEntries : List (String × Value) → List (String × Json)
  | [] => []
  | (key, value) :: entries => (key, json value) :: jsonEntries entries

end

mutual

/-- The value of plain JSON. An integer that does not fit into sixty-four bits with a sign becomes a
floating point number. -/
def ofJson : Json → Value
  | .null => nil
  | .boolean value => boolean value
  | .integer value =>
    if Int64.minValue.toInt ≤ value ∧ value ≤ Int64.maxValue.toInt then integer (Int64.ofInt value)
    else number (Float.ofInt value)
  | .real value => number value
  | .string value => string value
  | .array items => array (ofJsonItems items)
  | .object members => map (ofJsonMembers members)

/-- The values of a JSON array. -/
def ofJsonItems : List Json → List Value
  | [] => []
  | item :: items => ofJson item :: ofJsonItems items

/-- The entries of a JSON object. -/
def ofJsonMembers : List (String × Json) → List (String × Value)
  | [] => []
  | (key, value) :: members => (key, ofJson value) :: ofJsonMembers members

end

end ScriptHost.Value
