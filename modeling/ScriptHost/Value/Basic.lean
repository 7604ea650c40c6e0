import ScriptHost.Ordered

/-!
# Values

The values that cross between a host and its scripts.

* `HostRef` : a reference to an object of the host, which a script can hold but not look into.
* `Value` : nil, booleans, integers, floating point numbers, strings, arrays, maps and references.
* `Value.same` : equality of values as numbers have it, so that a NaN differs from itself.
-/

namespace ScriptHost

/-- A reference to an object of the host. -/
structure HostRef where
  /-- Tells the object from all others. -/
  identity : String
  /-- The name of the object's type. -/
  typeName : String
  deriving DecidableEq, Repr

/-- A value that a host and its scripts exchange. -/
inductive Value where
  | nil
  | boolean (value : Bool)
  | integer (value : Int64)
  /-- A floating point number that is no NaN. -/
  | number (value : Float)
  /-- A NaN, whose sign scripts can see. -/
  | nan (negative : Bool)
  | string (value : String)
  | array (items : List Value)
  /-- The entries are in ascending order of their keys. -/
  | map (entries : List (String × Value))
  | host (reference : HostRef)
  deriving Repr, Inhabited

namespace Value

/-- The value of a double; `negative` is the sign of a NaN. -/
def ofFloat (x : Float) (negative : Bool) : Value := if x.isNaN then nan negative else number x

/-- The name of a value's kind. -/
def typeName : Value → String
  | nil => "nil"
  | boolean _ => "boolean"
  | integer _ => "integer"
  | number _ | nan _ => "number"
  | string _ => "string"
  | array _ => "array"
  | map _ => "map"
  | host _ => "host"

/-- Whether the value is nil. -/
def isNil : Value → Bool
  | nil => true
  | _ => false

/-- The boolean that the value is. -/
def asBoolean? : Value → Option Bool
  | boolean value => some value
  | _ => none

/-- The integer that the value is. -/
def asInteger? : Value → Option Int64
  | integer value => some value
  | _ => none

/-- The number that the value is; integers count as numbers. -/
def asNumber? : Value → Option Float
  | integer value => some (Float.ofInt value.toInt)
  | number value => some value
  | nan _ => some (0.0 / 0.0)
  | _ => none

/-- The string that the value is. -/
def asString? : Value → Option String
  | string value => some value
  | _ => none

/-- The reference that the value is. -/
def asHost? : Value → Option HostRef
  | host reference => some reference
  | _ => none

mutual

/-- Equality of values: floating point numbers are compared as numbers, of which a NaN equals none,
and references by the object they are for. -/
def same : Value → Value → Bool
  | nil, nil => true
  | boolean a, boolean b => a == b
  | integer a, integer b => a == b
  | number a, number b => a == b
  | string a, string b => a == b
  | array a, array b => sameItems a b
  | map a, map b => sameEntries a b
  | host a, host b => a.identity == b.identity
  | _, _ => false

/-- Equality of lists of values. -/
def sameItems : List Value → List Value → Bool
  | [], [] => true
  | a :: as, b :: bs => same a b && sameItems as bs
  | _, _ => false

/-- Equality of lists of entries. -/
def sameEntries : List (String × Value) → List (String × Value) → Bool
  | [], [] => true
  | (k, a) :: as, (l, b) :: bs => k == l && same a b && sameEntries as bs
  | _, _ => false

end

end Value

end ScriptHost
