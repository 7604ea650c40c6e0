import ScriptHost.Decimal.Binary
import ScriptHost.Value.Basic
import ScriptHost.Text.Utf8

/-!
# Values of the script language

What variables and tables of a running script hold. Tables, functions and threads are known by
number; what they hold is kept in the world of the script.

* `Script.Value` : nil, booleans, integers, floating point numbers, byte strings, tables, functions
  and references to objects of the host.
* `Value.kindName` : the name of the type of a value, as scripts see it.
* `Value.rawEqual` : equality as the script language has it.
* `Value.asKey` : a value as the key of a table.
-/

namespace ScriptHost.Script

open Decimal

/-- The functions that every script finds among its globals. -/
inductive Builtin where
  | assert | createCoroutine | error | exit | getmetatable | ipairs | ipairsStep | next | pairs | pcall
  | print | rawequal | rawget | rawlen | rawset | select | setmetatable | tonumber | tostring
  | type | xpcall
  /-- A function that is there to be passed around, and raises an error when it is called. -/
  | unavailable (name : String)
  deriving DecidableEq, Repr

/-- A value of the script language. -/
inductive Value where
  | nil
  | boolean (value : Bool)
  | integer (value : Int64)
  /-- A floating point number that is no NaN. -/
  | number (value : Float)
  /-- A NaN, whose sign shows in its text. -/
  | nan (negative : Bool)
  | string (bytes : ByteArray)
  | table (id : Nat)
  /-- A function of the script. -/
  | closure (id : Nat)
  | builtin (function : Builtin)
  /-- A function of the host. -/
  | hostFunction (name : String)
  /-- A reference to an object of the host; each crossing makes a new one. -/
  | host (reference : HostRef) (serial : Nat)
  | stream
  | thread (serial : Nat)
  /-- What is raised when a host function fails. -/
  | failure (message : String) (serial : Nat)
  deriving DecidableEq, Inhabited

namespace Value

/-- The string value of a text. -/
def ofString (text : String) : Value := .string text.toUTF8

/-- The value of a double; `negative` is the sign of a NaN. -/
def ofFloat (x : Float) (negative : Bool) : Value := if x.isNaN then nan negative else number x

/-- The name of a value's type, as scripts see it. -/
def kindName : Value → String
  | nil => "nil"
  | boolean _ => "boolean"
  | integer _ | number _ | nan _ => "number"
  | string _ => "string"
  | table _ => "table"
  | closure _ | builtin _ | hostFunction _ => "function"
  | host .. | stream | failure .. => "userdata"
  | thread _ => "thread"

/-- The name of a value's type, as the host sees it: integers are told from other numbers, and
failures from other references. -/
def hostKindName : Value → String
  | integer _ => "integer"
  | failure .. => "error"
  | value => value.kindName

/-- The name of a value's type in the errors of operators. -/
def operandName : Value → String
  | host .. => "LuaHostRef"
  | stream => "FILE*"
  | value => value.kindName

/-- Nil and false count as false, all other values as true. -/
def truthy : Value → Bool
  | nil | boolean false => false
  | _ => true

/-- Whether a value is a function. -/
def isFunction (value : Value) : Bool := value.kindName == "function"

/-! ## Numbers -/

/-- A double as an integer, if it is one of sixty-four bits. -/
def integerOfFloat? (x : Float) : Option Int64 :=
  match Binary.ofFloat x with
  | .finite negative m =>
    let scale := Nat.pow 2 (-m.exponent).toNat
    let shifted := m.mantissa * Nat.pow 2 m.exponent.toNat
    if shifted % scale = 0 then
      let magnitude : Int := Int.ofNat (shifted / scale)
      let value := if negative then -magnitude else magnitude
      if Int64.minValue.toInt ≤ value ∧ value ≤ Int64.maxValue.toInt then
        some (Int64.ofInt value)
      else none
    else none
  | _ => none

/-- The double nearest to an integer. -/
def floatOfInteger (n : Int64) : Float := Float.ofInt n.toInt

/-- How an integer compares with a double; a NaN does not compare. -/
def compareWithFloat? (n : Int) (x : Float) : Option Ordering :=
  match Binary.ofFloat x with
  | .nan => none
  | .infinite negative => some (if negative then .gt else .lt)
  | .finite negative m =>
    let num : Int := Int.ofNat (m.mantissa * Nat.pow 2 m.exponent.toNat)
    let den : Int := Int.ofNat (Nat.pow 2 (-m.exponent).toNat)
    some (compare (n * den) (if negative then -num else num))

/-- Equality as the script language has it: numbers by their value, strings by their bytes, and all
else by identity. A NaN equals nothing. -/
def rawEqual : Value → Value → Bool
  | nan _, _ => false
  | number a, number b => a == b
  | integer a, number b | number b, integer a => compareWithFloat? a.toInt b == some .eq
  | a, b => a = b

/-- A value as the key of a table: a double that is an integer counts as that integer. -/
def asKey : Value → Value
  | number x =>
    match integerOfFloat? x with
    | some n => integer n
    | none => number x
  | value => value

end Value

end ScriptHost.Script
