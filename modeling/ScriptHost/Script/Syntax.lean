import ScriptHost.Script.Value

/-!
# Syntax of the script language

Trees of expressions and statements. Where an error can be raised, the tree holds the line that the
error names. Calls hold the slot of the function that they call, counted from the first slot of the
function around them, and functions hold the number of slots that they take.

* `Expr`, `Item`, `Stat` : expressions, items of tables, and statements.
* `LocalName`, `Attribute` : the names of local variables.
* `Expr.isTarget`, `Expr.isCall`, `Expr.isMultiple`, `Expr.name?` : kinds of expressions.
-/

namespace ScriptHost.Script

/-- Operators on one value. -/
inductive UnaryOp where
  | negate
  | not
  | length
  /-- Flips every bit. -/
  | complement
  deriving DecidableEq, Repr

/-- Operators that compute a number. Those of the second row work on the bits of integers. -/
inductive ArithmeticOp where
  | add | sub | mul | div | idiv | mod | pow
  | band | bor | bxor | shl | shr
  deriving DecidableEq, Repr

/-- What is special about a local variable. -/
inductive Attribute where
  /-- Nothing is assigned to it. -/
  | constant
  /-- Nothing is assigned to it, and its value is closed when it goes out of sight. -/
  | closing
  deriving DecidableEq, Repr

/-- The name of a local variable. -/
structure LocalName where
  name : String
  attribute? : Option Attribute := none
  deriving DecidableEq, Repr

/-- Operators that compare. -/
inductive CompareOp where
  | eq | ne | lt | le | gt | ge
  deriving DecidableEq, Repr

mutual

/-- An expression. -/
inductive Expr where
  | constant (value : Value)
  | varargs
  /-- A local variable, or a global if there is none of the name. -/
  | name (name : String) (line : Nat)
  | index (object key : Expr) (line : Nat)
  | call (function : Expr) (arguments : List Expr) (line slot : Nat)
  /-- A function found in an object, on line `found`, and called with the object as its first
  argument. -/
  | callMethod (object : Expr) (name : String) (arguments : List Expr) (found line slot : Nat)
  | function (parameters : List String) (vararg : Bool) (body : List Stat) (room : Nat)
  | unary (op : UnaryOp) (operand : Expr) (line : Nat)
  | arithmetic (op : ArithmeticOp) (left right : Expr) (line : Nat)
  | compare (op : CompareOp) (left right : Expr) (line : Nat)
  | and (left right : Expr)
  | or (left right : Expr)
  /-- A chain of `..`. -/
  | concat (operands : List Expr) (line : Nat)
  | table (items : List Item)
  /-- An expression in parentheses, which has one value. -/
  | single (inner : Expr)

/-- An item of a table constructor. -/
inductive Item where
  | positional (value : Expr)
  | keyed (key value : Expr) (line : Nat)

/-- A statement. -/
inductive Stat where
  | declare (names : List LocalName) (values : List Expr) (line : Nat)
  | assign (targets : List Expr) (values : List Expr) (line : Nat)
  | call (call : Expr)
  | block (body : List Stat)
  | whileLoop (condition : Expr) (body : List Stat)
  /-- A loop that only its body ends. -/
  | repeatLoop (body : List Stat)
  | ifElse (condition : Expr) (body otherwise : List Stat)
  | numericFor (name : String) (first last step : Expr) (body : List Stat) (line : Nat)
  | genericFor (names : List String) (values : List Expr) (body : List Stat) (line slot : Nat)
  | localFunction (name : String) (parameters : List String) (vararg : Bool) (body : List Stat)
      (room : Nat)
  | returnValues (values : List Expr)
  /-- A call whose values are returned, and which takes the place of the call of the function around
  it. -/
  | returnCall (call : Expr)
  | breakLoop
  /-- Goes on behind a label. -/
  | jump (label : String)
  | label (name : String)
  /-- Leaves the loop around if a condition holds. -/
  | leaveIf (condition : Expr)

end

/-- Whether a statement is a label. -/
def Stat.isLabel : Stat → Bool
  | label _ => true
  | _ => false

namespace Expr

/-- Whether an expression can be assigned to. -/
def isTarget : Expr → Bool
  | name .. | index .. => true
  | _ => false

/-- Whether an expression is a call. -/
def isCall : Expr → Bool
  | call .. | callMethod .. => true
  | _ => false

/-- Whether an expression may have any number of values. -/
def isMultiple : Expr → Bool
  | call .. | callMethod .. | varargs => true
  | _ => false

/-- The name that an expression consists of, perhaps in parentheses. -/
def name? : Expr → Option String
  | .name text _ => some text
  | .single inner => inner.name?
  | _ => none

end Expr

end ScriptHost.Script
