import ScriptHost.Script.Machine
import ScriptHost.Script.Numeral

/-!
# Operators

What the operators of the script language do, with the functions that metatables give for them.

* `index`, `assignIndex` : reading and writing a field of an object.
* `arithmetic`, `negate`, `bitwise`, `complement`, `compareValues`, `lengthOf`, `concatenate` : the
  other operators.
* `rawGet`, `rawSet`, `rawLength` : a table itself, without its metatable.
-/

namespace ScriptHost.Script

/-- The number of the table that the fields of strings are found in. -/
def stringLibrary : Nat := 1

/-- What an operation needs to know of the function that it is part of. -/
structure Scene where
  call : Caller
  /-- The calls that are under way. -/
  stack : Stack
  /-- The place of the operation. -/
  site? : Option Site
  /-- The first slot that the operation can use. -/
  top : Nat

namespace Scene

/-- Raises an error message with the place of the operation. -/
def fail {α : Type} (scene : Scene) (message : String) : Computation α :=
  failAt scene.site? message

/-- Calls a function that is part of an operation; errors know it by the given name, if there is
one. -/
def callNative (scene : Scene) (callee? : Option Callee) (function : Value)
    (arguments : List Value) : Computation (List Value) :=
  if scene.stack.natives + 1 < Stack.nativeLimit then
    scene.call (scene.stack.pushNative ⟨scene.site?, callee?⟩ scene.top) function arguments
  else scene.fail "C stack overflow"

/-- Calls a function that a metatable gives for an operation. -/
def callHandler (scene : Scene) (event : String) (function : Value) (arguments : List Value) :
    Computation (List Value) :=
  scene.callNative (some ⟨event, false⟩) function arguments

/-- The scene inside a function of the library that is part of an operation. -/
def inLibrary (scene : Scene) : Scene :=
  ⟨scene.call, scene.stack.pushNative ⟨scene.site?, none⟩ scene.top, none, scene.top + 1⟩

end Scene

/-! ## Metatables -/

/-- What the metatable of a value has under a name. -/
def metafield (value : Value) (name : String) : Computation Value := do
  match value with
  | .table id =>
    let world ← get
    match (world.table id).metatable? with
    | some metatable => return (world.table metatable).get (.ofString name)
    | none => return .nil
  | _ => return .nil

/-- The name of a value's type in the errors of operators; a metatable can give it. -/
def operandName (value : Value) : Computation String := do
  match ← metafield value "__name" with
  | .string bytes => return Text.Utf8.decodeLossy bytes
  | _ => return value.operandName

/-- Raises the error of an operation on a value that it does not work on. -/
def Scene.failOn {α : Type} (scene : Scene) (operation : String) (value : Value) :
    Computation α := do
  scene.fail ("attempt to " ++ operation ++ " a " ++ (← operandName value) ++ " value")

/-! ## Calls -/

/-- The function that is called when a value is called, and its arguments: a metatable can give a
function for a value, which gets the value in front of the arguments. -/
def resolveCall (site? : Option Site) : Nat → Value → List Value → Computation Request
  | 0, _, _ => failAt site? "stack overflow"
  | bound + 1, value, arguments => do
    if value.isFunction then return ⟨value, arguments⟩
    match ← metafield value "__call" with
    | .nil => failAt site? ("attempt to call a " ++ (← operandName value) ++ " value")
    | handler => resolveCall site? bound handler (value :: arguments)

/-- The function that is called when a value is called, and its arguments. -/
def callable (site? : Option Site) (value : Value) (arguments : List Value) :
    Computation Request :=
  resolveCall site? Stack.slotLimit value arguments

/-! ## Fields -/

/-- How many metatables are followed in a row. -/
def metatableLimit : Nat := 2000

/-- Reads a value of a table itself. -/
def rawGet (id : Nat) (key : Value) : Computation Value :=
  modifyGet fun world =>
    ((world.table id).get key,
      if (world.table id).hasHint then world.touchIn id key else world)

/-- Sets a value in a table itself. -/
def rawSet (scene : Scene) (id : Nat) (key value : Value) : Computation Unit :=
  match key with
  | .nil => scene.fail "table index is nil"
  | .nan _ => scene.fail "table index is NaN"
  | _ => change fun world => world.setIn id key value

/-- Reads a field of an object; so many metatables are followed. -/
def indexWithin (scene : Scene) : Nat → Value → Value → Computation Value
  | 0, object, key => do
    let tooLong := "'__index' chain too long; possible loop"
    match object with
    | .table id =>
      let value ← rawGet id key
      if value = .nil then scene.fail tooLong else return value
    | _ => scene.fail tooLong
  | bound + 1, object, key => do
    match object with
    | .table id =>
      let value ← rawGet id key
      if value ≠ .nil then return value
      match ← metafield object "__index" with
      | .nil => return .nil
      | handler =>
        if handler.isFunction then
          return firstOf (← scene.callHandler "index" handler [object, key])
        else indexWithin scene bound handler key
    | .string _ => rawGet stringLibrary key
    | .stream => return .nil
    | _ => scene.failOn "index" object

/-- Reads a field of an object. -/
def index (scene : Scene) (object key : Value) : Computation Value :=
  indexWithin scene metatableLimit object key

/-- Writes a field of an object; so many metatables are followed. -/
def assignWithin (scene : Scene) : Nat → Value → Value → Value → Computation Unit
  | 0, object, key, value => do
    let tooLong := "'__newindex' chain too long; possible loop"
    match object with
    | .table id =>
      if (← rawGet id key) = .nil then scene.fail tooLong else rawSet scene id key value
    | _ => scene.fail tooLong
  | bound + 1, object, key, value => do
    match object with
    | .table id =>
      if (← look fun world => (world.table id).metatable?).isNone then rawSet scene id key value
      else if (← rawGet id key) ≠ .nil then rawSet scene id key value
      else match ← metafield object "__newindex" with
        | .nil => rawSet scene id key value
        | handler =>
          if handler.isFunction then
            let _ ← scene.callHandler "newindex" handler [object, key, value]
          else assignWithin scene bound handler key value
    | _ => scene.failOn "index" object

/-- Writes a field of an object. -/
def assignIndex (scene : Scene) (object key value : Value) : Computation Unit :=
  assignWithin scene metatableLimit object key value

/-! ## Arithmetic -/

/-- The name of an operator in the names of metatable fields. -/
def ArithmeticOp.name : ArithmeticOp → String
  | add => "add"
  | sub => "sub"
  | mul => "mul"
  | div => "div"
  | idiv => "idiv"
  | mod => "mod"
  | pow => "pow"
  | band => "band"
  | bor => "bor"
  | bxor => "bxor"
  | shl => "shl"
  | shr => "shr"

/-- Whether an operator works on the bits of integers. -/
def ArithmeticOp.isBitwise : ArithmeticOp → Bool
  | band | bor | bxor | shl | shr => true
  | _ => false

/-- A number as a double. -/
def floatOf : Value → Float
  | .integer n => Value.floatOfInteger n
  | .number x => x
  | .nan _ => 0.0 / 0.0
  | _ => 0.0

/-- The sign of a NaN that an operation gives: that of the first NaN among its operands, and minus
if the NaN is new. -/
def nanSign : Value → Value → Bool
  | .nan negative, _ | _, .nan negative => negative
  | _, _ => true

/-- The exact product of a double's mantissa and a power of two, as a double. -/
def exactFloat (mantissa : Nat) (exponent : Int) : Float :=
  if exponent < 0 then
    Float.ofScientific (mantissa * Nat.pow 5 (-exponent).toNat) true (-exponent).toNat
  else Float.ofScientific (mantissa * Nat.pow 2 exponent.toNat) false 0

/-- The remainder of a division of doubles, with the sign of the divisor. -/
def floatMod (a b : Float) : Float :=
  match Decimal.Binary.ofFloat a, Decimal.Binary.ofFloat b with
  | .finite negative m, .finite divisorNegative n =>
    if n.mantissa = 0 then 0.0 / 0.0
    else
      let exponent := min m.exponent n.exponent
      let left := m.mantissa * Nat.pow 2 (m.exponent - exponent).toNat
      let right := n.mantissa * Nat.pow 2 (n.exponent - exponent).toNat
      let rest := left % right
      if rest = 0 then (if negative then -0.0 else 0.0)
      else if negative = divisorNegative then
        let magnitude := exactFloat rest exponent
        if negative then -magnitude else magnitude
      else
        let magnitude := exactFloat rest exponent
        (if negative then -magnitude else magnitude) + b
  | .finite negative m, .infinite divisorNegative =>
    if negative = divisorNegative || m.mantissa = 0 then a else b
  | _, _ => 0.0 / 0.0

/-- A power of doubles; squares are products. -/
def floatPower (a b : Float) : Float := if b == 2.0 then a * a else Float.pow a b

/-- The bits of an integer moved to the left by so many places, or to the right if the number of
places is negative. -/
def shiftLeft (a places : Int64) : Int64 :=
  if places ≤ -64 ∨ 64 ≤ places then 0
  else if 0 ≤ places then a <<< places
  else (a.toUInt64 >>> (-places).toUInt64).toInt64

/-- An operator on integers; division and powers of integers are computed on doubles. -/
def integerArithmetic (op : ArithmeticOp) (a b : Int64) : Except String Value :=
  match op with
  | .add => .ok (.integer (a + b))
  | .sub => .ok (.integer (a - b))
  | .mul => .ok (.integer (a * b))
  | .div => .ok (.ofFloat (Value.floatOfInteger a / Value.floatOfInteger b) true)
  | .pow => .ok (.ofFloat (floatPower (Value.floatOfInteger a) (Value.floatOfInteger b)) true)
  | .idiv =>
    if b = 0 then .error "attempt to divide by zero"
    else .ok (.integer (Int64.ofInt (Int.fdiv a.toInt b.toInt)))
  | .mod =>
    if b = 0 then .error "attempt to perform 'n%0'"
    else .ok (.integer (Int64.ofInt (Int.fmod a.toInt b.toInt)))
  | .band => .ok (.integer (a &&& b))
  | .bor => .ok (.integer (a ||| b))
  | .bxor => .ok (.integer (a ^^^ b))
  | .shl => .ok (.integer (shiftLeft a b))
  | .shr => .ok (.integer (shiftLeft a (-b)))

/-- An operator on doubles; those on bits have no result. -/
def floatArithmetic (op : ArithmeticOp) (a b : Float) : Float :=
  match op with
  | .add => a + b
  | .sub => a - b
  | .mul => a * b
  | .div => a / b
  | .pow => floatPower a b
  | .idiv => Float.floor (a / b)
  | .mod => floatMod a b
  | .band | .bor | .bxor | .shl | .shr => 0.0 / 0.0

/-- Whether a value is a string. -/
def isString : Value → Bool
  | .string _ => true
  | _ => false

/-- Whether a value is a number. -/
def isNumber (value : Value) : Bool := value.kindName == "number"

/-- The number that a value is or, for a string, stands for. -/
def asNumber? : Value → Option Value
  | .integer n => some (.integer n)
  | .number x => some (.number x)
  | .nan negative => some (.nan negative)
  | .string bytes => Numeral.ofBytes? bytes
  | _ => none

/-- The integer that a value is or, for a string, stands for. -/
def asInteger? (value : Value) : Option Int64 :=
  match asNumber? value with
  | some (.integer n) => some n
  | some (.number x) => Value.integerOfFloat? x
  | _ => none

/-- An operator on numbers; none if one of the values is no number. -/
def numberArithmetic? (op : ArithmeticOp) (a b : Value) : Option (Except String Value) :=
  match a, b with
  | .integer a, .integer b => some (integerArithmetic op a b)
  | a, b =>
    if isNumber a && isNumber b then
      some (.ok (.ofFloat (floatArithmetic op (floatOf a) (floatOf b)) (nanSign a b)))
    else none

/-- The result of an operator on numbers, or its error. -/
def Scene.finish (scene : Scene) : Except String Value → Computation Value
  | .ok value => return value
  | .error message => scene.fail message

/-- An operator of which at least one operand is a string. Its errors are raised inside the library,
but for that of operands that are no numbers. -/
def stringArithmetic (scene : Scene) (op : ArithmeticOp) (a b : Value) : Computation Value := do
  match asNumber? a, asNumber? b with
  | some x, some y =>
    match numberArithmetic? op x y with
    | some result => scene.inLibrary.finish result
    | none => scene.failOn "perform arithmetic on" a
  | _, _ =>
    match ← metafield b ("__" ++ op.name) with
    | .nil =>
      scene.fail ("attempt to " ++ op.name ++ " a '" ++ a.kindName ++ "' with a '" ++ b.kindName
        ++ "'")
    | handler => return firstOf (← scene.inLibrary.callNative none handler [a, b])

/-- An operator that computes a number. -/
def arithmetic (scene : Scene) (op : ArithmeticOp) (a b : Value) : Computation Value := do
  match numberArithmetic? op a b with
  | some result => scene.finish result
  | none =>
    match ← metafield a ("__" ++ op.name) with
    | .nil =>
      if isString a then stringArithmetic scene op a b
      else match ← metafield b ("__" ++ op.name) with
        | .nil =>
          if isString b then stringArithmetic scene op a b
          else scene.failOn "perform arithmetic on" (if isNumber a then b else a)
        | handler => return firstOf (← scene.callHandler op.name handler [a, b])
    | handler => return firstOf (← scene.callHandler op.name handler [a, b])

/-- Raises the error of an operator on bits, whose operands have the given names, or none. It is
that of the first operand that is no number, or else of the first that is no integer. -/
def Scene.failOnBits {α : Type} (scene : Scene) (first second : String) (a b : Value) :
    Computation α :=
  if isNumber a && isNumber b then
    let name := if (asInteger? a).isSome then second else first
    scene.fail ("number" ++ name ++ " has no integer representation")
  else scene.failOn "perform bitwise operation on" (if isNumber a then b else a)

/-- An operator on bits, whose operands have the given names. -/
def bitwise (scene : Scene) (op : ArithmeticOp) (first second : String) (a b : Value) :
    Computation Value := do
  match asInteger? a, asInteger? b with
  | some x, some y => scene.finish (integerArithmetic op x y)
  | _, _ =>
    let own ← metafield a ("__" ++ op.name)
    let handler ← if own = .nil then metafield b ("__" ++ op.name) else pure own
    if handler = .nil then scene.failOnBits first second a b
    else return firstOf (← scene.callHandler op.name handler [a, b])

/-- The integer with every bit flipped. -/
def complement (scene : Scene) (name : String) (a : Value) : Computation Value := do
  match asInteger? a with
  | some n => return .integer (~~~n)
  | none =>
    match ← metafield a "__bnot" with
    | .nil => scene.failOnBits name name a a
    | handler => return firstOf (← scene.callHandler "bnot" handler [a, a])

/-- The opposite of a value. -/
def negate (scene : Scene) (a : Value) : Computation Value := do
  match asNumber? a with
  | some value => return Numeral.opposite value
  | none =>
    if isString a then scene.fail "attempt to unm a 'string' with a 'string'"
    match ← metafield a "__unm" with
    | .nil => scene.failOn "perform arithmetic on" a
    | handler => return firstOf (← scene.callHandler "unm" handler [a, a])

/-! ## Comparison -/

/-- How two lists of bytes compare: by the first byte that differs, and then by length. -/
def compareBytes : List UInt8 → List UInt8 → Ordering
  | [], [] => .eq
  | [], _ => .lt
  | _, [] => .gt
  | a :: as, b :: bs => if a < b then .lt else if b < a then .gt else compareBytes as bs

/-- How two numbers compare; a NaN does not compare. -/
def compareNumbers? : Value → Value → Option Ordering
  | .integer a, .integer b => some (compare a.toInt b.toInt)
  | .integer a, .number b => Value.compareWithFloat? a.toInt b
  | .number a, .integer b => (Value.compareWithFloat? b.toInt a).map Ordering.swap
  | .number a, .number b =>
    if a < b then some .lt else if b < a then some .gt else if a == b then some .eq else none
  | _, _ => none

/-- Whether a value is less than another, or less than or equal to it. -/
def lessThan (scene : Scene) (orEqual : Bool) (a b : Value) : Computation Bool := do
  let holds (order : Ordering) : Bool := order == .lt || (orEqual && order == .eq)
  if isNumber a && isNumber b then return (compareNumbers? a b).any holds
  match a, b with
  | .string x, .string y => return holds (compareBytes x.toList y.toList)
  | _, _ =>
    let name := if orEqual then "__le" else "__lt"
    let own ← metafield a name
    let handler ← if own = .nil then metafield b name else pure own
    if handler = .nil then
      let left ← operandName a
      let right ← operandName b
      if left = right then scene.fail ("attempt to compare two " ++ left ++ " values")
      else scene.fail ("attempt to compare " ++ left ++ " with " ++ right)
    else
      let event := if orEqual then "le" else "lt"
      return (firstOf (← scene.callHandler event handler [a, b])).truthy

/-- Whether two values are equal; the metatables of two tables can say that they are. -/
def equal (scene : Scene) (a b : Value) : Computation Bool := do
  if a.rawEqual b then return true
  match a, b with
  | .table _, .table _ =>
    let own ← metafield a "__eq"
    let handler ← if own = .nil then metafield b "__eq" else pure own
    if handler = .nil then return false
    else return (firstOf (← scene.callHandler "eq" handler [a, b])).truthy
  | _, _ => return false

/-- An operator that compares. -/
def compareValues (scene : Scene) (op : CompareOp) (a b : Value) : Computation Bool :=
  match op with
  | .eq => equal scene a b
  | .ne => do return !(← equal scene a b)
  | .lt => lessThan scene false a b
  | .le => lessThan scene true a b
  | .gt => lessThan scene false b a
  | .ge => lessThan scene true b a

/-! ## Length and concatenation -/

/-- The length of a table itself. -/
def rawLength (id : Nat) : Computation Nat :=
  modifyGet fun world => ((world.table id).length, world.rememberIn id)

/-- The length of a value. -/
def lengthOf (scene : Scene) (a : Value) : Computation Value := do
  match a with
  | .string bytes => return .integer (Int64.ofNat bytes.size)
  | _ =>
    match ← metafield a "__len" with
    | .nil =>
      match a with
      | .table id => return .integer (Int64.ofNat (← rawLength id))
      | _ => scene.failOn "get length of" a
    | handler => return firstOf (← scene.callHandler "len" handler [a, a])

/-- The bytes of a string, or of a number as text. -/
def bytes? : Value → Option ByteArray
  | .string bytes => some bytes
  | .integer n => some (Numeral.writeInteger n).toUTF8
  | .number x => some (Numeral.writeFloat x).toUTF8
  | .nan negative => some (Numeral.writeNan negative).toUTF8
  | _ => none

/-- Joins two values. -/
def join (scene : Scene) (a b : Value) : Computation Value := do
  match bytes? a, bytes? b with
  | some x, some y => return .string (x ++ y)
  | left, _ =>
    let own ← metafield a "__concat"
    let handler ← if own = .nil then metafield b "__concat" else pure own
    if handler = .nil then scene.failOn "concatenate" (if left.isSome then b else a)
    else return firstOf (← scene.callHandler "concat" handler [a, b])

/-- Joins values, from the last to the first. -/
def concatenate (scene : Scene) : List Value → Computation Value
  | [] => return .string ByteArray.empty
  | [value] => return value
  | value :: rest => do
    let tail ← concatenate scene rest
    join scene value tail

end ScriptHost.Script
