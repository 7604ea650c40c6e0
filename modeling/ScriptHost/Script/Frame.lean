import ScriptHost.Script.Flow

/-!
# Frames

What is around the statements of a function that runs: its variables, its arguments, and the calls
that are under way.

A local variable of the function itself is no value of its own while it is an operand: it is read
when the operator is carried out, after the other operand. The same holds for the parts of the
targets of an assignment.

* `Frame` : what is around a statement or an expression.
* `Frame.enter` : the frame of the body of a function that is called.
* `Frame.operand`, `Frame.object` : operands that are read late.
* `Target` : the targets of assignments.
-/

namespace ScriptHost.Script

/-- What is around a statement or an expression. -/
structure Frame where
  call : Caller
  /-- The calls that are under way; the latest is that of the function around. -/
  stack : Stack
  /-- The first slot of the function. -/
  base : Nat
  /-- How many slots the function takes. -/
  room : Nat
  /-- The local variables of the function, the innermost first, by number. -/
  locals : List (String × Nat)
  /-- The local variables around the function, the innermost first, by number. -/
  captured : List (String × Nat)
  /-- The arguments beyond the parameters. -/
  varargs : List Value
  chunk : String

/-- The object or the key of a target. -/
inductive Part where
  | known (value : Value)
  /-- A variable that is read when the assignment takes place. -/
  | pending (id : Nat)

/-- A target of an assignment. -/
inductive Target where
  | localVariable (id : Nat)
  | field (object key : Part)

/-- The name of a constant key in the errors of operators. -/
def keyName : Expr → String
  | .constant (.string bytes) => Text.Utf8.decodeLossy bytes
  | .constant (.integer n) => if 0 ≤ n ∧ n ≤ 255 then "integer index" else "?"
  | _ => "?"

/-- What a called function is known by: its name, or the key that it was found under. -/
def calleeOf : Expr → Option Callee
  | .name text _ => some ⟨text, false⟩
  | .index _ key _ => some ⟨keyName key, false⟩
  | .single inner => calleeOf inner
  | _ => none

namespace Frame

/-- The scene of an operation on a line. -/
def scene (frame : Frame) (line : Nat) : Scene :=
  ⟨frame.call, frame.stack, some ⟨frame.chunk, line⟩, frame.base + frame.room⟩

/-- The calls that are under way while a function in a slot is called. -/
def stackFor (frame : Frame) (line slot : Nat) (callee? : Option Callee) : Stack :=
  frame.stack.push ⟨some ⟨frame.chunk, line⟩, callee?⟩ (frame.base + slot)

/-- Ends the function with a call. A function of the script takes its place; others are called on
the given stack. -/
def passOn (frame : Frame) (stack : Stack) (function : Value) (arguments : List Value) :
    Computation Flow := do
  let request ← callable stack.site? function arguments
  match request.function with
  | .closure _ => return .passed request
  | function => return .returned (← frame.call stack function request.arguments)

/-- Adds declared variables with the given values. -/
def declare (frame : Frame) : List LocalName → List Value → Computation Frame
  | [], _ => return frame
  | ⟨name, _⟩ :: names, values => do
    let id ← makeVariable (firstOf values)
    declare { frame with locals := (name, id) :: frame.locals } names values.tail

/-- Adds local variables with the given values. -/
def bind (frame : Frame) : List String → List Value → Computation Frame
  | [], _ => return frame
  | name :: names, values => do
    let id ← makeVariable (firstOf values)
    bind { frame with locals := (name, id) :: frame.locals } names values.tail

/-- A function with the given text, which sees the variables of the frame. -/
def closure (frame : Frame) (parameters : List String) (vararg : Bool) (body : List Stat)
    (room : Nat) : Closure :=
  ⟨parameters, vararg, body, room, frame.locals ++ frame.captured, frame.chunk⟩

/-- Adds a local variable that holds a function, which sees that variable too. -/
@[noinline] def bindFunction (frame : Frame) (name : String) (parameters : List String)
    (vararg : Bool) (body : List Stat) (room : Nat) : Computation Frame := do
  let id ← makeVariable .nil
  let frame := { frame with locals := (name, id) :: frame.locals }
  let function ← makeFunction (frame.closure parameters vararg body room)
  change fun world => world.setVariable id function
  return frame

/-- A variable by its name. -/
def resolve? (frame : Frame) (name : String) : Option Nat :=
  match frame.locals.lookup name with
  | some id => some id
  | none => frame.captured.lookup name

/-- The variable of the function itself that an expression consists of, perhaps in parentheses. -/
def own? (frame : Frame) (expr : Expr) : Option Nat :=
  match expr.name? with
  | some name => frame.locals.lookup name
  | none => none

/-- The variable around the function that an expression consists of. -/
def captured? (frame : Frame) (expr : Expr) : Option Nat :=
  match expr with
  | .name name _ =>
    if (frame.locals.lookup name).isSome then none else frame.captured.lookup name
  | _ => none

/-- What errors call an operand, with a blank in front; nothing if it has no name. -/
def describe (frame : Frame) : Expr → String
  | .name name _ =>
    let kind :=
      if (frame.locals.lookup name).isSome then "local"
      else if (frame.captured.lookup name).isSome then "upvalue"
      else "global"
    " (" ++ kind ++ " '" ++ name ++ "')"
  | .index (.name "_ENV" _) key _ => " (global '" ++ keyName key ++ "')"
  | .index _ key _ => " (field '" ++ keyName key ++ "')"
  | .single inner => frame.describe inner
  | _ => ""

/-- The value of a variable. -/
def lookup (frame : Frame) (name : String) (line : Nat) : Computation Value := do
  match frame.resolve? name with
  | some id => look fun world => world.getVariable id
  | none => index (frame.scene line) (.table World.globals) (.ofString name)

/-- The value of an operand once the other operand was evaluated. -/
def operand (frame : Frame) (expr : Expr) (value : Value) : Computation Value :=
  match frame.own? expr with
  | some id => look fun world => world.getVariable id
  | none => return value

/-- The value of an object once its key was evaluated. -/
def object (frame : Frame) (expr : Expr) (value : Value) : Computation Value :=
  match frame.captured? expr with
  | some id => look fun world => world.getVariable id
  | none => frame.operand expr value

/-- Whether a key is a constant string that is looked up without being evaluated. -/
def isName : Expr → Bool
  | .constant (.string bytes) => bytes.size ≤ 40
  | _ => false

/-- The target of a look-up whose object and key were evaluated. -/
def fieldTarget (frame : Frame) (object key : Expr) (objectValue keyValue : Value) :
    Computation Target := do
  let keyPart := ((frame.own? key).map Part.pending).getD (.known keyValue)
  match frame.own? object with
  | some id => return .field (.pending id) keyPart
  | none =>
    match frame.captured? object with
    | none => return .field (.known objectValue) keyPart
    | some id =>
      if isName key then return .field (.pending id) keyPart
      else return .field (.known (← look fun world => world.getVariable id)) keyPart

/-- The target of a name. -/
def nameTarget (frame : Frame) (name : String) : Target :=
  match frame.resolve? name with
  | some id => .localVariable id
  | none => .field (.known (.table World.globals)) (.known (.ofString name))

end Frame

namespace Part

/-- The value of a part. -/
def value : Part → Computation Value
  | known value => return value
  | pending id => look fun world => world.getVariable id

/-- A part of a target in front of the variable `id`, which is a target too. -/
def settle (id : Nat) : Part → Computation Part
  | pending other =>
    if other = id then return .known (← look fun world => world.getVariable id)
    else return .pending other
  | part => return part

end Part

namespace Target

/-- Assigns to a target, on the line of the scene. -/
def store (scene : Scene) (target : Target) (value : Value) : Computation Unit := do
  match target with
  | localVariable id => change fun world => world.setVariable id value
  | field object key => assignIndex scene (← object.value) (← key.value) value

/-- Targets in front of another one: when that is a variable, they use the value that it has. -/
def settleAll (next : Target) : List Target → Computation (List Target)
  | [] => return []
  | target :: targets => do
    let first ←
      match target, next with
      | field object key, localVariable id => do
        pure (field (← object.settle id) (← key.settle id))
      | other, _ => pure other
    return first :: (← settleAll next targets)

end Target

/-- Assigns values to targets, from the last to the first. -/
def storeAll (scene : Scene) : List Target → List Value → Computation Unit
  | [], _ => return ()
  | target :: targets, values => do
    storeAll scene targets values.tail
    target.store scene (firstOf values)

/-! ## Calls -/

/-- The first slot of a function that is called with so many arguments. The slots of a function that
takes any number of arguments come behind all of them. -/
def Closure.base (function : Closure) (stack : Stack) (count : Nat) : Nat :=
  if function.vararg then stack.height + 2 + max count function.parameters.length
  else stack.height + 1

/-- The frame of the body of a function that is called with some arguments; its call is the latest
of the stack. -/
def Frame.enter (call : Caller) (stack : Stack) (function : Closure) (arguments : List Value) :
    Computation Frame := do
  let count := function.parameters.length
  let given := arguments.length
  let base := function.base stack given
  if Stack.slotLimit < max base (stack.height + 1 + given) + function.room then
    failAt stack.site? "stack overflow"
  let outer : Frame :=
    { call, stack, base
      room := function.room
      locals := []
      captured := function.scope
      varargs := if function.vararg then arguments.drop count else []
      chunk := function.chunk }
  outer.bind function.parameters arguments

end ScriptHost.Script
