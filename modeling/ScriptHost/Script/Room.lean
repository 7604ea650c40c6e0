import ScriptHost.Script.Eval
import ScriptHost.Script.Token

/-!
# Slots of functions

A running function takes slots of the stack: one for every local variable, and further ones above
them for values that wait to be used. How many it takes at most, and in which slot each function
stands that it calls, follows from its text. The first bounds the size of functions, and both bound
how deeply calls can nest. The names that are in sight also tell whether an assignment or a jump is
allowed.

* `Room.ofScript` : the statements of a script with their slots, and how many slots they take.
* `Standing` : where a value stands after its expression.
* `Room.place` : lays out an expression above the slots that are in use.
* `Room.define`, `Room.jump` : labels, and jumps to them.
-/

namespace ScriptHost.Script

/-- Where the value of an expression stands. -/
inductive Standing where
  /-- It is known, and needs no slot yet. -/
  | constant (value : Value)
  /-- In the slot of a local variable. -/
  | own
  /-- In a variable around the function. -/
  | captured
  /-- It can be computed from what stands in the given number of slots on top. -/
  | pending (held : Nat)
  /-- It is a condition, and needs no slot to be tested. -/
  | condition
  /-- In the slot on top. -/
  | placed

namespace Standing

/-- How many slots on top are in use. -/
def held : Standing → Nat
  | pending held => held
  | placed => 1
  | _ => 0

/-- Whether a value is a number that is known. -/
def isNumeral : Standing → Bool
  | constant value => isNumber value
  | _ => false

/-- Whether a value is known. -/
def isConstant : Standing → Bool
  | constant _ => true
  | _ => false

/-- Where a value stands once it was read: what stood in slots on top makes way for it. -/
def read : Standing → Standing
  | captured | pending _ => pending 0
  | standing => standing

/-- Whether a key needs no slot because it is a short string. -/
def isName : Standing → Bool
  | constant value => Frame.isName (.constant value)
  | _ => false

/-- Whether a key needs no slot: it is a short string or a small number. -/
def isDirectKey : Standing → Bool
  | constant (.integer n) => decide (0 ≤ n ∧ n ≤ 255)
  | standing => standing.isName

/-- Whether an operand of a comparison needs no slot. -/
def isImmediate (op : CompareOp) (standing : Standing) : Bool :=
  match op, standing with
  | .eq, standing | .ne, standing => standing.isConstant
  | _, constant (.integer n) => decide (-127 ≤ n ∧ n ≤ 128)
  | _, constant (.number x) =>
    (Value.integerOfFloat? x).any fun n => decide (-127 ≤ n ∧ n ≤ 128)
  | _, _ => false

/-- The value of an operator on numbers that are known, if it is computed beforehand: neither NaN
nor zero as a double, nor a division by zero. -/
def fold? (op : ArithmeticOp) (a b : Standing) : Option Value :=
  match a, b with
  | constant a, constant b =>
    let divides := op matches .div | .idiv | .mod
    if !isNumber a || !isNumber b || (divides && floatOf b == 0.0) then none
    else if op.isBitwise then do
      (integerArithmetic op (← asInteger? a) (← asInteger? b)).toOption
    else match numberArithmetic? op a b with
      | some (.ok (.integer n)) => some (.integer n)
      | some (.ok (.number x)) => if x == 0.0 then none else some (.number x)
      | _ => none
  | _, _ => none

/-- Whether a value is a known integer of a byte with a sign. -/
def isSmall : Standing → Bool
  | constant (.integer n) => decide (-127 ≤ n ∧ n ≤ 128)
  | _ => false

/-- Whether a value is a known integer. -/
def isInteger : Standing → Bool
  | constant (.integer _) => true
  | _ => false

/-- Whether the left operand of an operator needs no slot, because the operands change places. -/
def fitsLeft (op : ArithmeticOp) (left right : Standing) : Bool :=
  match op with
  | .add | .mul => left.isNumeral && !right.isNumeral
  | .band | .bor | .bxor => left.isInteger
  | .shl => left.isSmall
  | _ => false

/-- Whether the right operand of an operator needs no slot. -/
def fitsRight (op : ArithmeticOp) (right : Standing) : Bool :=
  match op with
  | .band | .bor | .bxor => right.isInteger
  | .shl | .shr => right.isSmall
  | _ => right.isNumeral

end Standing

namespace Room

/-- A local variable in sight. -/
structure Visible where
  name : String
  attribute? : Option Attribute := none
  /-- The value, if it is known from the text. Then the variable has no slot. -/
  known? : Option Value := none

/-- The variables that an expression sees. -/
structure Names where
  /-- The local variables of the function, the latest first. -/
  own : List Visible := []
  /-- The local variables around the function. -/
  outer : List Visible := []
  /-- How many variables of the function are in sight in front of the block around. -/
  around : Nat := 0

/-- The slot behind those of the local variables. -/
def Names.height (names : Names) : Nat := names.own.countP (·.known?.isNone)

/-- A local variable by its name. -/
def Names.find? (names : Names) (name : String) : Option Visible :=
  (names.own ++ names.outer).find? (·.name == name)

/-- What is known of a function while it is laid out. -/
structure Progress where
  /-- How many slots were taken so far. -/
  taken : Nat
  /-- The labels in sight. -/
  labels : List String := []
  /-- The jumps of the block to labels that were not in sight, each with the number of variables
  that were. -/
  jumps : List (String × Nat) := []
  /-- The variables around the function that it uses. They are counted from the outermost on, and
  the variable that holds the globals is number zero unless the script names it. -/
  captured : List Nat := []

/-- A step of laying out a function. -/
abbrev Layout := StateT Progress (Except ParseError)

/-- How many slots a function may take, plus one. -/
def slotLimit : Nat := 255

/-- How many local variables a function may have at a time. -/
def localLimit : Nat := 200

/-- How many variables around it a function may use. -/
def captureLimit : Nat := 255

/-- The slots that every function takes. -/
def least : Nat := 2

/-- Takes all slots below `top`. -/
def reserve (top : Nat) : Layout Unit := do
  if (← get).taken < top then
    if slotLimit ≤ top then throw (.tooMany "slots")
    modify fun progress => { progress with taken := top }

/-- Uses a variable around the function. -/
def capture (number : Nat) : Layout Unit := do
  let progress ← get
  if !progress.captured.contains number then
    if captureLimit ≤ progress.captured.length then throw (.tooMany "captured variables")
    set { progress with captured := number :: progress.captured }

/-- Uses the variable around the function that has a name. -/
def captureName (names : Names) (name : String) : Layout Unit :=
  capture (names.outer.length - names.outer.findIdx (·.name == name))

/-- Gives a value a slot of its own, unless it has one. -/
def settle (free : Nat) : Standing → Layout Standing
  | .own => return .own
  | .placed => return .placed
  | _ => do
    reserve (free + 1)
    return .placed

/-- Assigns a value to a target, which may take it from where it stands. -/
def settleFor (free : Nat) (target value : Standing) : Layout Unit := do
  match target with
  | .own => return ()
  | .captured =>
    let _ ← settle free value
  | _ =>
    if !value.isConstant then
      let _ ← settle free value

/-- Tests a value, and goes on with what follows if it counts as `sense`. -/
def test (free : Nat) (sense : Bool) : Standing → Layout Unit
  | .condition => return ()
  | .constant value => if value.truthy = sense then return () else reserve (free + 1)
  | standing => do
    let _ ← settle free standing

/-- Where the value of a look-up stands. -/
def ofField (free : Nat) (object key : Standing) : Layout Standing := do
  let objectHeld :=
    match object with
    | .captured => if key.isName then 0 else 1
    | standing => standing.held
  let keyHeld ←
    if key.isDirectKey then pure 0 else do pure (← settle (free + objectHeld) key).held
  reserve (free + objectHeld + keyHeld)
  return .pending (objectHeld + keyHeld)

/-- The name of the variable that holds the globals. -/
def environmentName : String := "_ENV"

/-- Lays out a name. A name that is no local variable is that of a global; globals are fields of the
variable that holds them, if a script names that variable. -/
def ofName (names : Names) (free : Nat) (name : String) (line : Nat) :
    Layout (Expr × Standing) := do
  if let some ⟨_, _, known?⟩ := names.own.find? (·.name == name) then
    return (.name name line, (known?.map Standing.constant).getD .own)
  if let some ⟨_, _, known?⟩ := names.outer.find? (·.name == name) then
    if let some value := known? then return (.name name line, .constant value)
    captureName names name
    return (.name name line, .captured)
  if (names.find? environmentName).isSome then
    let key : Value := .ofString name
    let isOwn := names.own.any (·.name == environmentName)
    if !isOwn then captureName names environmentName
    return (.index (.name environmentName line) (.constant key) line,
      ← ofField free (if isOwn then .own else .captured) (.constant key))
  capture 0
  if name.utf8ByteSize ≤ 40 then return (.name name line, .pending 0)
  reserve (free + 2)
  return (.name name line, .pending 2)

/-- Lays out an operator that computes a number from operands that were laid out. -/
def ofArithmetic (free : Nat) (op : ArithmeticOp) (left right : Standing) : Layout Standing := do
  match left.fold? op right with
  | some value => return .constant value
  | none =>
    let rightFits := right.fitsRight op
    let right ← if rightFits then pure right else settle (free + left.held) right
    if left.isNumeral && !left.fitsLeft op right then reserve (free + right.held + 1)
    return .pending 0

/-- Lays out an operator that compares operands that were laid out. -/
def ofComparison (free : Nat) (op : CompareOp) (left right : Standing) : Layout Standing := do
  if !right.isImmediate op then
    let _ ← settle (free + left.held) right
  else if left.isImmediate op then reserve (free + 1)
  return .condition

/-- Lays out an operator on one value that was laid out. -/
def ofUnary (free : Nat) (op : UnaryOp) (operand : Standing) : Layout Standing := do
  match op, operand with
  | .negate, .constant (.integer n) => return .constant (.integer (-n))
  | .negate, .constant (.number x) =>
    if x == 0.0 then reserve (free + 1)
    return if x == 0.0 then .pending 0 else .constant (.number (-x))
  | .complement, .constant value =>
    match if isNumber value then asInteger? value else none with
    | some n => return .constant (.integer (~~~n))
    | none =>
      reserve (free + 1)
      return .pending 0
  | .not, .constant value => return .constant (.boolean !value.truthy)
  | .not, .condition => return .condition
  | op, operand =>
    let _ ← settle free operand
    return if op = .not then .condition else .pending 0

/-- Where the value of `and` and `or` stands, the right operand of which may not be reached. -/
def ofEither : Standing → Standing
  | .placed => .placed
  | .condition => .condition
  | _ => .pending 0

/-- Local variables that a script cannot name. -/
def hidden (count : Nat) : List Visible := List.replicate count ⟨"", none, none⟩

/-- Adds local variables. -/
def declare (names : Names) (added : List Visible) : Layout Names := do
  let own := added.reverse ++ names.own
  if localLimit < own.length then throw (.tooMany "local variables")
  return { names with own }

/-- The variables that a declaration adds. The last of them is known if it is constant and its
value, which is the last of as many values, is known. -/
def declared (added : List LocalName) (values : List Expr) (last : Standing) : List Visible :=
  let plain (name : LocalName) : Visible := ⟨name.name, name.attribute?, none⟩
  match added.getLast?, last with
  | some ⟨name, some .constant⟩, .constant value =>
    if added.length = values.length then
      added.dropLast.map plain ++ [⟨name, some .constant, some value⟩]
    else added.map plain
  | _, _ => added.map plain

/-- Gives a slot to the last of some expressions too, which stand from slot `free` on. -/
def settleAll (free : Nat) (exprs : Layout (List Expr × Standing)) : Layout (List Expr) := do
  let (exprs, _) ← exprs
  reserve (free + exprs.length)
  return exprs

/-! ## Blocks and functions -/

/-- A jump to a label. If the label is not in sight, it has to follow in one of the blocks
around. -/
def jump (names : Names) (label : String) : Layout Unit :=
  modify fun progress =>
    if progress.labels.contains label then progress
    else { progress with jumps := (label, names.own.length) :: progress.jumps }

/-- A label. No label of its name may be in sight, and no jump to it may skip the declaration of a
variable that it sees. At the end of a block a label sees no variable of the block. -/
def define (names : Names) (label : String) (atEnd : Bool) : Layout Unit := do
  let progress ← get
  let count := if atEnd then names.around else names.own.length
  if progress.labels.contains label then throw (.malformed 0 "label defined twice")
  if progress.jumps.any fun jump => jump.1 == label && jump.2 < count then
    throw (.malformed 0 "jump into the scope of a local variable")
  set { progress with
    labels := label :: progress.labels
    jumps := progress.jumps.filter (·.1 != label) }

/-- Lays out a block. Its labels are not in sight behind it, and its jumps become those of the block
around. -/
def inBlock (names : Names) (body : Names → Layout (List Stat)) : Layout (List Stat) := do
  let before ← get
  let count := names.own.length
  set { before with jumps := [] }
  let stats ← body { names with around := count }
  modify fun progress => { progress with
    labels := before.labels
    jumps := progress.jumps.map (fun jump => (jump.1, min jump.2 count)) ++ before.jumps }
  return stats

/-- Lays out the body of a function, and gives the number of slots that the function takes. -/
def inFunction (names : Names) (parameters : List String)
    (body : Names → Layout (List Stat)) : Layout (List Stat × Nat) := do
  let inner ← declare { outer := names.own ++ names.outer }
    (parameters.map fun name => ⟨name, none, none⟩)
  let before ← get
  set ({ taken := least } : Progress)
  reserve parameters.length
  let stats ← body inner
  let progress ← get
  if !progress.jumps.isEmpty then throw (.malformed 0 "no label in sight")
  set before
  (progress.captured.filter (· ≤ names.outer.length)).forM capture
  return (stats, progress.taken)

/-- Nothing is assigned to a constant variable. -/
def checkTarget (names : Names) : Expr → Layout Unit
  | .name name line =>
    if ((names.find? name).bind Visible.attribute?).isSome then
      throw (.malformed line "assignment to a constant variable")
    else return ()
  | _ => return ()

mutual

/-- Lays out an expression, from slot `free` on. -/
def place (names : Names) (free : Nat) : Expr → Layout (Expr × Standing)
  | .constant value => return (.constant value, .constant value)
  | .varargs => return (.varargs, .pending 0)
  | .name name line => ofName names free name line
  | .index object key line => do
    let (object, objectAt) ← place names free object
    let objectAt ←
      match objectAt with
      | .captured => pure .captured
      | standing => settle free standing
    let (key, keyAt) ← place names (free + objectAt.held) key
    return (.index object key line, ← ofField free objectAt keyAt.read)
  | .call function arguments line _ => do
    let (function, _) ← place names free function
    reserve (free + 1)
    let arguments ← settleAll (free + 1) (placeList names (free + 1) arguments)
    return (.call function arguments line free, .placed)
  | .callMethod object name arguments found line _ => do
    let (object, objectAt) ← place names free object
    let _ ← settle free objectAt
    reserve (free + 2)
    let arguments ← settleAll (free + 2) (placeList names (free + 2) arguments)
    return (.callMethod object name arguments found line free, .placed)
  | .function parameters vararg body _ => do
    let (body, room) ← inFunction names parameters fun inner => placeBlock inner body
    reserve (free + 1)
    return (.function parameters vararg body room, .placed)
  | .unary op operand line => do
    let (operand, operandAt) ← place names free operand
    return (.unary op operand line, ← ofUnary free op operandAt.read)
  | .arithmetic op left right line => do
    let (left, leftAt) ← place names free left
    let leftAt ← if leftAt.isNumeral then pure leftAt else settle free leftAt
    let (right, rightAt) ← place names (free + leftAt.held) right
    return (.arithmetic op left right line, ← ofArithmetic free op leftAt rightAt.read)
  | .compare op left right line => do
    let (left, leftAt) ← place names free left
    let leftAt ← if leftAt.isImmediate op then pure leftAt else settle free leftAt
    let (right, rightAt) ← place names (free + leftAt.held) right
    return (.compare op left right line, ← ofComparison free op leftAt rightAt.read)
  | .and left right => do
    let (left, leftAt) ← place names free left
    test free true leftAt.read
    let (right, rightAt) ← place names free right
    return (.and left right, ofEither rightAt)
  | .or left right => do
    let (left, leftAt) ← place names free left
    test free false leftAt.read
    let (right, rightAt) ← place names free right
    return (.or left right, ofEither rightAt)
  | .concat operands line => do
    return (.concat (← settleAll free (placeList names free operands)) line, .placed)
  | .table items => do
    reserve (free + 1)
    return (.table (← placeItems names (free + 1) 0 items), .placed)
  | .single inner => do
    let (inner, innerAt) ← place names free inner
    return (.single inner, innerAt.read)

/-- Lays out expressions that each take a slot, but for the last: where that stands. -/
def placeList (names : Names) (free : Nat) : List Expr → Layout (List Expr × Standing)
  | [] => return ([], .own)
  | [last] => do
    let (last, lastAt) ← place names free last
    return ([last], lastAt)
  | first :: rest => do
    let (first, _) ← place names free first
    reserve (free + 1)
    let (rest, lastAt) ← placeList names (free + 1) rest
    return (first :: rest, lastAt)

/-- Lays out the items of a table, of which `count` wait in slots from `free` on. -/
def placeItems (names : Names) (free count : Nat) : List Item → Layout (List Item)
  | [] => return []
  | .positional value :: rest => do
    let count := if count = batchSize then 0 else count
    let (value, _) ← place names (free + count) value
    reserve (free + count + 1)
    return .positional value :: (← placeItems names free (count + 1) rest)
  | .keyed key value line :: rest => do
    let count := if count = batchSize then 0 else count
    let top := free + count
    let (key, keyAt) ← place names top key
    let keyAt := keyAt.read
    let keyHeld ← if keyAt.isDirectKey then pure 0 else do pure (← settle top keyAt).held
    let (value, valueAt) ← place names (top + keyHeld) value
    if !valueAt.isConstant then
      let _ ← settle (top + keyHeld) valueAt
    return .keyed key value line :: (← placeItems names free count rest)

/-- Lays out the targets of an assignment: where the last of them stands, and the first slot above
all of them. -/
def placeTargets (names : Names) (free : Nat) (last : Standing) :
    List Expr → Layout (List Expr × Standing × Nat)
  | [] => return ([], last, free)
  | first :: rest => do
    checkTarget names first
    let (first, firstAt) ← place names free first
    let (rest, last, top) ← placeTargets names (free + firstAt.held) firstAt rest
    return (first :: rest, last, top)

/-- Lays out a statement, and gives the names behind it. -/
def placeStat (names : Names) (stat : Stat) : Layout (Stat × Names) := do
  let free := names.height
  match stat with
  | .declare added values line =>
    let (values, lastAt) ← placeList names free values
    let visible := declared added values lastAt
    let inner ← declare names visible
    reserve (free + visible.countP (·.known?.isNone))
    if visible.all (·.known?.isNone) then reserve (free + values.length)
    return (.declare added values line, inner)
  | .assign targets values line =>
    let (targets, target, top) ← placeTargets names free (.pending 0) targets
    let (values, lastAt) ← placeList names top values
    if targets.length = values.length then settleFor (top + values.length - 1) target lastAt
    else
      reserve (top + values.length)
      reserve (top + targets.length)
    return (.assign targets values line, names)
  | .call call =>
    let (call, _) ← place names free call
    return (.call call, names)
  | .block body => return (.block (← inBlock names fun names => placeBlock names body), names)
  | .whileLoop condition body =>
    let (condition, conditionAt) ← place names free condition
    test free true conditionAt.read
    return (.whileLoop condition (← inBlock names fun names => placeBlock names body), names)
  | .repeatLoop body =>
    return (.repeatLoop (← inBlock names fun names => placeBlock names body), names)
  | .ifElse condition body otherwise =>
    let (condition, conditionAt) ← place names free condition
    test free true conditionAt.read
    let body ← inBlock names fun names => placeBlock names body
    let otherwise ← inBlock names fun names => placeBlock names otherwise
    return (.ifElse condition body otherwise, names)
  | .numericFor name first last step body line =>
    let inner ← declare names (hidden 3 ++ [⟨name, none, none⟩])
    let (first, _) ← place names free first
    reserve (free + 1)
    let (last, _) ← place names (free + 1) last
    reserve (free + 2)
    let (step, _) ← place names (free + 2) step
    reserve (free + 4)
    let body ← inBlock inner fun inner => placeBlock inner body
    return (.numericFor name first last step body line, names)
  | .genericFor added values body line _ =>
    let inner ← declare names (hidden 4 ++ added.map fun name => ⟨name, none, none⟩)
    let values ← settleAll free (placeList names free values)
    reserve (free + 7)
    reserve (free + 4 + added.length)
    let body ← inBlock inner fun inner => placeBlock inner body
    return (.genericFor added values body line (free + 4), names)
  | .localFunction name parameters vararg body _ =>
    let inner ← declare names [⟨name, none, none⟩]
    let (body, room) ← inFunction inner parameters fun inner => placeBlock inner body
    reserve (free + 1)
    return (.localFunction name parameters vararg body room, inner)
  | .returnValues [value] =>
    let (value, valueAt) ← place names free value
    let _ ← settle free valueAt
    return (.returnValues [value], names)
  | .returnValues values =>
    return (.returnValues (← settleAll free (placeList names free values)), names)
  | .returnCall call =>
    let (call, _) ← place names free call
    return (.returnCall call, names)
  | .breakLoop => return (.breakLoop, names)
  | .jump label =>
    jump names label
    return (.jump label, names)
  | .label name => return (.label name, names)
  | .leaveIf condition =>
    let (condition, conditionAt) ← place names free condition
    test free true conditionAt.read
    return (.leaveIf condition, names)

/-- Lays out statements, each with the names that those in front of it leave. -/
def placeBlock (names : Names) : List Stat → Layout (List Stat)
  | [] => return []
  | .label name :: rest => do
    define names name (rest.all Stat.isLabel)
    return .label name :: (← placeBlock names rest)
  | first :: rest => do
    let (first, inner) ← placeStat names first
    return first :: (← placeBlock inner rest)

end

/-- The statements of a script with their slots, and how many slots they take. The script may see
the variable that holds the globals. -/
def ofScript (environment : Bool) (body : List Stat) : Except ParseError (List Stat × Nat) := do
  let outer : List Visible := if environment then [⟨environmentName, none, none⟩] else []
  (inFunction { outer } [] fun names => placeBlock names body).run' { taken := least }

end Room

end ScriptHost.Script
