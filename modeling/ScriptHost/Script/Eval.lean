import ScriptHost.Script.Frame

/-!
# Evaluation

What expressions and statements do. Evaluation follows the syntax; calls of functions are made
through the frame, so that only calls can nest without a bound.

* `values` : the meaning of an expression.
* `execute` : the meaning of statements.
-/

namespace ScriptHost.Script

/-! ## Tables -/

/-- How many values are kept back before they are set in a table at once. -/
def batchSize : Nat := 50

/-- How many items of a constructor have no key, and how many have one. Of a last item with any
number of values the number is not known. -/
def itemCounts : List Item → Nat × Nat
  | [] => (0, 0)
  | [.positional last] => (if last.isMultiple then 0 else 1, 0)
  | .positional _ :: rest => ((itemCounts rest).1 + 1, (itemCounts rest).2)
  | .keyed .. :: rest => ((itemCounts rest).1, (itemCounts rest).2 + 1)

/-- Makes a table that has room for some items. -/
def makeTableFor (items : List Item) : Computation Nat := do
  let id ← makeTable
  let (positional, keyed) := itemCounts items
  if 0 < positional + keyed then change fun world => world.layOutIn id positional keyed
  return id

/-- Values of a table that are kept back; the table has `start` items in front of them. -/
structure Batch where
  start : Nat := 0
  /-- The values, the latest first. -/
  values : List Value := []
  count : Nat := 0

namespace Batch

/-- Adds a value. -/
def add (batch : Batch) (value : Value) : Batch :=
  { batch with values := value :: batch.values, count := batch.count + 1 }

/-- Sets the values, and further ones behind them, in a table. -/
def flush (batch : Batch) (id : Nat) (further : List Value) : Computation Unit :=
  change fun world => world.fillIn id batch.start (batch.values.reverse ++ further)

/-- Sets the values in a table if they are enough. -/
def flushFull (batch : Batch) (id : Nat) : Computation Batch := do
  if batch.count < batchSize then return batch
  batch.flush id []
  return { start := batch.start + batch.count }

end Batch

/-! ## Expressions and statements -/

mutual

/-- The values of an expression: one, but for calls and `...`. -/
def values (frame : Frame) : Expr → Computation (List Value)
  | .constant value => return [value]
  | .varargs => return frame.varargs
  | .name name line => return [← frame.lookup name line]
  | .index object key line => do
    let objectValue := firstOf (← values frame object)
    let keyValue := firstOf (← values frame key)
    return [← index (frame.scene line) (← frame.object object objectValue) keyValue]
  | .call function arguments line slot => do
    let functionValue := firstOf (← values frame function)
    let arguments ← valuesOf frame arguments
    frame.call (frame.stackFor line slot (calleeOf function)) functionValue arguments
  | .callMethod object name arguments found line slot => do
    let object := firstOf (← values frame object)
    let function ← index (frame.scene found) object (.ofString name)
    let arguments ← valuesOf frame arguments
    frame.call (frame.stackFor line slot (some ⟨name, true⟩)) function (object :: arguments)
  | .function parameters vararg body room => do
    return [← makeFunction (frame.closure parameters vararg body room)]
  | .unary op operand line => do
    let value := firstOf (← values frame operand)
    match op with
    | .not => return [.boolean !value.truthy]
    | .negate => return [← negate (frame.scene line) value]
    | .complement => return [← complement (frame.scene line) (frame.describe operand) value]
    | .length => return [← lengthOf (frame.scene line) value]
  | .arithmetic op left right line => do
    let leftValue := firstOf (← values frame left)
    let rightValue := firstOf (← values frame right)
    let leftValue ← frame.operand left leftValue
    if op.isBitwise then
      let (first, second) := (frame.describe left, frame.describe right)
      return [← bitwise (frame.scene line) op first second leftValue rightValue]
    else return [← arithmetic (frame.scene line) op leftValue rightValue]
  | .compare op left right line => do
    let leftValue := firstOf (← values frame left)
    let rightValue := firstOf (← values frame right)
    let leftValue ← frame.operand left leftValue
    return [.boolean (← compareValues (frame.scene line) op leftValue rightValue)]
  | .and left right => do
    let left := firstOf (← values frame left)
    if left.truthy then return [firstOf (← values frame right)] else return [left]
  | .or left right => do
    let left := firstOf (← values frame left)
    if left.truthy then return [left] else return [firstOf (← values frame right)]
  | .concat operands line => do
    let operands ← singleValues frame operands
    return [← concatenate (frame.scene line) operands]
  | .table items => do
    let id ← makeTableFor items
    fillItems frame id {} items
    return [.table id]
  | .single inner => return [firstOf (← values frame inner)]

/-- The values of some expressions: one of each, and all of the last. -/
def valuesOf (frame : Frame) : List Expr → Computation (List Value)
  | [] => return []
  | [last] => values frame last
  | first :: rest => do
    let value := firstOf (← values frame first)
    return value :: (← valuesOf frame rest)

/-- One value of each of some expressions. -/
def singleValues (frame : Frame) : List Expr → Computation (List Value)
  | [] => return []
  | first :: rest => do
    let value := firstOf (← values frame first)
    return value :: (← singleValues frame rest)

/-- Sets the items of a table: those with a key one by one, and those without in batches. -/
def fillItems (frame : Frame) (id : Nat) (batch : Batch) : List Item → Computation Unit
  | [] => batch.flush id []
  | [.positional last] => do
    let batch ← batch.flushFull id
    let values ← values frame last
    batch.flush id (if last.isMultiple then values else [firstOf values])
  | .positional first :: rest => do
    let batch ← batch.flushFull id
    let value := firstOf (← values frame first)
    fillItems frame id (batch.add value) rest
  | .keyed key value line :: rest => do
    let batch ← batch.flushFull id
    let keyValue := firstOf (← values frame key)
    let value := firstOf (← values frame value)
    rawSet (frame.scene line) id (← frame.operand key keyValue) value
    fillItems frame id batch rest

/-- The targets that some expressions name, behind those that are known, the latest of which is the
first. -/
def targetsOf (frame : Frame) (known : List Target) : List Expr → Computation (List Target)
  | [] => return known.reverse
  | .name name _ :: rest => do
    let target := frame.nameTarget name
    targetsOf frame (target :: (← target.settleAll known)) rest
  | .index object key _ :: rest => do
    let objectValue := firstOf (← values frame object)
    let keyValue := firstOf (← values frame key)
    targetsOf frame ((← frame.fieldTarget object key objectValue keyValue) :: known) rest
  | _ :: rest => targetsOf frame known rest

/-- Runs statements one after the other, and says how they end. -/
def execute (frame : Frame) : List Stat → Computation Flow
  | [] => return .next
  | .declare names exprs line :: rest => do
    let values ← valuesOf frame exprs
    let inner ← frame.declare names values
    match closing? names values with
    | none => execute inner rest
    | some (name, value) => closeAfter (frame.scene line) name value (execute inner rest)
  | .assign targets exprs line :: rest => do
    let targets ← targetsOf frame [] targets
    let values ← valuesOf frame exprs
    storeAll (frame.scene line) targets values
    execute frame rest
  | .call call :: rest => do
    let _ ← values frame call
    execute frame rest
  | .localFunction name parameters vararg body room :: rest => do
    execute (← frame.bindFunction name parameters vararg body room) rest
  | .returnValues exprs :: _ => do return .returned (← valuesOf frame exprs)
  | .returnCall (.call function arguments line slot) :: _ => do
    let functionValue := firstOf (← values frame function)
    let arguments ← valuesOf frame arguments
    frame.passOn (frame.stackFor line slot (calleeOf function)) functionValue arguments
  | .returnCall (.callMethod object name arguments found line slot) :: _ => do
    let object := firstOf (← values frame object)
    let function ← index (frame.scene found) object (.ofString name)
    let arguments ← valuesOf frame arguments
    frame.passOn (frame.stackFor line slot (some ⟨name, true⟩)) function (object :: arguments)
  | .returnCall other :: _ => do return .returned (← values frame other)
  | .breakLoop :: _ => return .left
  | .jump label :: rest => executeBehind frame rest label
  | .label name :: rest => repeatFrom name (execute frame rest)
  | .leaveIf condition :: rest => do
    if (firstOf (← values frame condition)).truthy then return .left
    else execute frame rest
  | compound :: rest =>
    Flow.andThen (executeCompound frame compound) (execute frame rest) (executeBehind frame rest)

/-- Runs a statement that holds statements; all others do nothing. -/
def executeCompound (frame : Frame) : Stat → Computation Flow
  | .block body => execute frame body
  | .whileLoop condition body =>
    repeatWhile (do return (firstOf (← values frame condition)).truthy) (execute frame body)
  | .repeatLoop body => repeatWhile (return true) (execute frame body)
  | .ifElse condition body otherwise => do
    if (firstOf (← values frame condition)).truthy then execute frame body
    else execute frame otherwise
  | .numericFor name first last step body line => do
    let first := firstOf (← values frame first)
    let last := firstOf (← values frame last)
    let step := firstOf (← values frame step)
    numericLoop (frame.scene line) first last step fun value => do
      execute (← frame.bind [name] [value]) body
  | .genericFor names exprs body line slot => do
    let start ← valuesOf frame exprs
    genericLoop { frame.scene line with top := frame.base + slot } start fun results => do
      execute (← frame.bind names results) body
  | _ => return .next

/-- Runs the statements behind a label; if they do not hold it, it is that of a statement around
them. -/
def executeBehind (frame : Frame) : List Stat → String → Computation Flow
  | [], label => return .jumped label
  | .label name :: rest, label =>
    if name = label then repeatFrom name (execute frame rest)
    else executeBehind frame rest label
  | _ :: rest, label => executeBehind frame rest label

end

end ScriptHost.Script
