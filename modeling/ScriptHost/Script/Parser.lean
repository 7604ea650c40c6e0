import ScriptHost.Script.Syntax
import ScriptHost.Script.Token

/-!
# Reading scripts

A reader by recursive descent. Each function takes tokens from the front of the input; a bound on
the depth of the descent, computed from the number of tokens, makes it total.

* `parse` : the statements of a script.
* `Parser.atLine` : a look-up raises its errors on the line that was reached when it takes place.
* `Parser.deeper` : one level of nesting more, up to a limit.
-/

namespace ScriptHost.Script

namespace Parser

/-- The tokens that are left, and the line of the last one taken. -/
structure Input where
  rest : List Lexeme
  last : Nat
  /-- The line that an error at the end of the text names. -/
  final : Nat
  /-- What is wrong with the text behind the tokens. -/
  failure? : Option ParseError

/-- Where a statement or an expression stands. -/
structure Place where
  /-- In a function that takes any number of arguments. -/
  vararg : Bool := false
  /-- In a loop of that function. -/
  loop : Bool := false
  /-- In sight of a value of that function that is closed later. -/
  closing : Bool := false
  /-- How many statements and expressions are around it. -/
  level : Nat := 0

/-- A reader of tokens. -/
abbrev Reader := StateT Input (Except ParseError)

/-- The next token. -/
def peek? : Reader (Option Token) := do return (← get).rest.head?.map (·.token)

/-- The line of the next token. -/
def peekLine : Reader Nat := do
  let input ← get
  return (input.rest.head?.map (·.line)).getD input.final

/-- Fails at the next token. -/
def fail {α : Type} (reason : String) : Reader α := do throw (.malformed (← peekLine) reason)

/-- Fails if what comes next is no token. -/
def check : Reader Unit := do
  match ← get with
  | ⟨[], _, _, some failure⟩ => throw failure
  | _ => return ()

/-- Takes the next token. -/
def take : Reader Unit := do
  modify fun input =>
    match input.rest with
    | [] => input
    | lexeme :: rest => { input with rest := rest, last := lexeme.line }
  check

/-- How deeply statements and expressions nest, plus one. -/
def levelLimit : Nat := 200

/-- The place one level deeper. -/
def deeper (place : Place) : Reader Place :=
  if place.level + 1 < levelLimit then return { place with level := place.level + 1 }
  else throw .tooDeep

/-- Whether the next token is the given one. -/
def isNext (token : Token) : Reader Bool := do return (← peek?) == some token

/-- Takes the given token, if it is the next one. -/
def accept (token : Token) : Reader Bool := do
  if ← isNext token then
    take
    return true
  else return false

/-- Takes the given token. -/
def expect (token : Token) (text : String) : Reader Unit := do
  if !(← accept token) then fail ("'" ++ text ++ "' expected")

/-- Takes a symbol. -/
def expectSymbol (text : String) : Reader Unit := expect (.symbol text) text

/-- Takes a reserved word. -/
def expectWord (text : String) : Reader Unit := expect (.reserved text) text

/-- Takes a name. -/
def takeName : Reader String := do
  match ← peek? with
  | some (.name text) =>
    take
    return text
  | _ => fail "name expected"

/-- The line of the last token taken. -/
def lastLine : Reader Nat := do return (← get).last

/-! ## Operators -/

/-- The operators between two expressions. -/
inductive InfixOp where
  | arithmetic (op : ArithmeticOp)
  | compare (op : CompareOp)
  | and
  | or
  | concat

/-- The operator of a token. -/
def infixOp? : Token → Option InfixOp
  | .symbol "+" => some (.arithmetic .add)
  | .symbol "-" => some (.arithmetic .sub)
  | .symbol "*" => some (.arithmetic .mul)
  | .symbol "/" => some (.arithmetic .div)
  | .symbol "//" => some (.arithmetic .idiv)
  | .symbol "%" => some (.arithmetic .mod)
  | .symbol "^" => some (.arithmetic .pow)
  | .symbol "&" => some (.arithmetic .band)
  | .symbol "|" => some (.arithmetic .bor)
  | .symbol "~" => some (.arithmetic .bxor)
  | .symbol "<<" => some (.arithmetic .shl)
  | .symbol ">>" => some (.arithmetic .shr)
  | .symbol ".." => some .concat
  | .symbol "==" => some (.compare .eq)
  | .symbol "~=" => some (.compare .ne)
  | .symbol "<" => some (.compare .lt)
  | .symbol "<=" => some (.compare .le)
  | .symbol ">" => some (.compare .gt)
  | .symbol ">=" => some (.compare .ge)
  | .reserved "and" => some .and
  | .reserved "or" => some .or
  | _ => none

/-- How strongly an operator binds to its left and to its right. -/
def InfixOp.strength : InfixOp → Nat × Nat
  | or => (1, 1)
  | and => (2, 2)
  | compare _ => (3, 3)
  | arithmetic .bor => (4, 4)
  | arithmetic .bxor => (5, 5)
  | arithmetic .band => (6, 6)
  | arithmetic .shl | arithmetic .shr => (7, 7)
  | concat => (9, 8)
  | arithmetic .add | arithmetic .sub => (10, 10)
  | arithmetic .mul | arithmetic .div | arithmetic .idiv | arithmetic .mod => (11, 11)
  | arithmetic .pow => (14, 13)

/-- How strongly operators in front of an expression bind. -/
def unaryStrength : Nat := 12

/-- The operator in front of an expression. -/
def unaryOp? : Token → Option UnaryOp
  | .symbol "-" => some .negate
  | .symbol "#" => some .length
  | .symbol "~" => some .complement
  | .reserved "not" => some .not
  | _ => none

/-- A look-up raises its errors on the line that was reached when it takes place. -/
def atLine (line : Nat) : Expr → Expr
  | .index object key _ => .index object key line
  | .name name _ => .name name line
  | e => e

/-- The operands of a chain of `..`, perhaps in parentheses, and its line. -/
def chain? : Expr → Option (List Expr × Nat)
  | .concat operands line => some (operands, line)
  | .single inner => chain? inner
  | _ => none

/-- The expression of an operator on line `line` between two others; `last` is the line that the
right one ends on. -/
def InfixOp.combine (op : InfixOp) (line last : Nat) (left right : Expr) : Expr :=
  let left := atLine line left
  match op with
  | arithmetic op => .arithmetic op left right line
  | compare op => .compare op left right last
  | and => .and left right
  | or => .or left right
  | concat =>
    match chain? right with
    | some (operands, line) => .concat (left :: operands) line
    | none => .concat [left, right] line

/-- The last of some expressions raises the errors of its look-up on the given line. -/
def atLineLast (line : Nat) : List Expr → List Expr
  | [] => []
  | [last] => [atLine line last]
  | first :: rest => first :: atLineLast line rest

/-- An item without a key raises the errors of its look-up on the given line. -/
def itemAtLine (line : Nat) : Item → Item
  | .positional value => .positional (atLine line value)
  | item => item

/-- The constant that a name stands for as a key. -/
def nameKey (name : String) : Expr := .constant (.ofString name)

/-! ## Parameters and names -/

/-- Reads the further names of a list. -/
def moreNames : Nat → Reader (List String)
  | 0 => fail "too many names"
  | bound + 1 => do
    if ← accept (.symbol ",") then
      let name ← takeName
      return name :: (← moreNames bound)
    else return []

/-- Reads parameters up to the closing parenthesis, and whether any further arguments are taken. -/
def parameters : Nat → Reader (List String × Bool)
  | 0 => fail "too many parameters"
  | bound + 1 => do
    if ← accept (.symbol "...") then
      expectSymbol ")"
      return ([], true)
    else
      let name ← takeName
      if ← accept (.symbol ",") then
        let (names, vararg) ← parameters bound
        return (name :: names, vararg)
      else
        expectSymbol ")"
        return ([name], false)

/-- Reads a parameter list. -/
def parameterList (bound : Nat) : Reader (List String × Bool) := do
  expectSymbol "("
  if ← accept (.symbol ")") then return ([], false) else parameters bound

/-- Reads the name of a local variable, and what is special about it. -/
def localName : Reader LocalName := do
  let name ← takeName
  if ← accept (.symbol "<") then
    let kind ←
      match ← takeName with
      | "const" => pure Attribute.constant
      | "close" => pure Attribute.closing
      | _ => fail "unknown attribute"
    expectSymbol ">"
    return ⟨name, some kind⟩
  else return ⟨name, none⟩

/-- Reads the names of local variables. -/
def localNames : Nat → Reader (List LocalName)
  | 0 => fail "too many names"
  | bound + 1 => do
    let name ← localName
    if ← accept (.symbol ",") then return name :: (← localNames bound) else return [name]

/-- Whether a statement declares a variable whose value is closed. -/
def declaresClosing : Stat → Bool
  | .declare names .. => names.any (·.attribute? == some .closing)
  | _ => false

/-! ## Expressions and statements -/

mutual

/-- Reads an expression whose operators bind more strongly than `limit`. -/
def expression : Nat → Place → Nat → Reader Expr
  | 0, _, _ => fail "expression nested too deeply"
  | bound + 1, place, limit => do
    let place ← deeper place
    match (← peek?).bind unaryOp? with
    | some op =>
      let line ← peekLine
      take
      let operand ← expression bound place unaryStrength
      operators bound place limit (.unary op operand line)
    | none =>
      let left ← simple bound place
      operators bound place limit left

/-- Reads the operators behind an expression, and their right sides. -/
def operators : Nat → Place → Nat → Expr → Reader Expr
  | 0, _, _, _ => fail "expression nested too deeply"
  | bound + 1, place, limit, left => do
    match (← peek?).bind infixOp? with
    | some op =>
      if limit < op.strength.1 then
        let line ← peekLine
        take
        let right ← expression bound place op.strength.2
        operators bound place limit (op.combine line (← lastLine) left right)
      else return left
    | none => return left

/-- Reads an expression without operators. -/
def simple : Nat → Place → Reader Expr
  | 0, _ => fail "expression nested too deeply"
  | bound + 1, place => do
    match ← peek? with
    | some (.number value) => take; return .constant value
    | some (.string bytes) => take; return .constant (.string bytes)
    | some (.reserved "nil") => take; return .constant .nil
    | some (.reserved "true") => take; return .constant (.boolean true)
    | some (.reserved "false") => take; return .constant (.boolean false)
    | some (.symbol "...") =>
      if place.vararg then
        take
        return .varargs
      else fail "cannot use '...' outside a vararg function"
    | some (.symbol "\x7b") => take; return .table (← items bound place)
    | some (.reserved "function") => take; functionBody bound place []
    | _ =>
      let first ← primary bound place
      suffixes bound place first

/-- Reads a name or an expression in parentheses. -/
def primary : Nat → Place → Reader Expr
  | 0, _ => fail "expression nested too deeply"
  | bound + 1, place => do
    match ← peek? with
    | some (.name text) => take; return .name text (← lastLine)
    | some (.symbol "(") =>
      take
      let inner ← expression bound place 0
      expectSymbol ")"
      return .single (atLine (← lastLine) inner)
    | _ => fail "unexpected symbol"

/-- Reads the look-ups and calls behind an expression. -/
def suffixes : Nat → Place → Expr → Reader Expr
  | 0, _, _ => fail "expression nested too deeply"
  | bound + 1, place, front => do
    match ← peek? with
    | some (.symbol ".") =>
      take
      let name ← takeName
      suffixes bound place (.index front (nameKey name) (← lastLine))
    | some (.symbol "[") =>
      take
      let key ← expression bound place 0
      expectSymbol "]"
      suffixes bound place (.index front key (← lastLine))
    | some (.symbol ":") =>
      take
      let name ← takeName
      let found ← lastLine
      let line ← peekLine
      match ← arguments? bound place with
      | some list =>
        suffixes bound place (.callMethod (atLine found front) name list found line 0)
      | none => fail "function arguments expected"
    | _ =>
      let line ← peekLine
      match ← arguments? bound place with
      | some list => suffixes bound place (.call front list line 0)
      | none => return front

/-- Reads the arguments of a call, if there are any. -/
def arguments? : Nat → Place → Reader (Option (List Expr))
  | 0, _ => fail "expression nested too deeply"
  | bound + 1, place => do
    match ← peek? with
    | some (.string bytes) => take; return some [.constant (.string bytes)]
    | some (.symbol "\x7b") => take; return some [.table (← items bound place)]
    | some (.symbol "(") =>
      take
      if ← accept (.symbol ")") then return some []
      else
        let list ← expressions bound place
        expectSymbol ")"
        return some (atLineLast (← lastLine) list)
    | _ => return none

/-- Reads one or more expressions with commas between them. -/
def expressions : Nat → Place → Reader (List Expr)
  | 0, _ => fail "list too long"
  | bound + 1, place => do
    let first ← expression bound place 0
    if ← accept (.symbol ",") then
      let first := atLine (← lastLine) first
      return first :: (← expressions bound place)
    else return [first]

/-- Reads the items of a table constructor, up to its end. -/
def items : Nat → Place → Reader (List Item)
  | 0, _ => fail "table too long"
  | bound + 1, place => do
    if ← accept (.symbol "\x7d") then return []
    else
      let item ← item bound place
      if !(← accept (.symbol ",")) && !(← accept (.symbol ";")) then
        expectSymbol "\x7d"
        return [itemAtLine (← lastLine) item]
      else
        let line ← lastLine
        match ← items bound place with
        | [] => return [itemAtLine (← lastLine) item]
        | rest => return itemAtLine line item :: rest

/-- Reads an item of a table constructor. -/
def item : Nat → Place → Reader Item
  | 0, _ => fail "table nested too deeply"
  | bound + 1, place => do
    match (← get).rest with
    | ⟨.symbol "[", _⟩ :: _ =>
      take
      let key ← expression bound place 0
      expectSymbol "]"
      expectSymbol "="
      let value ← expression bound place 0
      return .keyed key value (← lastLine)
    | ⟨.name text, _⟩ :: ⟨.symbol "=", _⟩ :: _ =>
      take
      take
      let value ← expression bound place 0
      return .keyed (nameKey text) value (← lastLine)
    | _ => return .positional (← expression bound place 0)

/-- Reads a function from its parameter list on; `first` are parameters in front of those. -/
def functionBody : Nat → Place → List String → Reader Expr
  | 0, _, _ => fail "function nested too deeply"
  | bound + 1, place, first => do
    let (names, vararg) ← parameterList bound
    let body ← block bound { vararg, level := place.level }
    expectWord "end"
    return .function (first ++ names) vararg body 0

/-- Reads statements, up to a token that cannot start one. A `return` is the last statement. -/
def block : Nat → Place → Reader (List Stat)
  | 0, _ => fail "block too long"
  | bound + 1, place => do
    match ← peek? with
    | none => return []
    | some (.reserved "end") | some (.reserved "else") | some (.reserved "elseif")
    | some (.reserved "until") => return []
    | some (.symbol ";") =>
      let _ ← deeper place
      take
      block bound place
    | some (.reserved "return") =>
      let place ← deeper place
      take
      let values ← returned bound place
      let _ ← accept (.symbol ";")
      match values with
      | [value] =>
        if value.isCall && !place.closing then return [.returnCall value]
        else return [.returnValues values]
      | _ => return [.returnValues values]
    | _ =>
      let first ← statement bound place
      let closing := place.closing || declaresClosing first
      return first :: (← block bound { place with closing })

/-- Reads the values of a `return`. -/
def returned : Nat → Place → Reader (List Expr)
  | 0, _ => fail "list too long"
  | bound + 1, place => do
    match ← peek? with
    | none => return []
    | some (.reserved "end") | some (.reserved "else") | some (.reserved "elseif")
    | some (.reserved "until") | some (.symbol ";") => return []
    | _ => expressions bound place

/-- Reads a statement. -/
def statement : Nat → Place → Reader Stat
  | 0, _ => fail "statement nested too deeply"
  | bound + 1, place => do
    let place ← deeper place
    let line ← peekLine
    match ← peek? with
    | some (.reserved "if") => take; conditional bound place
    | some (.reserved "while") =>
      take
      let condition ← expression bound place 0
      expectWord "do"
      let body ← block bound { place with loop := true }
      expectWord "end"
      return .whileLoop condition body
    | some (.reserved "do") =>
      take
      let body ← block bound place
      expectWord "end"
      return .block body
    | some (.reserved "for") => take; forLoop bound place
    | some (.reserved "repeat") =>
      take
      let body ← block bound { place with loop := true }
      expectWord "until"
      return .repeatLoop (body ++ [.leaveIf (← expression bound place 0)])
    | some (.reserved "function") => take; namedFunction bound place line
    | some (.reserved "local") =>
      take
      if ← accept (.reserved "function") then
        let name ← takeName
        match ← functionBody bound place [] with
        | .function names vararg body _ => return .localFunction name names vararg body 0
        | _ => fail "function expected"
      else
        let names ← localNames bound
        if 1 < names.countP (·.attribute? == some .closing) then fail "too many closed variables"
        let values ← if ← accept (.symbol "=") then expressions bound place else pure []
        return .declare names values (← lastLine)
    | some (.reserved "break") =>
      if place.loop then
        take
        return .breakLoop
      else fail "break outside a loop"
    | some (.reserved "goto") => take; return .jump (← takeName)
    | some (.symbol "::") =>
      take
      let name ← takeName
      expectSymbol "::"
      return .label name
    | _ => expressionStatement bound place

/-- Reads what follows `if` or `elseif`, up to the end of the conditional. -/
def conditional : Nat → Place → Reader Stat
  | 0, _ => fail "statement nested too deeply"
  | bound + 1, place => do
    let condition ← expression bound place 0
    expectWord "then"
    let condition := atLine (← lastLine) condition
    let body ← block bound place
    if ← accept (.reserved "elseif") then return .ifElse condition body [← conditional bound place]
    else if ← accept (.reserved "else") then
      let otherwise ← block bound place
      expectWord "end"
      return .ifElse condition body otherwise
    else
      expectWord "end"
      return .ifElse condition body []

/-- Reads what follows `for`. -/
def forLoop : Nat → Place → Reader Stat
  | 0, _ => fail "statement nested too deeply"
  | bound + 1, place => do
    let name ← takeName
    if ← accept (.symbol "=") then
      let first ← expression bound place 0
      expectSymbol ","
      let last ← expression bound place 0
      let step ←
        if ← accept (.symbol ",") then expression bound place 0
        else pure (.constant (.integer 1))
      expectWord "do"
      let line ← lastLine
      let body ← block bound { place with loop := true }
      expectWord "end"
      return .numericFor name first last step body line
    else
      let names := name :: (← moreNames bound)
      expectWord "in"
      let line ← peekLine
      let values ← expressions bound place
      expectWord "do"
      let body ← block bound { place with loop := true, closing := true }
      expectWord "end"
      return .genericFor names values body line 0

/-- Reads what follows `function` in a statement on line `line`. -/
def namedFunction : Nat → Place → Nat → Reader Stat
  | 0, _, _ => fail "statement nested too deeply"
  | bound + 1, place, line => do
    let first ← takeName
    let (target, self) ← functionName bound line (.name first line)
    let function ← functionBody bound place (if self then ["self"] else [])
    return .assign [target] [function] line

/-- Reads the look-ups in the name of a function, and whether it is a method. -/
def functionName : Nat → Nat → Expr → Reader (Expr × Bool)
  | 0, _, _ => fail "name too long"
  | bound + 1, line, front => do
    if ← accept (.symbol ".") then
      let name ← takeName
      functionName bound line (.index front (nameKey name) (← lastLine))
    else if ← accept (.symbol ":") then
      let name ← takeName
      return (.index front (nameKey name) (← lastLine), true)
    else return (front, false)

/-- Reads a call or an assignment. -/
def expressionStatement : Nat → Place → Reader Stat
  | 0, _ => fail "statement nested too deeply"
  | bound + 1, place => do
    let first ← primary bound place
    let front ← suffixes bound place first
    if (← isNext (.symbol "=")) || (← isNext (.symbol ",")) then
      if !front.isTarget then fail "syntax error"
      let (targets, place) ← moreTargets bound place
      expectSymbol "="
      let values ← expressions bound place
      return .assign (front :: targets) values (← lastLine)
    else if front.isCall then return .call front
    else fail "syntax error"

/-- Reads the further targets of an assignment, and gives the place behind them: each target is one
level deeper than the one in front of it. -/
def moreTargets : Nat → Place → Reader (List Expr × Place)
  | 0, _ => fail "list too long"
  | bound + 1, place => do
    if ← accept (.symbol ",") then
      let first ← primary bound place
      let target ← suffixes bound place first
      if !target.isTarget then fail "syntax error"
      let (targets, place) ← moreTargets bound (← deeper place)
      return (target :: targets, place)
    else return ([], place)

end

end Parser

open ScriptHost.Script.Parser in
/-- The statements of a script. -/
def parse (text : String) : Except ParseError (List Stat) := do
  let (lexemes, failure?) := Token.scan text
  let bound := 16 * (lexemes.length + 2)
  let final := (lexemes.getLast?.map (·.line)).getD 1
  let read := do
    check
    block bound { vararg := true }
  let (body, input) ← read.run ⟨lexemes, final, final, failure?⟩
  match input.rest with
  | [] => .ok body
  | lexeme :: _ => .error (.malformed lexeme.line "end of text expected")

end ScriptHost.Script
