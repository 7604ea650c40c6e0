import ScriptHost.Script.Operators

/-!
# The library of the script language

The functions that every script finds among its globals. All of their names are there, but a call of
some functions raises an error, for what they do is left out: `load`, `loadfile`, `dofile`, `require`,
`collectgarbage`, `warn`, and what the tables of the library hold, apart from `coroutine.create` and
`os.exit`. There are no finalizers and no weak tables, and what `print` writes is not kept.

* `runBuiltin` : what these functions do.
* `World.initial` : the world of a script before it runs.
-/

namespace ScriptHost.Script

/-! ## Names -/

/-- The functions that are globals. -/
def globalFunctions : List (String × Builtin) :=
  [("assert", .assert), ("collectgarbage", .unavailable "collectgarbage"),
    ("dofile", .unavailable "dofile"), ("error", .error), ("getmetatable", .getmetatable),
    ("ipairs", .ipairs), ("load", .unavailable "load"), ("loadfile", .unavailable "loadfile"),
    ("next", .next), ("pairs", .pairs), ("pcall", .pcall), ("print", .print),
    ("rawequal", .rawequal), ("rawget", .rawget), ("rawlen", .rawlen), ("rawset", .rawset),
    ("require", .unavailable "require"), ("select", .select), ("setmetatable", .setmetatable),
    ("tonumber", .tonumber), ("tostring", .tostring), ("type", .type),
    ("warn", .unavailable "warn"), ("xpcall", .xpcall)]

/-- The names in the further tables of the library that hold functions which cannot be called. -/
def libraryNames : List (String × List String) :=
  [("coroutine", ["close", "isyieldable", "resume", "running", "status", "wrap", "yield"]),
    ("io", ["close", "flush", "input", "lines", "open", "output", "popen", "read", "tmpfile",
      "type", "write"]),
    ("math", ["abs", "acos", "asin", "atan", "ceil", "cos", "deg", "exp", "floor", "fmod", "log",
      "max", "min", "modf", "rad", "random", "randomseed", "sin", "sqrt", "tan", "tointeger",
      "type", "ult"]),
    ("os", ["clock", "date", "difftime", "execute", "getenv", "remove", "rename", "setlocale",
      "time", "tmpname"]),
    ("package", ["loadlib", "searchpath"]),
    ("table", ["concat", "insert", "move", "pack", "remove", "sort", "unpack"]),
    ("utf8", ["char", "codepoint", "codes", "len", "offset"])]

/-- What else there is in a further table of the library. -/
def libraryValue? (library : String) : Option (String × Value) :=
  if library = "coroutine" then some ("create", .builtin .createCoroutine)
  else if library = "io" then some ("stdout", .stream)
  else if library = "os" then some ("exit", .builtin .exit)
  else none

/-- The names in the table that the fields of strings are found in. -/
def stringNames : List String :=
  ["byte", "char", "dump", "find", "format", "gmatch", "gsub", "len", "lower", "match", "pack",
    "packsize", "rep", "reverse", "sub", "unpack", "upper"]

/-! ## The first world -/

/-- Sets a value in a table under a name. -/
def World.setNamed (world : World) (id : Nat) (name : String) (value : Value) : World :=
  world.setIn id (.ofString name) value

/-- Sets functions that cannot be called in a table. -/
def World.setUnavailable (world : World) (id : Nat) (library : String) (names : List String) :
    World :=
  names.foldl (fun world name =>
    world.setNamed id name (.builtin (.unavailable (library ++ "." ++ name)))) world

/-- Makes a table of the library. -/
def World.addLibrary (world : World) (library : String) (names : List String) : World :=
  let id := world.nextTable
  let world := (world.newTable.setUnavailable id library names).setNamed World.globals library
    (.table id)
  match libraryValue? library with
  | some (name, value) => world.setNamed id name value
  | none => world

/-- The world of a script before it runs. -/
def World.initial : World :=
  let world : World := World.newTable {}
  let world := globalFunctions.foldl (fun world entry =>
    world.setNamed World.globals entry.1 (.builtin entry.2)) world
  let world := (world.setUnavailable stringLibrary "string" stringNames).setNamed World.globals
    "string" (.table stringLibrary)
  let world := libraryNames.foldl (fun world entry => world.addLibrary entry.1 entry.2) world
  (world.setNamed World.globals "_G" (.table World.globals)).setNamed World.globals "_VERSION"
    (.ofString "Lua 5.4")

/-! ## Arguments -/

/-- A call of a function of the library. -/
structure Invocation where
  call : Caller
  /-- The calls that are under way; the latest is that of the function. -/
  stack : Stack
  /-- The name of the function in the library. -/
  name : String

namespace Invocation

/-- Raises an error message with the place of the call. -/
def fail {α : Type} (site : Invocation) (message : String) : Computation α :=
  failAt site.stack.site? message

/-- Raises the error of a bad argument. The function is named as the script names it; the object of
a method does not count as an argument. -/
def badArgument {α : Type} (site : Invocation) (position : Nat) (what : String) :
    Computation α :=
  let bad (position : Nat) (name : String) : String :=
    "bad argument #" ++ toString position ++ " to '" ++ name ++ "' (" ++ what ++ ")"
  match site.stack.calls.head?.bind Call.callee? with
  | none => site.fail (bad position site.name)
  | some ⟨name, false⟩ => site.fail (bad position name)
  | some ⟨name, true⟩ =>
    if position = 1 then site.fail ("calling '" ++ name ++ "' on bad self (" ++ what ++ ")")
    else site.fail (bad (position - 1) name)

/-- Raises the error of an argument of the wrong type. -/
def wrongType {α : Type} (site : Invocation) (position : Nat) (expected : String)
    (arguments : List Value) : Computation α := do
  let got ←
    match arguments[position - 1]? with
    | none => pure "no value"
    | some value => operandName value
  site.badArgument position (expected ++ " expected, got " ++ got)

/-- An argument that can have any value, but has to be there. -/
def any (site : Invocation) (position : Nat) (arguments : List Value) : Computation Value :=
  match arguments[position - 1]? with
  | some value => return value
  | none => site.badArgument position "value expected"

/-- An argument that is a table. -/
def table (site : Invocation) (position : Nat) (arguments : List Value) : Computation Nat :=
  match arguments[position - 1]? with
  | some (.table id) => return id
  | _ => site.wrongType position "table" arguments

/-- An argument that is an integer, or a number or string that stands for one. -/
def integer (site : Invocation) (position : Nat) (arguments : List Value) : Computation Int :=
  match arguments[position - 1]? with
  | some value =>
    match asNumber? value with
    | some (.integer n) => return n.toInt
    | some (.number x) =>
      match Value.integerOfFloat? x with
      | some n => return n.toInt
      | none => site.badArgument position "number has no integer representation"
    | _ => site.wrongType position "number" arguments
  | none => site.wrongType position "number" arguments

/-- The scene of an operation inside a function of the library, which is on no line. -/
def scene (site : Invocation) : Scene :=
  ⟨site.call, site.stack, none, site.stack.height + 1⟩

/-- Calls a function. -/
def callValue (site : Invocation) (function : Value) (arguments : List Value) :
    Computation (List Value) :=
  site.scene.callNative none function arguments

end Invocation

/-! ## Functions -/

/-- A number in hexadecimal digits. -/
def hexText (n : Nat) : String := String.ofList (Nat.toDigits 16 n)

/-- The text of a value without a text of its own: its type and a number. -/
def addressText (kind : String) (n : Nat) : String :=
  let digits := hexText (16 * n + 16)
  kind ++ ": 0x" ++ String.ofList (List.replicate (14 - digits.length) '0') ++ digits

/-- The text of a value, for the values that do not ask a metatable. -/
def plainText : Value → String
  | .nil => "nil"
  | .boolean b => if b then "true" else "false"
  | .integer n => Numeral.writeInteger n
  | .number x => Numeral.writeFloat x
  | .nan negative => Numeral.writeNan negative
  | .string bytes => Text.Utf8.decodeLossy bytes
  | .table id => addressText "table" id
  | .closure id => addressText "function" id
  | .builtin _ | .hostFunction _ => addressText "function: builtin" 0
  | .host _ serial => addressText "LuaHostRef" serial
  | .stream => addressText "file" 0
  | .thread serial => addressText "thread" serial
  | .failure message _ => "runtime error: " ++ message

/-- The text of a value as bytes. -/
def bytesOf (site : Invocation) (value : Value) : Computation Value := do
  match value with
  | .string _ => return value
  | _ =>
    match ← metafield value "__tostring" with
    | .nil => return .ofString (plainText value)
    | handler =>
      match firstOf (← site.callValue handler [value]) with
      | .string bytes => return .string bytes
      | _ => site.fail "'__tostring' must return a string"

/-- Sets the level of an error: the message gets the place of the call so many levels up. -/
def raiseAtLevel (stack : Stack) (value : Value) (level : Int) : Computation (List Value) :=
  match value with
  | .string bytes =>
    if 0 < level then
      let site? := stack.calls[level.toNat - 1]?.bind Call.site?
      raise (.string (markOf site? ++ bytes))
    else raise value
  | _ => raise value

/-- Runs a function and catches what it raises. -/
def protect (body : Computation (List Value)) (handle : Value → Computation (List Value)) :
    Computation (List Value) :=
  catching (do return .boolean true :: (← body)) fun raised => do
    return .boolean false :: (← handle raised)

/-- The exit code of a program that is left with a number, of which the lowest eight bits count. -/
def exitCodeOf (n : Int) : Nat := (n % 256).toNat

/-- What `os.exit` does. Its second argument, which makes it close the script first, does not count. -/
def exitProgram (site : Invocation) (arguments : List Value) : Computation (List Value) := do
  match arguments.head? with
  | some (.boolean succeeded) => endProgram (.exit (if succeeded then 0 else 1))
  | none | some .nil => endProgram (.exit 0)
  | some _ => endProgram (.exit (exitCodeOf (← site.integer 1 arguments)))

/-- The entry behind a key. -/
def entryAfter : Value → List (Value × Value) → Option (List Value)
  | .nil, [] => some [.nil]
  | .nil, (k, v) :: _ => some [k, v]
  | _, [] => none
  | key, (k, _) :: rest => if k = key then entryAfter .nil rest else entryAfter key rest

/-- The number that digits of a base stand for. -/
def readBase? (base : Nat) (cs : List Char) : Option Int :=
  let digit? (c : Char) : Option Nat :=
    let value :=
      if c.isDigit then c.toNat - '0'.toNat
      else if c.isAlpha then c.toLower.toNat - 'a'.toNat + 10
      else base
    if value < base then some value else none
  let read (cs : List Char) : Option Nat :=
    if cs.isEmpty then none
    else cs.foldlM (fun n c => (digit? c).map fun d => base * n + d) 0
  match ((cs.dropWhile Numeral.isSpace).reverse.dropWhile Numeral.isSpace).reverse with
  | '-' :: rest => (read rest).map fun n => -(n : Int)
  | rest => (read rest).map Int.ofNat

/-- What `tonumber` gives. -/
def toNumber (site : Invocation) (arguments : List Value) : Computation (List Value) := do
  match arguments with
  | value :: .integer base :: _ =>
    match value with
    | .string bytes =>
      let text := bytes.toList.map fun b => Char.ofNat b.toNat
      if base.toInt < 2 || 36 < base.toInt then site.badArgument 2 "base out of range"
      else match readBase? base.toInt.toNat text with
        | some n => return [.integer (Int64.ofInt n)]
        | none => return [.nil]
    | _ => site.wrongType 1 "string" arguments
  | _ =>
    let value ← site.any 1 arguments
    return [(asNumber? value).getD .nil]

/-- Whether a value is a string that starts with `#`. -/
def asksForCount : Value → Bool
  | .string bytes => bytes[0]? == some '#'.toUInt8
  | _ => false

/-- What `select` gives. -/
def selectFrom (site : Invocation) (arguments : List Value) : Computation (List Value) := do
  let rest := arguments.tail
  if asksForCount (firstOf arguments) then return [.integer (Int64.ofNat rest.length)]
  let position ← site.integer 1 arguments
  if 0 < position then return rest.drop (position.toNat - 1)
  else if position < 0 && position.natAbs ≤ rest.length then
    return rest.drop (rest.length - position.natAbs)
  else site.badArgument 1 "index out of range"

/-- What `setmetatable` does. -/
def setMetatableOf (site : Invocation) (arguments : List Value) : Computation (List Value) := do
  let id ← site.table 1 arguments
  let guarded ← metafield (.table id) "__metatable"
  match arguments.tail.head? with
  | some .nil =>
    if guarded ≠ .nil then site.fail "cannot change a protected metatable"
    change fun world => world.setMetatable id none
    return [.table id]
  | some (.table metatable) =>
    if guarded ≠ .nil then site.fail "cannot change a protected metatable"
    change fun world => world.setMetatable id (some metatable)
    return [.table id]
  | _ => site.wrongType 2 "nil or table" arguments

/-- What `getmetatable` gives. -/
def metatableOf (site : Invocation) (arguments : List Value) : Computation (List Value) := do
  let value ← site.any 1 arguments
  let guard ← metafield value "__metatable"
  if guard ≠ .nil then return [guard]
  match value with
  | .table id =>
    match ← look fun world => (world.table id).metatable? with
    | some metatable => return [.table metatable]
    | none => return [.nil]
  | _ => return [.nil]

/-- What `error` does. -/
def raiseError (site : Invocation) (arguments : List Value) : Computation (List Value) := do
  let level ←
    match arguments.tail.head? with
    | none | some .nil => pure 1
    | some _ => site.integer 2 arguments
  raiseAtLevel site.stack (firstOf arguments) level

/-- What `next` gives. -/
def nextEntry (site : Invocation) (arguments : List Value) : Computation (List Value) := do
  let id ← site.table 1 arguments
  let key := (firstOf (arguments.drop 1)).asKey
  match entryAfter key (← look fun world => (world.table id).entries) with
  | some found => return found
  | none => site.fail "invalid key to 'next'"

/-- What the function gives that `ipairs` gives. -/
def nextPosition (site : Invocation) (arguments : List Value) : Computation (List Value) := do
  match arguments with
  | [object, .integer n] =>
    let value ← index site.scene object (.integer (n + 1))
    if value = .nil then return [.nil] else return [.integer (n + 1), value]
  | _ => site.wrongType 2 "number" arguments

/-- The name of a function of the library. -/
def Builtin.name : Builtin → String
  | assert => "assert"
  | createCoroutine => "coroutine.create"
  | error => "error"
  | exit => "exit"
  | getmetatable => "getmetatable"
  | ipairs => "ipairs"
  | ipairsStep => "?"
  | next => "next"
  | pairs => "pairs"
  | pcall => "pcall"
  | print => "print"
  | rawequal => "rawequal"
  | rawget => "rawget"
  | rawlen => "rawlen"
  | rawset => "rawset"
  | select => "select"
  | setmetatable => "setmetatable"
  | tonumber => "tonumber"
  | tostring => "tostring"
  | type => "type"
  | xpcall => "xpcall"
  | unavailable name => name

/-- How many slots a function that is not of the script takes. -/
def libraryRoom : Nat := 20

/-- What a function of the library does. -/
def runBuiltin (call : Caller) (stack : Stack) (function : Builtin) (arguments : List Value) :
    Computation (List Value) := do
  let site : Invocation := ⟨call, stack, function.name⟩
  match function with
  | .assert =>
    let value ← site.any 1 arguments
    if value.truthy then return arguments
    else match arguments.tail.head? with
      | some message => raise message
      | none => site.fail "assertion failed!"
  | .createCoroutine =>
    if (firstOf arguments).isFunction then return [.thread (← makeSerial)]
    else site.wrongType 1 "function" arguments
  | .error => raiseError site arguments
  | .exit => exitProgram site arguments
  | .getmetatable => metatableOf site arguments
  | .ipairs =>
    let value ← site.any 1 arguments
    return [.builtin .ipairsStep, value, .integer 0]
  | .ipairsStep => nextPosition site arguments
  | .next => nextEntry site arguments
  | .pairs =>
    let value ← site.any 1 arguments
    match ← metafield value "__pairs" with
    | .nil => return [.builtin .next, value, .nil]
    | handler => return adjust 3 (← site.callValue handler [value])
  | .pcall =>
    match arguments with
    | [] => raise (.ofString "not enough arguments to pcall")
    | function :: arguments =>
      protect (site.callValue function arguments) fun raised => return [raised]
  | .print =>
    for value in arguments do
      let _ ← bytesOf site value
    return []
  | .rawequal =>
    let a ← site.any 1 arguments
    let b ← site.any 2 arguments
    return [.boolean (a.rawEqual b)]
  | .rawget =>
    let id ← site.table 1 arguments
    let key ← site.any 2 arguments
    return [← rawGet id key]
  | .rawlen =>
    match firstOf arguments with
    | .table id => return [.integer (Int64.ofNat (← rawLength id))]
    | .string bytes => return [.integer (Int64.ofNat bytes.size)]
    | _ => site.badArgument 1 "table or string expected"
  | .rawset =>
    let id ← site.table 1 arguments
    let key ← site.any 2 arguments
    let value ← site.any 3 arguments
    rawSet site.scene id key value
    return [.table id]
  | .select => selectFrom site arguments
  | .setmetatable => setMetatableOf site arguments
  | .tonumber => toNumber site arguments
  | .tostring =>
    let value ← site.any 1 arguments
    return [← bytesOf site value]
  | .type =>
    let value ← site.any 1 arguments
    return [.ofString value.kindName]
  | .xpcall =>
    match arguments with
    | function :: handler :: arguments =>
      protect (site.callValue function arguments) fun raised => site.callValue handler [raised]
    | _ => raise (.ofString "not enough arguments to xpcall")
  | .unavailable name => site.fail ("'" ++ name ++ "' is not available")

end ScriptHost.Script
