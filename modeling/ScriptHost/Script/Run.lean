import ScriptHost.HostFunctions
import ScriptHost.Script.Eval
import ScriptHost.Script.Exchange
import ScriptHost.Script.Library
import ScriptHost.Script.Parser
import ScriptHost.Script.Room
import ScriptHost.Text.Search

/-!
# Running a script

What a host does with a script: it loads the script, calls its functions, reads and sets its
globals, and evaluates snippets.

* `Interpreter.load` : the interpreter of a script, after its top level has run.
* `Interpreter.function?`, `Interpreter.call`, `Interpreter.run` : functions of the script.
* `Interpreter.global`, `Interpreter.setGlobal` : its globals.
* `Interpreter.eval` : a snippet.
-/

namespace ScriptHost.Script

/-! ## Calls -/

/-- Raises what a failing host function raises. -/
def raiseFailure {α : Type} (error : Error) : Computation α := do
  raise (.failure error.display (← makeSerial))

/-- Calls a host function: the arguments leave the script, and the result enters it. -/
def callHost (host : HostFunctions) (name : String) (arguments : List Value) :
    Computation (List Value) := do
  let world ← get
  match exportItems (export? world) arguments with
  | .error error => raiseFailure error
  | .ok arguments =>
    let reply := host.call name arguments
    change fun world => world.addEffects reply.effects
    match reply.result with
    | .error error => raiseFailure error
    | .ok value => return [← proceed (importValue value)]

/-- Calls a function of the library or of the host. -/
def runNative (host : HostFunctions) (call : Caller) (stack : Stack) (request : Request) :
    Computation (List Value) := do
  if Stack.slotLimit < stack.height + 1 + request.arguments.length + libraryRoom then
    failAt stack.site? "stack overflow"
  match request.function with
  | .builtin builtin => runBuiltin call stack builtin request.arguments
  | .hostFunction name => callHost host name request.arguments
  | _ => return []

/-- Runs a function. It may end with a call that takes its place. -/
def runFunction (host : HostFunctions) (call : Caller) (stack : Stack) (request : Request) :
    Computation (Request ⊕ List Value) := do
  match ← look fun world => world.closure? request.function with
  | some closure =>
    let frame ← Frame.enter call stack closure request.arguments
    match ← execute frame closure.body with
    | .passed request => return .inl request
    | .returned values => return .inr values
    | _ => return .inr []
  | none => return .inr (← runNative host call stack request)

/-- Calls a value, with so many further levels of calls. -/
def callWithin (host : HostFunctions) : Nat → Caller
  | 0, stack, _, _ => failAt stack.site? "stack overflow"
  | depth + 1, stack, function, arguments => do
    let request ← callable stack.site? function arguments
    repeating (runFunction host (callWithin host depth) stack) request

/-- Calls a value; each level of calls takes a slot at least. -/
def caller (host : HostFunctions) : Caller := callWithin host Stack.slotLimit

/-- The stack of an operation of the host: the host itself has called. -/
def hostStack : Stack := ⟨[{}], 2, 1⟩

/-- Calls a value from the host. -/
def callFromHost (host : HostFunctions) (function : Value) (arguments : List Value) :
    Computation (List Value) :=
  caller host hostStack function arguments

/-- The scene of an operation of the host. -/
def hostScene (host : HostFunctions) : Scene := ⟨caller host, hostStack, none, 4⟩

/-- A global, as the script itself would read it. -/
def readGlobal (host : HostFunctions) (name : String) : Computation Value :=
  index (hostScene host) (.table World.globals) (.ofString name)

/-- Sets a global, as the script itself would set it. -/
def writeGlobal (host : HostFunctions) (name : String) (value : ScriptHost.Value) :
    Computation Unit := do
  let value ← proceed (importValue value)
  assignIndex (hostScene host) (.table World.globals) (.ofString name) value

/-- The statements of a script, and the slots that they take. -/
structure Chunk where
  name : String
  /-- The statements see the variable that holds the globals. -/
  environment : Bool
  body : List Stat
  room : Nat

/-- Runs the statements of a script. -/
def runChunk (host : HostFunctions) (chunk : Chunk) : Computation (List Value) := do
  let scope ←
    if chunk.environment then do
      pure [(Room.environmentName, ← makeVariable (.table World.globals))]
    else pure []
  let main ← makeFunction ⟨[], true, chunk.body, chunk.room, scope, chunk.name⟩
  callFromHost host main []

/-- The text of what was raised, as the host reports it. -/
def raisedText (value : Value) : String :=
  match value with
  | .failure message _ => "runtime error: " ++ message
  | .string bytes =>
    "runtime error: " ++ Text.Utf8.decodeLossy ⟨(bytes.toList.takeWhile (· != 0)).toArray⟩
  | other => "runtime error: " ++ plainText other

/-- The statements of a text, with their slots. They see the variable that holds the globals only if
its name is in the text. -/
def Chunk.parse (name text : String) : Except ParseError Chunk := do
  let environment := (Text.after? Room.environmentName.toList text.toList).isSome
  let (body, room) ← Room.ofScript environment (← Script.parse text)
  return ⟨name, environment, body, room⟩

/-- What the host says about a text that is no script. -/
def ParseError.text (chunk : String) : ParseError → String
  | malformed line reason =>
    "syntax error: " ++ chunk ++ ":" ++ toString line ++ ": " ++ reason
  | tooMany what => "syntax error: " ++ chunk ++ ": too many " ++ what
  | tooDeep => "runtime error: C stack overflow"

/-- The error that a text is no script, when it is loaded. Only nesting that is too deep stops the
reader before it can say so. -/
def ParseError.onLoad (error : ParseError) (chunk : String) : Error :=
  match error with
  | tooDeep => .notLoaded (error.text chunk)
  | _ => .notCompiled (error.text chunk)

/-- Why a name cannot be the name of a script: it may hold no NUL. -/
def nameError? (name : String) : Option Error :=
  match name.toUTF8.toList.idxOf? 0 with
  | some index =>
    some (.notLoaded ("runtime error: invalid name: nul byte found in provided data at position: "
      ++ toString (index + 1)))
  | none => none

/-! ## The interpreter of a script -/

/-- A script that was loaded. -/
structure Interpreter where
  /-- The name that the errors of the script name. -/
  chunk : String
  host : HostFunctions
  world : World

namespace Interpreter

/-- Sets the host functions among the globals of a world. -/
def provide (host : HostFunctions) (world : World) : World :=
  host.names.foldl (fun world name => world.setNamed World.globals name (.hostFunction name)) world

/-- What an operation on a script gives: a result, and what host functions did. -/
structure Outcome (α : Type) where
  result : Except Error α
  effects : List Effect

/-- Loads a script: runs its top level in a new world. -/
def load (host : HostFunctions) (name source : String) : Outcome Interpreter :=
  match nameError? name with
  | some error => ⟨.error error, []⟩
  | none =>
    match Chunk.parse name source with
    | .error error => ⟨.error (error.onLoad name), []⟩
    | .ok chunk =>
      match (runChunk host chunk).run (provide host World.initial) with
      | .error raised world => ⟨.error (.notLoaded (raisedText raised)), world.effects.reverse⟩
      | .ok _ world => ⟨.ok ⟨name, host, world.withoutEffects⟩, world.effects.reverse⟩

/-- Runs a computation in the world of a script. -/
def compute {α : Type} (script : Interpreter) (computation : Computation α) :
    Except Value α × Interpreter × List Effect :=
  let (result, world) : Except Value α × World :=
    match computation.run script.world with
    | .ok value world => (.ok value, world)
    | .error raised world => (.error raised, world)
  (result, { script with world := world.withoutEffects }, world.effects.reverse)

/-- Runs an operation of the host on a script. What the operation raises becomes an error, and its
result is read in the world that it leaves. -/
def perform {α β : Type} (script : Interpreter) (computation : Computation α)
    (onRaise : Value → Error) (read : World → α → Except Error β) :
    Outcome β × Interpreter :=
  match script.compute computation with
  | (.ok value, after, effects) => (⟨read after.world value, effects⟩, after)
  | (.error raised, after, effects) => (⟨.error (onRaise raised), effects⟩, after)

/-- What a function or a snippet raised. -/
def raisedError (raised : Value) : Error := .raised (raisedText raised)

/-- The function that a global holds. An error while it is looked up counts as none. -/
def function? (script : Interpreter) (name : String) :
    Option Value × Interpreter × List Effect :=
  match script.compute (readGlobal script.host name) with
  | (.ok value, after, effects) => (if value.isFunction then some value else none, after, effects)
  | (.error _, after, effects) => (none, after, effects)

/-- Calls a function with arguments from the host. -/
def invoke (script : Interpreter) (function : Value) (arguments : List ScriptHost.Value) :
    Computation (List Value) := do
  let arguments ← proceed (importAll arguments)
  callFromHost script.host function arguments

/-- The first result of a function, for the host. -/
def exportResult (world : World) (results : List Value) : Except Error ScriptHost.Value :=
  (export? world (firstOf results)).mapError .resultUnsupported

/-- Calls a function and gives its first result. -/
def call (script : Interpreter) (function : Value) (arguments : List ScriptHost.Value) :
    Outcome ScriptHost.Value × Interpreter :=
  script.perform (script.invoke function arguments) raisedError exportResult

/-- Calls a function and drops its results. -/
def run (script : Interpreter) (function : Value) (arguments : List ScriptHost.Value) :
    Outcome Unit × Interpreter :=
  script.perform (script.invoke function arguments) raisedError fun _ _ => .ok ()

/-- The value of a global. -/
def global (script : Interpreter) (name : String) : Outcome ScriptHost.Value × Interpreter :=
  script.perform (readGlobal script.host name) (fun raised => .globalNotRead (raisedText raised))
    export?

/-- Sets a global. -/
def setGlobal (script : Interpreter) (name : String) (value : ScriptHost.Value) :
    Outcome Unit × Interpreter :=
  script.perform (writeGlobal script.host name value)
    (fun raised => .globalNotWritten (raisedText raised)) fun _ _ => .ok ()

/-- The statements of a snippet, which is an expression or else some statements. -/
def parseSnippet (name code : String) : Except ParseError Chunk :=
  match Chunk.parse name ("return " ++ code) with
  | .ok chunk => .ok chunk
  | .error _ => Chunk.parse name code

/-- Evaluates a snippet and gives its first result. -/
def eval (script : Interpreter) (code : String) : Outcome ScriptHost.Value × Interpreter :=
  let name := script.chunk ++ ":eval"
  match parseSnippet name code with
  | .error error => (⟨.error (.raised (error.text name)), []⟩, script)
  | .ok chunk =>
    script.perform (runChunk script.host chunk) raisedError fun world results =>
      export? world (firstOf results)

end Interpreter

end ScriptHost.Script
