import ScriptHost.Registry
import ScriptHost.Source

/-!
# Script instances

An instance is a script that was built: loaded, with the functions that the host can call, and with
its tags.

* `Instance.build` : builds a script from its source.
* `Instance.call`, `Instance.tryCall`, `Instance.callWithTag` : the ways to call its functions.
* `Instance.global`, `Instance.setGlobal`, `Instance.eval` : its globals, and snippets.
-/

namespace ScriptHost

/-- A script that was built. -/
structure Instance where
  name : String
  /-- The text that the script was built from. -/
  source : String
  script : Script.Interpreter
  declarations : List FunctionDecl
  registry : Registry
  tags : TagIndex
  /-- What happened since the journal was last taken, the latest first. -/
  journal : List Event := []

/-- How a call ended whose function may be missing. -/
inductive CallOutcome where
  | completed
  /-- No function has the name and takes so many arguments. -/
  | missing
  | failed (error : Error)
  deriving DecidableEq, Repr

namespace Instance

/-- An operation on an instance. -/
abbrev Action := StateM Instance

/-! ## Building -/

/-- The events of what host functions did, the latest first. -/
def effectEvents (effects : List Effect) : List Event := (effects.map Event.effect).reverse

/-- Builds a script. The tags of functions that the host cannot call are taken off them. What
happened is given in any case, the latest first. -/
def build (host : HostFunctions) (name source : String) : Except Error Instance × List Event :=
  let scan := Source.scan source
  let loaded := Script.Interpreter.load host name scan.source
  let journal := effectEvents loaded.effects
  match loaded.result with
  | .error error => (.error error, journal)
  | .ok script =>
    let (registry, script, journal) := Registry.build script {} journal scan.declarations
    let tags := scan.tags.retainFunctions registry.containsName
    (.ok ⟨name, source, script, scan.declarations, registry, tags, []⟩,
      .built name registry.size tags.tags.length :: journal)

/-! ## Events -/

/-- Adds an event to the journal. -/
def note (event : Event) : Action Unit :=
  modify fun inst => { inst with journal := event :: inst.journal }

/-- Takes the journal, the latest event first. -/
def takeJournal : Action (List Event) := do
  let journal := (← get).journal
  modify fun inst => { inst with journal := [] }
  return journal

/-- Runs an operation on the script. -/
def onScript {α : Type}
    (operation : Script.Interpreter → Script.Interpreter.Outcome α × Script.Interpreter) :
    Action (Except Error α) := do
  let inst ← get
  let (outcome, script) := operation inst.script
  set { inst with script, journal := effectEvents outcome.effects ++ inst.journal }
  return outcome.result

/-! ## Functions -/

/-- The function with a name that takes so many arguments. -/
def function? (inst : Instance) (name : String) (arity : Nat) : Option FunctionHandle :=
  inst.registry.find? name arity

/-- Calls a function. -/
def call (name : String) (arguments : List Value) : Action (Except Error Value) := do
  let inst ← get
  match inst.function? name arguments.length with
  | none => return .error (.functionNotFound inst.name name arguments.length)
  | some handle =>
    note (.invoked inst.name name arguments.length)
    onScript fun script => script.call handle.function arguments

/-- Calls a function and drops its result. An error is noted and goes no further. -/
def tryCallOutcome (name : String) (arguments : List Value) : Action CallOutcome := do
  let inst ← get
  match inst.function? name arguments.length with
  | none => return .missing
  | some handle =>
    note (.invoked inst.name name arguments.length)
    match ← onScript fun script => script.run handle.function arguments with
    | .ok () => return .completed
    | .error failure =>
      note (.invocationFailed inst.name name failure)
      return .failed failure

/-- Whether a function is there and ends without an error. -/
def tryCall (name : String) (arguments : List Value) : Action Bool := do
  return (← tryCallOutcome name arguments) = .completed

/-- Calls some functions one after the other, and counts those that end without an error. -/
def callEach (arguments : List Value) : List String → Action Nat
  | [] => return 0
  | name :: names => do
    let completed ← tryCall name arguments
    let count ← callEach arguments names
    return if completed then count + 1 else count

/-- Calls every function with a tag, in ascending order of their names. -/
def callWithTag (tag : String) (arguments : List Value) : Action Nat := do
  callEach arguments ((← get).tags.functionsWithTag tag)

/-! ## Globals and snippets -/

/-- The value of a global. -/
def global (name : String) : Action (Except Error Value) :=
  onScript fun script => script.global name

/-- Sets a global. -/
def setGlobal (name : String) (value : Value) : Action (Except Error Unit) :=
  onScript fun script => script.setGlobal name value

/-- Evaluates a snippet. -/
def eval (code : String) : Action (Except Error Value) :=
  onScript fun script => script.eval code

end Instance

end ScriptHost
