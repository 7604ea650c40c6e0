import Mathlib.Data.List.Induction
import ScriptHost.Proofs.FirstMentions
import ScriptHost.Proofs.Script.Beginnings
import ScriptHost.Proofs.Script.Rounds

/-!
# Host functions and their calls

Host functions are registered one after the other, and the first one with a name stays. A script
finds them among its globals. When it calls one, all arguments leave the script before the function
runs; if one of them cannot, the function does not run.

* `HostFunctions.registerAll` : the host functions after some registrations.
* `HostFunctions.KeepsFirst` : the list of the names and the functions themselves agree, and the
  first registration of a name counts.
* `Script.CallEnds` : how the call of a host function from a script ends.
* `Script.Serves` : a script finds a host function and calls it.
* `Script.LoadedWith` : a script was loaded with some host functions.
* `Script.registered_serve` : the registered functions are those that scripts call.
-/

namespace ScriptHost

namespace HostFunctions

/-! ## Registrations -/

/-- The host functions after some registrations, one after the other. -/
def registerAll (registrations : List (String × HostFunction)) : HostFunctions :=
  registrations.foldl (fun host entry => host.register entry.1 entry.2) empty

variable {registrations : List (String × HostFunction)} {host : HostFunctions} {name : String}

theorem registerAll_concat (registrations : List (String × HostFunction))
    (entry : String × HostFunction) :
    registerAll (registrations ++ [entry])
      = (registerAll registrations).register entry.1 entry.2 := by
  rw [registerAll, List.foldl_append]
  rfl

/-- A name stands for the function that was registered with it first. -/
theorem find?_registerAll (registrations : List (String × HostFunction)) (name : String) :
    (registerAll registrations).find? name = registrations.lookup name := by
  induction registrations using List.reverseRecOn with
  | nil => rfl
  | append_singleton registrations entry ih =>
    rw [registerAll_concat, find?_register, ih, List.lookup_append]
    congr 1
    by_cases same : name = entry.1
    · rw [if_pos same, List.lookup_cons, beq_iff_eq.2 same]
    · rw [if_neg same, List.lookup_cons, beq_false_of_ne same]
      rfl

/-- A name is registered when one of the registrations has it. -/
theorem contains_registerAll_iff :
    (registerAll registrations).contains name = true
      ↔ ∃ entry ∈ registrations, some entry.1 = some name := by
  rw [contains, find?_registerAll, List.lookup_isSome_iff]
  simp only [beq_iff_eq, Option.some.injEq, eq_comm (a := name)]

/-- The names are listed in the order of their first registrations. -/
theorem firstMentions_registerAll (registrations : List (String × HostFunction)) :
    FirstMentions (fun entry => some entry.1) registrations (registerAll registrations).names := by
  induction registrations using List.reverseRecOn with
  | nil => exact .nil
  | append_singleton registrations entry ih =>
    -- Up to here a name is among the functions when it is in the list.
    have agree : (registerAll registrations).contains entry.1
        = (registerAll registrations).names.contains entry.1 := by
      rw [Bool.eq_iff_iff, contains_registerAll_iff, List.contains_iff_mem, ih.mem_iff]
    have names_eq : (registerAll (registrations ++ [entry])).names
        = appendNew (registerAll registrations).names entry.1 := by
      rw [registerAll_concat, register, appendNew, agree]
      split <;> rfl
    rw [names_eq]
    exact ih.concat rfl

/-- What the functions of a host are after some registrations: the first registration of a name
counts. -/
structure KeepsFirst (registrations : List (String × HostFunction)) (host : HostFunctions) :
    Prop where
  /-- Each registered name is listed once, in the order of the first registrations. -/
  names_listed : FirstMentions (fun entry => some entry.1) registrations host.names
  contains_iff : ∀ name, host.contains name = true ↔ name ∈ host.names
  /-- A call gives what the function gives that was registered first, and does what it does. -/
  call_of_ok : ∀ name function arguments value, registrations.lookup name = some function →
    (function arguments).result = .ok value →
      host.call name arguments = ⟨.ok value, (function arguments).effects⟩
  /-- What that function fails with is reported under its name. -/
  call_of_error : ∀ name function arguments error, registrations.lookup name = some function →
    (function arguments).result = .error error →
      host.call name arguments
          = ⟨.error (.hostFunctionFailed name error), (function arguments).effects⟩
        ∧ (Error.hostFunctionFailed name error).code = "HOST_FUNCTION_ERROR"
        ∧ (Error.hostFunctionFailed name error).message
          = "Host function " ++ Error.inQuotes name ++ " failed: " ++ error.display
  /-- A call of an unknown name does nothing. -/
  call_of_unknown : ∀ name arguments, registrations.lookup name = none →
    host.call name arguments = ⟨.error (.hostFunctionUnknown name), []⟩
  /-- Only a name that was never registered is missing. -/
  missing_iff : ∀ name arguments,
    (∃ error, (host.call name arguments).result = .error error
        ∧ error.code = "HOST_FUNCTION_MISSING")
      ↔ ∀ function, (name, function) ∉ registrations

theorem call_of_find? {function : HostFunction} (found : host.find? name = some function)
    (arguments : List Value) :
    host.call name arguments
      = ⟨(function arguments).result.mapError (.hostFunctionFailed name),
        (function arguments).effects⟩ := by
  rw [call, found]

theorem call_of_find?_eq_none (missing : host.find? name = none) (arguments : List Value) :
    host.call name arguments = ⟨.error (.hostFunctionUnknown name), []⟩ := by
  rw [call, missing]

theorem keepsFirst_registerAll (registrations : List (String × HostFunction)) :
    KeepsFirst registrations (registerAll registrations) where
  names_listed := firstMentions_registerAll registrations
  contains_iff name := by
    rw [contains_registerAll_iff, (firstMentions_registerAll registrations).mem_iff]
  call_of_ok name function arguments value first ok := by
    rw [call_of_find? ((find?_registerAll _ _).trans first), ok]
    rfl
  call_of_error name function arguments error first failed := by
    rw [call_of_find? ((find?_registerAll _ _).trans first), failed]
    refine ⟨rfl, rfl, ?_⟩
    show "Host function " ++ Error.inQuotes name ++ " failed: " ++ error.code ++ ": "
      ++ error.message = "Host function " ++ Error.inQuotes name ++ " failed: "
        ++ (error.code ++ ": " ++ error.message)
    simp only [String.append_assoc]
  call_of_unknown name arguments unknown :=
    call_of_find?_eq_none ((find?_registerAll _ _).trans unknown) arguments
  missing_iff name arguments := by
    have found := find?_registerAll registrations name
    cases first : registrations.lookup name with
    | none =>
      rw [call_of_find?_eq_none (found.trans first)]
      refine iff_of_true ⟨_, rfl, rfl⟩ fun function m => ?_
      simpa using List.lookup_eq_none_iff.1 first (name, function) m
    | some function =>
      obtain ⟨front, back, rfl, _⟩ := List.lookup_eq_some_iff.1 first
      rw [call_of_find? (found.trans first)]
      refine iff_of_false ?_ fun absent => absent function (by simp)
      rintro ⟨error, failed, code⟩
      -- What a function fails with has another code, whatever the error is.
      cases reply : (function arguments).result with
      | ok value => simp [reply, Except.mapError] at failed
      | error cause =>
        rw [reply] at failed
        cases failed
        have differ : "HOST_FUNCTION_ERROR" ≠ "HOST_FUNCTION_MISSING" := by decide
        exact absurd code differ

end HostFunctions

namespace Script

variable {host : HostFunctions} {name : String} {function : HostFunction} {world : World}

/-! ## Arguments -/

/-- The values that the arguments of a call are for the host, in their order. -/
def Converted (world : World) (arguments : List Value) (values : List ScriptHost.Value) : Prop :=
  List.Forall₂ (fun argument value => export? world argument = .ok value) arguments values

/-- Arguments fail to leave a script with the error of one of them. -/
theorem exists_of_exportItems_eq_error {exportOne : Value → Except Error ScriptHost.Value}
    {items : List Value} {error : Error} (failed : exportItems exportOne items = .error error) :
    ∃ item ∈ items, exportOne item = .error error := by
  induction items with
  | nil => cases failed
  | cons item items ih =>
    unfold exportItems at failed
    cases first : exportOne item with
    | error cause =>
      rw [first] at failed
      cases failed
      exact ⟨item, List.mem_cons_self, first⟩
    | ok value =>
      rw [first] at failed
      cases rest : exportItems exportOne items with
      | error cause =>
        rw [rest] at failed
        cases failed
        obtain ⟨other, m, same⟩ := ih rest
        exact ⟨other, List.mem_cons_of_mem item m, same⟩
      | ok values =>
        rw [rest] at failed
        cases failed

/-! ## Calls -/

/-- A call with so many arguments is not nested too deeply, and there are slots for it. -/
def HasRoom (depth : Nat) (stack : Stack) (count : Nat) : Prop :=
  0 < depth ∧ stack.height + 1 + count + libraryRoom ≤ Stack.slotLimit

instance (depth : Nat) (stack : Stack) (count : Nat) : Decidable (HasRoom depth stack count) :=
  inferInstanceAs (Decidable (_ ∧ _))

/-- How the call of a host function ends. The function runs only if all arguments leave the script,
and gets their values in order; otherwise an error is raised, and all that has changed in the world
is the number of the next reference. -/
structure CallEnds (name : String) (function : HostFunction) (depth : Nat) (stack : Stack)
    (arguments : List Value) (world : World) (ended : EStateM.Result Value World (List Value)) :
    Prop where
  /-- The result enters the script, after all that the function has done. -/
  answered : HasRoom depth stack arguments.length → ∀ values value,
    Converted world arguments values → (function values).result = .ok value →
      ended = .ok [((importValue value).run (world.addEffects (function values).effects)).1]
        ((importValue value).run (world.addEffects (function values).effects)).2
  failed : HasRoom depth stack arguments.length → ∀ values error,
    Converted world arguments values → (function values).result = .error error →
      ended = .error (.failure (Error.hostFunctionFailed name error).display world.serial)
        (world.addEffects (function values).effects).nextSerial
  /-- An argument that cannot leave the script is reported. -/
  refused : HasRoom depth stack arguments.length →
    (∃ argument ∈ arguments, ∀ value, export? world argument ≠ .ok value) →
      ∃ argument ∈ arguments, ∃ error, export? world argument = .error error
        ∧ ended = .error (.failure error.display world.serial) world.nextSerial
  overflowed : ¬HasRoom depth stack arguments.length →
    ended = .error (.string (markOf stack.site? ++ "stack overflow".toUTF8)) world

/-- What a script gets from the reply of a host function. -/
def receive (reply : Reply) : Computation (List Value) := do
  change fun world => world.addEffects reply.effects
  match reply.result with
  | .error error => raiseFailure error
  | .ok value => return [← proceed (importValue value)]

/-- The arguments leave the script before the host function is called. -/
theorem run_callHost (host : HostFunctions) (name : String) (arguments : List Value)
    (world : World) :
    (callHost host name arguments).run world
      = (match exportItems (export? world) arguments with
        | .error error => raiseFailure error
        | .ok values => receive (host.call name values)).run world := by
  unfold callHost
  rw [EStateM.run_bind, EStateM.run_get]
  dsimp only
  cases exportItems (export? world) arguments with
  | error error => rfl
  | ok values => rfl

theorem run_raiseFailure {α : Type} (error : Error) (world : World) :
    (raiseFailure error : Computation α).run world
      = .error (.failure error.display world.serial) world.nextSerial := rfl

theorem run_receive (reply : Reply) (world : World) :
    (receive reply).run world
      = match reply.result with
        | .error error =>
          .error (.failure error.display world.serial) (world.addEffects reply.effects).nextSerial
        | .ok value =>
          .ok [((importValue value).run (world.addEffects reply.effects)).1]
            ((importValue value).run (world.addEffects reply.effects)).2 := by
  obtain ⟨result, effects⟩ := reply
  cases result <;> rfl

theorem run_callable (site? : Option Site) (name : String) (arguments : List Value)
    (world : World) :
    (callable site? (.hostFunction name) arguments).run world
      = .ok ⟨.hostFunction name, arguments⟩ world := by
  show (resolveCall site? (999999 + 1) (.hostFunction name) arguments).run world = _
  rw [resolveCall, Value.isFunction_hostFunction]
  rfl

/-- A host function is no function of the script: its call runs no statements. -/
theorem run_callWithin (depth : Nat) (stack : Stack) (arguments : List Value) (world : World) :
    (callWithin host (depth + 1) stack (.hostFunction name) arguments).run world
      = (runNative host (callWithin host depth) stack ⟨.hostFunction name, arguments⟩).run
        world := by
  have ran : (runFunction host (callWithin host depth) stack ⟨.hostFunction name, arguments⟩).run
      world = (do
        let values ← runNative host (callWithin host depth) stack ⟨.hostFunction name, arguments⟩
        return (Sum.inr values : Request ⊕ List Value)).run world := rfl
  rw [callWithin, EStateM.run_bind, run_callable]
  dsimp only
  rw [run_repeating, ran, EStateM.run_bind]
  cases (runNative host (callWithin host depth) stack ⟨.hostFunction name, arguments⟩).run world
    <;> rfl

theorem run_runNative_of_le {call : Caller} {stack : Stack} {arguments : List Value}
    (enough : stack.height + 1 + arguments.length + libraryRoom ≤ Stack.slotLimit)
    (world : World) :
    (runNative host call stack ⟨.hostFunction name, arguments⟩).run world
      = (callHost host name arguments).run world := by
  unfold runNative
  rw [if_neg (Nat.not_lt.2 enough)]

theorem run_runNative_of_lt {call : Caller} {stack : Stack} {arguments : List Value}
    (few : Stack.slotLimit < stack.height + 1 + arguments.length + libraryRoom) (world : World) :
    (runNative host call stack ⟨.hostFunction name, arguments⟩).run world
      = .error (.string (markOf stack.site? ++ "stack overflow".toUTF8)) world := by
  unfold runNative
  rw [if_pos few]
  rfl

/-- A call that has room hands the arguments over. -/
theorem run_callWithin_of_room {depth : Nat} {stack : Stack} {arguments : List Value}
    (room : HasRoom depth stack arguments.length) (world : World) :
    (callWithin host depth stack (.hostFunction name) arguments).run world
      = (match exportItems (export? world) arguments with
        | .error error => raiseFailure error
        | .ok values => receive (host.call name values)).run world := by
  obtain ⟨positive, enough⟩ := room
  cases depth with
  | zero => exact absurd positive (Nat.lt_irrefl 0)
  | succ depth => rw [run_callWithin, run_runNative_of_le enough, run_callHost]

theorem run_callWithin_of_no_room {depth : Nat} {stack : Stack} {arguments : List Value}
    (full : ¬HasRoom depth stack arguments.length) (world : World) :
    (callWithin host depth stack (.hostFunction name) arguments).run world
      = .error (.string (markOf stack.site? ++ "stack overflow".toUTF8)) world := by
  cases depth with
  | zero => rfl
  | succ depth =>
    rw [run_callWithin, run_runNative_of_lt]
    exact Nat.not_le.1 fun enough => full ⟨Nat.succ_pos depth, enough⟩

/-- Every call of a host function by a script ends so. -/
theorem callEnds_callWithin (found : host.find? name = some function) (depth : Nat) (stack : Stack)
    (arguments : List Value) (world : World) :
    CallEnds name function depth stack arguments world
      ((callWithin host depth stack (.hostFunction name) arguments).run world) where
  answered room values value converted ok := by
    rw [run_callWithin_of_room room, exportItems_eq_ok_iff.2 converted]
    dsimp only
    rw [HostFunctions.call_of_find? found, ok, run_receive]
    rfl
  failed room values error converted failed := by
    rw [run_callWithin_of_room room, exportItems_eq_ok_iff.2 converted]
    dsimp only
    rw [HostFunctions.call_of_find? found, failed, run_receive]
    rfl
  refused room kept := by
    obtain ⟨argument, m, kept⟩ := kept
    rw [run_callWithin_of_room room]
    cases left : exportItems (export? world) arguments with
    | ok values =>
      obtain ⟨value, _, crosses⟩ := mem_left_of_forall₂ (exportItems_eq_ok_iff.1 left) m
      exact absurd crosses (kept value)
    | error error =>
      obtain ⟨other, m, refused⟩ := exists_of_exportItems_eq_error left
      exact ⟨other, m, error, refused, run_raiseFailure error world⟩
  overflowed full := run_callWithin_of_no_room full world

/-! ## Call expressions -/

/-- A name that no local variable has reads the global. -/
theorem run_values_name {frame : Frame} {value : Value} (line : Nat)
    (free : frame.resolve? name = none) (holds : world.globalNamed name = value)
    (there : value ≠ .nil) :
    ∃ after, (values frame (.name name line)).run world = .ok [value] after
      ∧ World.Alike world after := by
  obtain ⟨after, read, alike, _⟩ := run_rawGet world World.globals (.ofString name)
  have read : (rawGet World.globals (.ofString name)).run world = .ok value after :=
    holds ▸ read
  refine ⟨after, ?_, alike⟩
  have indexed : (index (frame.scene line) (.table World.globals) (.ofString name)).run world
      = .ok value after := by
    show (indexWithin (frame.scene line) (1999 + 1) (.table World.globals) (.ofString name)).run
      world = _
    rw [indexWithin]
    simp only [EStateM.run_bind, read, ne_eq, there, not_false_eq_true, if_true]
    rfl
  rw [values, Frame.lookup, free]
  simp only [EStateM.run_bind, indexed]
  rfl

/-- A call expression calls the value of its function, after the arguments are known. -/
theorem run_values_call {frame : Frame} {callee : Expr} {exprs : List Expr} {line slot : Nat}
    {between before : World} {results arguments : List Value}
    (called : (values frame callee).run world = .ok results between)
    (given : (valuesOf frame exprs).run between = .ok arguments before) :
    (values frame (.call callee exprs line slot)).run world
      = (frame.call (frame.stackFor line slot (calleeOf callee)) (firstOf results) arguments).run
        before := by
  rw [values]
  simp only [EStateM.run_bind, called, given]

/-- How a function ends when its last statement is a call that ended so. -/
def endedBy : EStateM.Result Value World (List Value) → EStateM.Result Value World Flow
  | .ok results after => .ok (.returned results) after
  | .error raised after => .error raised after

/-- A host function takes the place of no function: a function that ends with its call returns what
the call gives. -/
theorem run_execute_returnCall {frame : Frame} {callee : Expr} {exprs : List Expr} {line slot : Nat}
    {between before : World} {results arguments : List Value} (rest : List Stat)
    (called : (values frame callee).run world = .ok results between)
    (isHost : firstOf results = .hostFunction name)
    (given : (valuesOf frame exprs).run between = .ok arguments before) :
    (execute frame (.returnCall (.call callee exprs line slot) :: rest)).run world
      = endedBy ((frame.call (frame.stackFor line slot (calleeOf callee)) (.hostFunction name)
          arguments).run before) := by
  rw [execute]
  simp only [EStateM.run_bind, called, given, isHost, Frame.passOn, run_callable]
  generalize (frame.call _ _ _).run before = ended
  cases ended <;> rfl

/-! ## Scripts -/

/-- How a script reaches a host function. Its name is that of a global, which holds the function
from the start. All calls of a script with the functions of a host are calls by `callWithin`; the
most common ones are those of call expressions and of the calls that functions end with. -/
structure Serves (host : HostFunctions) (name : String) (function : HostFunction) : Prop where
  provided : (Interpreter.beginning host).globalNamed name = .hostFunction name
  read : ∀ frame line world, frame.resolve? name = none →
    World.globalNamed world name = .hostFunction name →
      ∃ after, (values frame (.name name line)).run world = .ok [.hostFunction name] after
        ∧ World.Alike world after
  called : ∀ depth stack arguments world,
    CallEnds name function depth stack arguments world
      ((callWithin host depth stack (.hostFunction name) arguments).run world)
  /-- The function and the arguments of a call are evaluated in front of it. -/
  expression : ∀ depth (frame : Frame) callee exprs line slot world between before results
    arguments, frame.call = callWithin host depth →
      (values frame callee).run world = .ok results between →
      firstOf results = .hostFunction name →
      (valuesOf frame exprs).run between = .ok arguments before →
        ∃ ended, CallEnds name function depth (frame.stackFor line slot (calleeOf callee)) arguments
            before ended
          ∧ (values frame (.call callee exprs line slot)).run world = ended
          ∧ ∀ rest, (execute frame (.returnCall (.call callee exprs line slot) :: rest)).run world
            = endedBy ended

theorem serves_of_find? (listed : name ∈ host.names) (found : host.find? name = some function) :
    Serves host name function where
  provided := by
    have named := Interpreter.functionNamed?_beginning host name
    rw [provided?, if_pos listed, World.functionNamed?] at named
    split at named
    · exact Option.some.inj named
    · cases named
  read frame line world free holds := run_values_name line free holds (by simp)
  called := callEnds_callWithin found
  expression depth frame callee exprs line slot world between before results arguments call called
      isHost given := by
    refine ⟨_, callEnds_callWithin found depth _ arguments before, ?_, fun rest => ?_⟩
    · rw [run_values_call called given, call, isHost]
    · rw [run_execute_returnCall rest called isHost given, call]

/-- A script that was loaded with the functions of a host. -/
structure LoadedWith (host : HostFunctions) (chunk source : String) (script : Interpreter) :
    Prop where
  /-- Its functions call the same host functions later. -/
  host_eq : script.host = host
  /-- Its top level has run with the host functions among the globals. -/
  ran : ∃ parsed results after, Chunk.parse chunk source = .ok parsed
    ∧ (runChunk host parsed).run (Interpreter.beginning host) = .ok results after
    ∧ script.world = after.withoutEffects

theorem loadedWith_of_load {chunk source : String} {script : Interpreter}
    (loaded : (Interpreter.load host chunk source).result = .ok script) :
    LoadedWith host chunk source script := by
  unfold Interpreter.load at loaded
  cases invalid : nameError? chunk with
  | some error =>
    rw [invalid] at loaded
    cases loaded
  | none =>
    rw [invalid] at loaded
    cases read : Chunk.parse chunk source with
    | error error =>
      rw [read] at loaded
      cases loaded
    | ok parsed =>
      rw [read] at loaded
      cases ran : (runChunk host parsed).run (Interpreter.beginning host) with
      | error raised after =>
        simp only [Interpreter.beginning] at ran
        simp only [ran] at loaded
        cases loaded
      | ok results after =>
        simp only [Interpreter.beginning] at ran
        simp only [ran] at loaded
        cases loaded
        exact ⟨rfl, parsed, results, after, read, ran, rfl⟩

/-- Of the functions that are registered with one name the first one counts, for the host and for
the scripts that are loaded with them. A script calls it only with arguments that all leave the
script, in their order; otherwise an error is raised, and the function does not run. -/
theorem registered_serve (registrations : List (String × HostFunction)) :
    (HostFunctions.registerAll registrations).KeepsFirst registrations
      ∧ (∀ chunk source script,
        (Interpreter.load (HostFunctions.registerAll registrations) chunk source).result
            = .ok script →
          LoadedWith (HostFunctions.registerAll registrations) chunk source script)
      ∧ ∀ name function, registrations.lookup name = some function →
        Serves (HostFunctions.registerAll registrations) name function := by
  have keeps := HostFunctions.keepsFirst_registerAll registrations
  refine ⟨keeps, fun chunk source script => loadedWith_of_load, fun name function first => ?_⟩
  have found := (HostFunctions.find?_registerAll registrations name).trans first
  have listed : name ∈ (HostFunctions.registerAll registrations).names := by
    rw [← keeps.contains_iff, HostFunctions.contains, found]
    rfl
  exact serves_of_find? listed found

/-- Of two functions with the name `log` the first one, which records what it is called with, is
called by a script, but not with a function among the arguments. -/
theorem registered_serve_of_log :
    let record : HostFunction := fun arguments => ⟨.ok .nil, [.recorded arguments]⟩
    let fail : HostFunction := fun _ => ⟨.error (.reported "BOOM" "nope"), []⟩
    let host := HostFunctions.registerAll [("log", record), ("fail", fail), ("log", fail)]
    let frame : Frame := ⟨caller host, hostStack, 4, 4, [], [], [], "lamp"⟩
    host.names = ["log", "fail"]
      ∧ host.call "log" [.integer 1] = ⟨.ok .nil, [.recorded [.integer 1]]⟩
      ∧ host.call "fail" [] = ⟨.error (.hostFunctionFailed "fail" (.reported "BOOM" "nope")), []⟩
      ∧ (host.call "other" []).result = .error (.hostFunctionUnknown "other")
      ∧ (∃ script, (Interpreter.load host "lamp" "log(1)\n").result = .ok script
        ∧ script.host = host)
      ∧ ∃ between,
        (values frame (.name "log" 1)).run (Interpreter.beginning host)
            = .ok [.hostFunction "log"] between
          ∧ (values frame (.call (.name "log" 1) [.constant (.integer 1)] 1 0)).run
              (Interpreter.beginning host)
            = .ok [.nil] (between.addEffects [.recorded [.integer 1]])
          ∧ (values frame (.call (.name "log" 1)
              [.constant (.integer 1), .constant (.builtin .print)] 1 0)).run
              (Interpreter.beginning host)
            = .error (.failure (Error.kindUnsupported "function").display between.serial)
              between.nextSerial := by
  intro record fail host frame
  obtain ⟨keeps, loads, serves⟩ :=
    registered_serve [("log", record), ("fail", fail), ("log", fail)]
  have log := serves "log" record rfl
  have runs : ∃ script, (Interpreter.load host "lamp" "log(1)\n").result = .ok script := by
    have builds : (Interpreter.load host "lamp" "log(1)\n").result.toBool = true := by
      decide +kernel
    cases loaded : (Interpreter.load host "lamp" "log(1)\n").result with
    | error error =>
      rw [loaded] at builds
      cases builds
    | ok script => exact ⟨script, rfl⟩
  obtain ⟨script, loaded⟩ := runs
  obtain ⟨between, read, _⟩ := log.read frame 1 (Interpreter.beginning host) rfl log.provided
  obtain ⟨_, plain, plain_run, _⟩ := log.expression Stack.slotLimit frame (.name "log" 1)
    [.constant (.integer 1)] 1 0 (Interpreter.beginning host) between between _ _ rfl read rfl rfl
  obtain ⟨_, mixed, mixed_run, _⟩ := log.expression Stack.slotLimit frame (.name "log" 1)
    [.constant (.integer 1), .constant (.builtin .print)] 1 0 (Interpreter.beginning host) between
    between _ _ rfl read rfl rfl
  refine ⟨by decide +kernel, keeps.call_of_ok "log" record _ _ rfl rfl,
    (keeps.call_of_error "fail" fail _ _ rfl rfl).1, ?_,
    ⟨script, loaded, (loads _ _ _ loaded).host_eq⟩, between, read, ?_, ?_⟩
  · rw [keeps.call_of_unknown "other" [] rfl]
  · rw [plain_run]
    exact plain.answered (by decide) [.integer 1] .nil (.cons rfl .nil) rfl
  · obtain ⟨argument, m, error, refused, ended⟩ :=
      mixed.refused (by decide) ⟨.builtin .print, by simp, fun value crosses => by cases crosses⟩
    rw [mixed_run, ended]
    -- The integer leaves the script, so that the error is the one of the function.
    rcases List.mem_pair.1 m with rfl | rfl
    · cases refused
    · cases refused
      rfl

end Script

end ScriptHost
