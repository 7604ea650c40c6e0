import ScriptHost.Proofs.Instance.Broadcast
import ScriptHost.Proofs.Tags.Attachments

/-!
# Single calls, and calls of all functions with a tag

A function of an instance runs alike whether its result is wanted or dropped. The functions with a
tag run one after the other, each in the state of the script that the one before has left, and an
error of one keeps none of the others from running.

* `Instance.invoked` : what a function returns or raises, and the instance afterwards.
* `Instance.run_call_of_some`, `Instance.run_tryCallOutcome_of_some` : both ways to call a function,
  by what it does.
* `Instance.call_agrees_tryCallOutcome` : the two ways agree.
* `Instance.InTurn` : functions that run one after the other.
* `Instance.callWithTag_isolated` : which functions a tag calls, in which states, and how many of
  them end without an error.
-/

namespace ScriptHost

/-! ## What host functions did -/

namespace Event

/-- What host functions did by a journal, the earliest first. -/
def effects (journal : List Event) : List Effect :=
  journal.reverse.filterMap fun event =>
    match event with
    | effect done => some done
    | _ => none

/-- A failure that is noted is nothing that a host function did. -/
@[simp] theorem effects_cons_invocationFailed (script function : String) (failure : Error)
    (journal : List Event) :
    effects (.invocationFailed script function failure :: journal) = effects journal := by
  simp [effects]

end Event

namespace Instance

open Script.Interpreter (exportResult raisedError)

/-! ## Running a function -/

/-- What a function returns or raises when it is called, and the instance afterwards. What it did to
the script stays, in either case. -/
def invoked (inst : Instance) (function : String) (handle : FunctionHandle)
    (arguments : List Value) : Except Script.Value (List Script.Value) × Instance :=
  let (result, script, effects) :=
    inst.script.compute (inst.script.invoke handle.function arguments)
  (result, { inst with
    script
    journal := effectEvents effects
      ++ .invoked inst.name function arguments.length :: inst.journal })

/-- What a direct call gives when a function has returned or raised something. -/
def answer (after : Instance) : Except Script.Value (List Script.Value) → Except Error Value
  | .ok results => exportResult after.script.world results
  | .error raised => .error (raisedError raised)

/-- How a call ends that drops the results, when a function has returned or raised something. -/
def outcome : Except Script.Value (List Script.Value) → CallOutcome
  | .ok _ => .completed
  | .error raised => .failed (raisedError raised)

/-- An instance after its function has returned or raised something; an error is noted. -/
def noted (after : Instance) (function : String) :
    Except Script.Value (List Script.Value) → Instance
  | .ok _ => after
  | .error raised =>
    { after with
      journal := .invocationFailed after.name function (raisedError raised) :: after.journal }

variable {inst : Instance} {name : String} {arguments : List Value}

/-- A script that is run takes part in an instance by its state and by what host functions did. -/
theorem run_onScript {α : Type}
    (operation : Script.Interpreter → Script.Interpreter.Outcome α × Script.Interpreter)
    (inst : Instance) :
    (onScript operation).run inst
      = ((operation inst.script).1.result,
          { inst with
            script := (operation inst.script).2
            journal := effectEvents (operation inst.script).1.effects ++ inst.journal }) := rfl

/-- An action that reads the instance first goes on with it. -/
theorem run_get_bind {α : Type} (next : Instance → Action α) (inst : Instance) :
    (get >>= next).run inst = (next inst).run inst := rfl

theorem run_note_bind {α : Type} (event : Event) (next : Unit → Action α) (inst : Instance) :
    (note event >>= next).run inst
      = (next ()).run { inst with journal := event :: inst.journal } := rfl

/-- A function that is not there is not called. -/
theorem run_call_of_none (missing : inst.function? name arguments.length = none) :
    (call name arguments).run inst
      = (.error (.functionNotFound inst.name name arguments.length), inst) := by
  rw [call, run_get_bind, missing]
  rfl

theorem run_tryCallOutcome_of_none (missing : inst.function? name arguments.length = none) :
    (tryCallOutcome name arguments).run inst = (.missing, inst) := by
  rw [tryCallOutcome, run_get_bind, missing]
  rfl

/-- A direct call runs the function and gives its first result. -/
theorem run_call_of_some {handle : FunctionHandle}
    (found : inst.function? name arguments.length = some handle) :
    (call name arguments).run inst
      = (answer (inst.invoked name handle arguments).2 (inst.invoked name handle arguments).1,
          (inst.invoked name handle arguments).2) := by
  rw [call, run_get_bind, found]
  dsimp only
  rw [run_note_bind, run_onScript, Script.Interpreter.call, Script.Interpreter.perform, invoked]
  generalize inst.script.compute (inst.script.invoke handle.function arguments) = computed
  obtain ⟨result, after, effects⟩ := computed
  cases result with
  | ok results => rfl
  | error raised => rfl

/-- A call that drops the results runs the function, and notes what it raises. -/
theorem run_tryCallOutcome_of_some {handle : FunctionHandle}
    (found : inst.function? name arguments.length = some handle) :
    (tryCallOutcome name arguments).run inst
      = (outcome (inst.invoked name handle arguments).1,
          noted (inst.invoked name handle arguments).2 name
            (inst.invoked name handle arguments).1) := by
  rw [tryCallOutcome, run_get_bind, found]
  dsimp only
  rw [run_note_bind, StateT.run_bind, run_onScript, Script.Interpreter.run,
    Script.Interpreter.perform, invoked]
  generalize inst.script.compute (inst.script.invoke handle.function arguments) = computed
  obtain ⟨result, after, effects⟩ := computed
  cases result with
  | ok results => rfl
  | error raised => rfl

/-! ## Both ways to call a function -/

theorem script_noted (after : Instance) (function : String)
    (result : Except Script.Value (List Script.Value)) :
    (noted after function result).script = after.script := by
  cases result with
  | ok _ => rfl
  | error _ => rfl

theorem effects_noted (after : Instance) (function : String)
    (result : Except Script.Value (List Script.Value)) :
    Event.effects (noted after function result).journal = Event.effects after.journal := by
  cases result with
  | ok _ => rfl
  | error raised => exact Event.effects_cons_invocationFailed _ _ _ _

/-- What a direct call gives when the function has returned: a value, or that the result has no form
outside the script. -/
theorem answer_ok (after : Instance) (results : List Script.Value) :
    (∃ value, answer after (.ok results) = .ok value)
      ∨ ∃ cause, answer after (.ok results) = .error (.resultUnsupported cause) := by
  unfold answer exportResult
  dsimp only
  cases Script.export? after.script.world (Script.firstOf results) with
  | ok value => exact .inl ⟨value, rfl⟩
  | error cause => exact .inr ⟨cause, rfl⟩

section

variable (after : Instance) (result : Except Script.Value (List Script.Value))

theorem outcome_ne_missing : outcome result ≠ .missing := by
  cases result with
  | ok _ => exact nofun
  | error _ => exact nofun

/-- A function that is run is not said to be missing. -/
theorem code_answer_ne {error : Error} (h : answer after result = .error error) :
    error.code ≠ "FUNCTION_NOT_FOUND" := by
  cases result with
  | ok results =>
    rcases answer_ok after results with ⟨value, answered⟩ | ⟨cause, answered⟩
    · rw [answered] at h
      cases h
    · rw [answered] at h
      cases h
      simp [Error.code]
  | error raised =>
    cases h
    simp [Error.code, raisedError]

/-- A function completes when a direct call gives its result, or cannot give it outside the
script. -/
theorem outcome_eq_completed_iff :
    outcome result = .completed
      ↔ (∃ value, answer after result = .ok value)
        ∨ ∃ error, answer after result = .error error ∧ error.code = "RETURN_UNSUPPORTED" := by
  cases result with
  | ok results =>
    refine iff_of_true rfl ?_
    rcases answer_ok after results with answered | ⟨cause, answered⟩
    · exact .inl answered
    · exact .inr ⟨_, answered, rfl⟩
  | error raised => simp [outcome, answer, raisedError, Error.code]

/-- A function fails with the error that a direct call gives, unless that is about the result. -/
theorem outcome_eq_failed_iff {error : Error} :
    outcome result = .failed error
      ↔ answer after result = .error error ∧ error.code ≠ "RETURN_UNSUPPORTED" := by
  cases result with
  | ok results =>
    refine iff_of_false nofun ?_
    rintro ⟨answered, code⟩
    rcases answer_ok after results with ⟨value, given⟩ | ⟨cause, given⟩
    · rw [given] at answered
      cases answered
    · rw [given] at answered
      cases answered
      exact code rfl
  | error raised =>
    constructor
    · intro failed
      cases failed
      exact ⟨rfl, by simp [Error.code, raisedError]⟩
    · rintro ⟨answered, _⟩
      cases answered
      rfl

end

/-- A function that is called directly, and one whose result is dropped, leave the same state of the
script, and host functions do the same. The function is missing exactly if no function of the name
takes so many arguments; the direct call says that then, and nothing is run. Otherwise the call that
drops the result completes exactly if the direct call gives a result or one that has no form outside
the script, and it fails exactly with the error of the direct call. -/
theorem call_agrees_tryCallOutcome (inst : Instance) (name : String) (arguments : List Value) :
    let direct := (call name arguments).run inst
    let tried := (tryCallOutcome name arguments).run inst
    tried.2.script = direct.2.script
      ∧ Event.effects tried.2.journal = Event.effects direct.2.journal
      ∧ (tried.1 = .missing ↔ inst.function? name arguments.length = none)
      ∧ (tried.1 = .missing ↔ ∃ error, direct.1 = .error error ∧ error.code = "FUNCTION_NOT_FOUND")
      ∧ (tried.1 = .missing
          ↔ direct = (.error (.functionNotFound inst.name name arguments.length), inst)
            ∧ tried = (.missing, inst))
      ∧ (tried.1 = .completed
          ↔ (∃ value, direct.1 = .ok value)
            ∨ ∃ error, direct.1 = .error error ∧ error.code = "RETURN_UNSUPPORTED")
      ∧ ∀ error, tried.1 = .failed error
          ↔ direct.1 = .error error ∧ error.code ≠ "FUNCTION_NOT_FOUND"
            ∧ error.code ≠ "RETURN_UNSUPPORTED" := by
  intro direct tried
  cases found : inst.function? name arguments.length with
  | none =>
    have direct_eq : direct = _ := run_call_of_none found
    have tried_eq : tried = _ := run_tryCallOutcome_of_none found
    rw [direct_eq, tried_eq]
    simp [Error.code]
  | some handle =>
    have direct_eq : direct = _ := run_call_of_some found
    have tried_eq : tried = _ := run_tryCallOutcome_of_some found
    rw [direct_eq, tried_eq]
    generalize inst.invoked name handle arguments = ended
    have present := outcome_ne_missing ended.1
    have code (error : Error) := @code_answer_ne ended.2 ended.1 error
    refine ⟨script_noted _ _ _, effects_noted _ _ _, ?_, ?_, ?_, outcome_eq_completed_iff _ _, ?_⟩
    · exact iff_of_false present nofun
    · exact iff_of_false present fun ⟨error, answered, isMissing⟩ => code error answered isMissing
    · exact iff_of_false present fun ⟨_, same⟩ => present (congrArg Prod.fst same)
    · intro error
      rw [outcome_eq_failed_iff ended.2]
      constructor
      · exact fun ⟨answered, other⟩ => ⟨answered, code error answered, other⟩
      · exact fun ⟨answered, _, other⟩ => ⟨answered, other⟩

/-! ## Functions that run one after the other -/

/-- A function that was called, and what it returned or raised. -/
structure Invocation where
  function : String
  result : Except Script.Value (List Script.Value)

/-- Whether the function returned, whatever that was. -/
def Invocation.completed (invocation : Invocation) : Bool := invocation.result.isOk

/-- Functions of an instance are called with the same arguments one after the other, each in the
state that the one before has left, whether that returned or raised an error. -/
inductive InTurn (arguments : List Value) : Instance → List Invocation → Instance → Prop
  | none (inst : Instance) : InTurn arguments inst [] inst
  | next {inst after : Instance} {function : String} {handle : FunctionHandle}
      {invocations : List Invocation} :
      inst.function? function arguments.length = some handle →
      InTurn arguments
        (noted (inst.invoked function handle arguments).2 function
          (inst.invoked function handle arguments).1) invocations after →
      InTurn arguments inst
        (⟨function, (inst.invoked function handle arguments).1⟩ :: invocations) after

theorem run_callEach_cons (arguments : List Value) (name : String) (names : List String)
    (inst : Instance) :
    (callEach arguments (name :: names)).run inst
      = let first := (tryCallOutcome name arguments).run inst
        let rest := (callEach arguments names).run first.2
        (if first.1 = .completed then rest.1 + 1 else rest.1, rest.2) := by
  show
    (if decide (((tryCallOutcome name arguments).run inst).1 = .completed) = true then _ else _, _)
      = _
  simp only [decide_eq_true_eq]
  rfl

/-- Of some functions, those that take so many arguments run one after the other, and the count is
that of those that return. -/
theorem inTurn_callEach (arguments : List Value) (names : List String) (inst : Instance) :
    ∃ invocations, InTurn arguments inst invocations ((callEach arguments names).run inst).2
      ∧ ((callEach arguments names).run inst).1 = invocations.countP Invocation.completed
      ∧ invocations.map Invocation.function
        = names.filter fun function => (inst.function? function arguments.length).isSome := by
  induction names generalizing inst with
  | nil => exact ⟨[], .none inst, rfl, rfl⟩
  | cons name names ih =>
    have same := (noting_tryCallOutcome name arguments).steady inst
    obtain ⟨invocations, inTurn, count, functions⟩ :=
      ih ((tryCallOutcome name arguments).run inst).2
    simp only [same.function?_eq] at functions
    rw [run_callEach_cons]
    cases found : inst.function? name arguments.length with
    | none =>
      rw [run_tryCallOutcome_of_none found] at inTurn count ⊢
      refine ⟨invocations, inTurn, count, ?_⟩
      rw [functions, List.filter_cons_of_neg]
      simp [found]
    | some handle =>
      rw [run_tryCallOutcome_of_some found] at inTurn count ⊢
      refine ⟨_, .next found inTurn, ?_, ?_⟩
      · rw [List.countP_cons, ← count, Invocation.completed]
        cases (inst.invoked name handle arguments).1 with
        | ok _ => rfl
        | error _ => rfl
      · rw [List.map_cons, functions, List.filter_cons_of_pos]
        simp [found]

/-- The functions that a tag calls, by the tags of the instance and by its registry. -/
theorem mem_reached_iff {built : Instance} (consistent : built.tags.Consistent)
    {tag function : String} {arity : Nat} :
    function ∈ reached true built tag arity
      ↔ built.tags.hasTag function tag = true ∧ (built.function? function arity).isSome = true := by
  have answers := consistent.describes.answers
  rw [reached, List.mem_filter, answers.mem_functionsWithTag_iff, answers.hasTag_iff,
    Bool.true_or, Bool.true_and]

theorem ascending_reached {built : Instance} (consistent : built.tags.Consistent) (tag : String)
    (arity : Nat) : NameSet.Ascending (reached true built tag arity) :=
  (consistent.describes.answers.functionsWithTag_ascending tag).filter _

/-- When the functions with a tag are called on an instance that was built, in whatever state its
script is by now, then each function that has the tag and takes so many arguments is called once, in
ascending order of the names, and nothing else is called: which functions these are hangs on the
tags and the registry alone, and not on what any of them does. Each runs in the state that the one
before has left, whether that returned or raised an error. The result is the number of those that
returned, whatever they returned. -/
theorem callWithTag_isolated {host : HostFunctions} {name source : String} {built inst : Instance}
    (h : (build host name source).1 = .ok built) (state : SameBuild built inst) (tag : String)
    (arguments : List Value) :
    ∃ invocations after,
      (callWithTag tag arguments).run inst = (invocations.countP Invocation.completed, after)
        ∧ InTurn arguments inst invocations after
        ∧ invocations.map Invocation.function = reached true built tag arguments.length
        ∧ NameSet.Ascending (reached true built tag arguments.length)
        ∧ (∀ function, function ∈ reached true built tag arguments.length
            ↔ built.tags.hasTag function tag = true
              ∧ (built.function? function arguments.length).isSome = true)
        ∧ Event.calls after.journal = Event.calls inst.journal
            ++ (reached true built tag arguments.length).map fun function =>
              .invoked inst.name function arguments.length := by
  have consistent := TagIndex.consistent_of_build h
  obtain ⟨invocations, inTurn, count, functions⟩ :=
    inTurn_callEach arguments (inst.tags.functionsWithTag tag) inst
  have calls := calls_callEach arguments (inst.tags.functionsWithTag tag) inst
  have whole : ((inst.tags.functionsWithTag tag).filter fun function =>
      (inst.function? function arguments.length).isSome)
        = reached true built tag arguments.length := by
    simp only [reached, state.tags_eq, state.function?_eq, Bool.true_or, Bool.true_and]
  rw [whole] at functions calls
  refine ⟨invocations, _, Prod.ext count rfl, inTurn, functions,
    ascending_reached consistent tag _, fun function => mem_reached_iff consistent, calls⟩

/-- Of two functions that are called when a lamp goes on, the first raises an error. The second runs
all the same and sees what the first has done; that it returns itself, which has no form outside the
script, does not count. A third function takes an argument and is not called. -/
theorem callWithTag_isolated_of_lamp :
    let source := "#On\nfunction a() n = n * 2 error() end\n#On\nfunction b() n = n + 1 return b end\n"
      ++ "#On\nfunction c(x) n = 0 end"
    ∃ (built : Instance) (invocations : List Invocation) (after : Instance),
      (build .empty "lamp" source).1 = .ok built
        ∧ (callWithTag "On" []).run ((setGlobal "n" (.integer 5)).run built).2
          = (invocations.countP Invocation.completed, after)
        ∧ invocations.map Invocation.function = ["a", "b"]
        ∧ invocations.countP Invocation.completed = 1
        ∧ ((global "n").run after).1.toOption.bind Value.asInteger? = some 11 := by
  intro source
  have there : ∃ built, built ∈ (build .empty "lamp" source).1.toOption
      ∧ reached true built "On" 0 = ["a", "b"]
      ∧ ((callWithTag "On" []).run ((setGlobal "n" (.integer 5)).run built).2).1 = 1
      ∧ ((global "n").run
          ((callWithTag "On" []).run ((setGlobal "n" (.integer 5)).run built).2).2).1.toOption.bind
          Value.asInteger? = some 11 := by
    decide +kernel
  obtain ⟨built, member, names, one, left⟩ := there
  have is_built := eq_ok_of_mem_toOption member
  have state := (silent_setGlobal "n" (.integer 5)).steady built
  obtain ⟨invocations, after, run, _, functions, _⟩ := callWithTag_isolated is_built state "On" []
  rw [run] at one left
  exact ⟨built, invocations, after, is_built, run, functions.trans names, one, left⟩

end Instance

end ScriptHost
