import ScriptHost.Proofs.Component.Operations
import ScriptHost.Proofs.Instance.Capture

/-!
# Errors of a life

The functions of a script may raise errors at any time, and a component goes on. What fails in its
life is a build and nothing else, so a life ends early with an error of a build only.

* `Error.isOfBuild` : the errors of builds.
* `Component.isOfBuild_of_rebuilt` : a build fails with one of these.
* `Component.Action.OnlyBuildFails` : the actions of which nothing but a build fails.
-/

namespace ScriptHost

/-- Whether a build can fail with an error: its source cannot be read, is no script, raises an error
at its top level, or does not take a binding. -/
def Error.isOfBuild : Error → Bool
  | sourceNotRead _ | notCompiled _ | notLoaded _ | globalNotWritten _ => true
  | _ => false

theorem Error.code_of_isOfBuild {error : Error} (h : error.isOfBuild) :
    error.code ∈
      ["SOURCE_READ", "SCRIPT_COMPILE_ERROR", "SCRIPT_LOAD_ERROR", "SCRIPT_GLOBAL_ERROR"] := by
  cases error with
  | sourceNotRead path => simp [code]
  | notCompiled message => simp [code]
  | notLoaded message => simp [code]
  | globalNotWritten message => simp [code]
  | _ => cases h

/-! ## Builds -/

namespace Script

theorem isOfBuild_nameError? {name : String} {error : Error} (h : nameError? name = some error) :
    error.isOfBuild := by
  unfold nameError? at h
  split at h
  · cases h
    rfl
  · cases h

theorem isOfBuild_onLoad (error : ParseError) (chunk : String) :
    (error.onLoad chunk).isOfBuild := by
  cases error <;> rfl

namespace Interpreter

theorem isOfBuild_of_load {host : HostFunctions} {name source : String} {error : Error}
    (failed : (load host name source).result = .error error) : error.isOfBuild := by
  unfold load at failed
  split at failed
  · next unnamed =>
    cases failed
    exact isOfBuild_nameError? unnamed
  · split at failed
    · cases failed
      exact isOfBuild_onLoad _ name
    · split at failed
      · cases failed
        rfl
      · cases failed

theorem isOfBuild_of_setGlobal {script : Interpreter} {name : String} {value : ScriptHost.Value}
    {error : Error} (failed : (script.setGlobal name value).1.result = .error error) :
    error.isOfBuild := by
  unfold setGlobal perform at failed
  split at failed
  · cases failed
  · cases failed
    rfl

end Interpreter

end Script

theorem Instance.isOfBuild_of_build {host : HostFunctions} {name source : String} {error : Error}
    (failed : (Instance.build host name source).1 = .error error) : error.isOfBuild := by
  unfold Instance.build at failed
  dsimp only at failed
  split at failed
  · next not_loaded =>
    cases failed
    exact Script.Interpreter.isOfBuild_of_load not_loaded
  · cases failed

namespace Component

theorem isOfBuild_of_setBindings (bindings : Entries Value) (inst : Instance) :
    Instance.Action.Yields (setBindings bindings) inst fun result _ =>
      ∀ error, result = .error error → error.isOfBuild := by
  induction bindings generalizing inst with
  | nil =>
    refine Instance.yields_pure ?_
    intro error failed
    cases failed
  | cons binding bindings ih =>
    have set : Instance.Action.Yields (Instance.setGlobal binding.1 binding.2) inst fun result _ =>
        ∀ error, result = .error error → error.isOfBuild :=
      fun error failed => Script.Interpreter.isOfBuild_of_setGlobal failed
    refine Instance.yields_bind (set.mono ?_)
    intro result after blamed
    cases result with
    | error reason =>
      refine Instance.yields_pure ?_
      intro error same
      cases same
      exact blamed reason rfl
    | ok _ => exact ih after

theorem isOfBuild_of_loadSource {source : ScriptSource} {files : FileTree} {error : Error}
    (failed : source.load files = .error error) : error.isOfBuild := by
  cases source with
  | literal text => cases failed
  | file path =>
    unfold ScriptSource.load at failed
    dsimp only at failed
    split at failed
    · cases failed
    · cases failed
      rfl

/-- A build fails with an error of a build. -/
theorem isOfBuild_of_rebuilt {files : FileTree} {config : Config} {bindings : Entries Value}
    {host : HostFunctions} {error : Error}
    (failed : rebuilt files config bindings host = .error error) : error.isOfBuild := by
  unfold rebuilt at failed
  cases loaded : config.source.load files with
  | error reason =>
    rw [loaded] at failed
    cases failed
    exact isOfBuild_of_loadSource loaded
  | ok source =>
    cases built : (Instance.build host config.name source).1 with
    | error reason =>
      simp only [loaded, built, Bind.bind, Except.bind] at failed
      cases failed
      exact Instance.isOfBuild_of_build built
    | ok first =>
      cases bound : ((setBindings bindings).run first).1 with
      | error reason =>
        simp only [loaded, built, bound, Bind.bind, Except.bind] at failed
        cases failed
        exact isOfBuild_of_setBindings bindings first _ bound
      | ok _ =>
        simp only [loaded, built, bound, Bind.bind, Except.bind] at failed
        cases failed

/-! ## Actions -/

variable {α β : Type}

/-- An action fails with errors of builds only. -/
def Action.OnlyBuildFails (action : Action (Except Error α)) : Prop :=
  ∀ files component, action.Yields files component fun result _ =>
    ∀ error, result = .error error → error.isOfBuild

namespace Action.OnlyBuildFails

theorem ok (a : α) : OnlyBuildFails (pure (.ok a)) := by
  refine fun _ _ => yields_pure ?_
  intro error failed
  cases failed

/-- An action whose first part cannot fail. -/
theorem bind {action : Action β} {next : β → Action (Except Error α)}
    (h : ∀ b, OnlyBuildFails (next b)) : OnlyBuildFails (action >>= next) :=
  fun files _ => yields_bind (h _ files _)

/-- An action that ends when its first part fails, with the same error. -/
theorem attempt {action : Action (Except Error β)} {next : Except Error β → Action (Except Error α)}
    (h : OnlyBuildFails action) (stops : ∀ error, next (.error error) = pure (.error error))
    (k : ∀ b, OnlyBuildFails (next (.ok b))) : OnlyBuildFails (action >>= next) := by
  intro files start
  refine yields_bind ((h files start).mono ?_)
  intro result other blamed
  cases result with
  | error error =>
    rw [stops]
    refine yields_pure ?_
    rintro _ same
    cases same
    exact blamed error rfl
  | ok b => exact k b files other

end Action.OnlyBuildFails

theorem onlyBuildFails_build : build.OnlyBuildFails := by
  intro files component
  refine (yields_build files component).mono ?_
  rintro _ other ⟨rfl, _⟩ error failed
  exact isOfBuild_of_rebuilt failed

theorem onlyBuildFails_ensureLive : ensureLive.OnlyBuildFails := by
  refine .bind fun component => ?_
  split
  · exact .ok ()
  · exact .attempt onlyBuildFails_build (fun _ => rfl) fun inst => .bind fun _ => .ok ()

theorem onlyBuildFails_awake : awake.OnlyBuildFails :=
  .attempt onlyBuildFails_ensureLive (fun _ => rfl) fun _ => .bind fun _ => .ok ()

theorem onlyBuildFails_enable : enable.OnlyBuildFails :=
  .attempt onlyBuildFails_ensureLive (fun _ => rfl) fun _ => .bind fun _ => .bind fun _ => .ok ()

theorem onlyBuildFails_reload : reload.OnlyBuildFails :=
  .bind fun _ => .bind fun _ => .bind fun _ => onlyBuildFails_enable

theorem onlyBuildFails_advancePending (delta : Nat) : (advancePending delta).OnlyBuildFails := by
  refine .bind fun component => ?_
  split
  · exact .ok ()
  · refine .bind fun _ => ?_
    split
    · exact onlyBuildFails_reload
    · exact .ok ()
  · exact .bind fun _ => .ok ()

theorem onlyBuildFails_update (delta : Nat) : (update delta).OnlyBuildFails :=
  .attempt (onlyBuildFails_advancePending delta) (fun _ => rfl) fun _ => .bind fun _ => .ok ()

theorem onlyBuildFails_notifySourceModified : notifySourceModified.OnlyBuildFails := by
  refine .bind fun component => ?_
  split
  · exact onlyBuildFails_reload
  · exact .ok ()

theorem onlyBuildFails_startUp : startUp.OnlyBuildFails :=
  .attempt onlyBuildFails_awake (fun _ => rfl) fun _ =>
    .attempt onlyBuildFails_enable (fun _ => rfl) fun _ => .bind fun _ => .ok ()

end Component

end ScriptHost
