import ScriptHost.Proofs.Component.Operations
import ScriptHost.Proofs.Instance.Broadcast

/-!
# What happens to the instances of a component

The operations on a component do four things to an instance: they call its functions with a tag,
call one of its functions, give it captured variables, and capture its variables when it is torn
down. The history of a run tells these, and the journal shows the calls that they make.

* `Happening` : what is done to an instance.
* `Component.Operation.history`, `Component.history` : what an operation does to instances, and
  what a run does.
* `Component.Records` : between two states of a component some things happened.
* `Component.records_run` : the calls in the journal of a run are those of its history.
-/

namespace ScriptHost

/-- What is done to an instance. -/
inductive Happening where
  /-- Its functions with a tag are called. -/
  | told (target : Instance) (tag : String) (arguments : List Value)
  /-- One of its functions is called. -/
  | asked (target : Instance) (name : String) (arguments : List Value)
  /-- It is given captured variables. -/
  | restored (target : Instance) (snapshot : Snapshot)
  /-- Its variables are captured before it is torn down. -/
  | captured (target : Instance) (snapshot : Snapshot)

/-- The calls that the host makes. -/
def Happening.calls (editor : Bool) : Happening → List Event
  | told target tag arguments =>
    .broadcast target.name tag
      :: target.invocations arguments.length (Instance.reached editor target tag arguments.length)
  | asked target name arguments =>
    target.invocations arguments.length
      ([name].filter fun function => (target.function? function arguments.length).isSome)
  | restored .. | captured .. => []

namespace Component

/-! ## Histories -/

/-- The functions of the live instance with a tag are called. -/
def tellings (tag : String) (arguments : List Value) (component : Component) : List Happening :=
  component.live?.toList.map fun inst => .told inst tag arguments

/-- The live instance is given the captured variables. -/
def restorings (component : Component) : List Happening :=
  component.live?.toList.map fun inst => .restored inst component.snapshot

/-- An instance after it was told that it is off. -/
def toldOff (component : Component) (inst : Instance) : Instance :=
  { ((broadcast component.config.isEditor disableTag []).run inst).2 with journal := [] }

/-- The live instance is told that it is off, and then captured. -/
def tearings (component : Component) : List Happening :=
  component.live?.toList.flatMap fun inst =>
    [.told inst disableTag [],
      .captured (component.toldOff inst) (Instance.capture.run (component.toldOff inst)).1]

/-- What happens when a component is enabled: unless the build fails, the instance is given the
captured variables and told that it is on. -/
def enablings (files : FileTree) (component : Component) : List Happening :=
  match ensureLive.result files component with
  | .error _ => []
  | .ok () =>
    let built := ensureLive.after files component
    restorings built ++ tellings enableTag [] (restore.after files built)

/-- What happens on a reload: the instance is torn down, and another one is enabled. -/
def reloadings (files : FileTree) (component : Component) : List Happening :=
  let noted := (note (.reloading component.config.name)).after files component
  tearings noted ++ enablings files (disable.after files noted)

/-- What happens when time passes before the script is told: an edit that has waited long enough
makes it reload. -/
def advancings (files : FileTree) (component : Component) : List Happening :=
  match component.pendingReload? with
  | some 0 =>
    if component.isActive then reloadings files { component with pendingReload? := none } else []
  | _ => []

/-- What an operation does to instances. -/
def Operation.history (files : FileTree) (component : Component) : Operation → List Happening
  | awake =>
    match ensureLive.result files component with
    | .error _ => []
    | .ok () => tellings awakeTag [] (ensureLive.after files component)
  | enable => enablings files component
  | start => tellings startTag [] component
  | update delta =>
    advancings files component ++
      match (advancePending delta).result files component with
      | .error _ => []
      | .ok () => tellings updateTag [] ((advancePending delta).after files component)
  | fixedUpdate => tellings fixedUpdateTag [] component
  | disable => tearings component
  | reload => reloadings files component
  | notifySourceModified => if component.isActive then reloadings files component else []
  | dispatch tag arguments => tellings tag arguments component
  | call name arguments => component.live?.toList.map fun inst => .asked inst name arguments
  | setSourceText _ | loadSnapshot _ | bind .. => []

/-- What some operations do to instances, one after the other. -/
def history (component : Component) : List (FileTree × Operation) → List Happening
  | [] => []
  | step :: steps =>
    step.2.history step.1 component ++ history (step.2.after step.1 component) steps

/-! ## What the journal shows -/

/-- The journal of the live instance was taken, as every operation on it does at its end. -/
def Tidy (component : Component) : Prop := ∀ inst, component.live? = some inst → inst.journal = []

theorem tidy_idle (config : Config) (host : HostFunctions) : (idle config host).Tidy := by
  rintro inst ⟨⟩

/-- Between the two states these things happened: the journal shows their calls and no others. -/
structure Records (component : Component) (happenings : List Happening) (other : Component) :
    Prop where
  isEditor_eq : other.config.isEditor = component.config.isEditor
  tidy : other.Tidy
  calls_eq : Event.calls other.journal = Event.calls component.journal
    ++ happenings.flatMap (Happening.calls component.config.isEditor)

variable {component : Component}

theorem Records.refl (tidy : component.Tidy) : Records component [] component :=
  ⟨rfl, tidy, (List.append_nil _).symm⟩

theorem Records.trans {middle last : Component} {first second : List Happening}
    (h : Records component first middle) (k : Records middle second last) :
    Records component (first ++ second) last := by
  refine ⟨k.isEditor_eq.trans h.isEditor_eq, k.tidy, ?_⟩
  rw [k.calls_eq, h.calls_eq, h.isEditor_eq, List.append_assoc, List.flatMap_append]

variable {α : Type} (files : FileTree)

/-- An event that is no call is nothing that happens to an instance. -/
theorem records_note (tidy : component.Tidy) {event : Event} (other : event.isCall = false) :
    (note event).Yields files component fun _ other => Records component [] other := by
  refine yields_note ⟨rfl, tidy, ?_⟩
  rw [Event.calls_cons_of_not_isCall other, List.flatMap_nil, List.append_nil]

/-- An action on an instance at hand makes the calls that it makes on the instance. -/
theorem records_onInstance {inst : Instance} {action : Instance.Action α}
    {happenings : List Happening} (tidy : component.Tidy)
    (calls : Event.calls (action.run inst).2.journal
      = happenings.flatMap (Happening.calls component.config.isEditor)) :
    (onInstance inst action).Yields files component fun result other =>
      Records component happenings other
        ∧ result = ((action.run inst).1, { (action.run inst).2 with journal := [] }) := by
  refine yields_onInstance ⟨⟨rfl, tidy, ?_⟩, rfl⟩
  rw [Event.calls_append, calls]

/-- An action that calls nothing is nothing that happens to an instance. -/
theorem records_onInstance_silent {inst : Instance} {action : Instance.Action α}
    (tidy : component.Tidy) (silent : Instance.Silent action) (taken : inst.journal = []) :
    (onInstance inst action).Yields files component fun result other =>
      Records component [] other
        ∧ result = ((action.run inst).1, { (action.run inst).2 with journal := [] }) := by
  refine records_onInstance files tidy ?_
  rw [silent.calls_eq, taken]
  rfl

/-! ## Calls of the live instance -/

/-- An action on the live instance makes the calls that it makes on the instance. -/
theorem records_onLive {action : Instance.Action α} (happening : Instance → Happening)
    (tidy : component.Tidy)
    (calls : ∀ inst, Event.calls (action.run inst).2.journal = Event.calls inst.journal
      ++ (happening inst).calls component.config.isEditor) :
    (onLive action).Yields files component fun _ other =>
      Records component (component.live?.toList.map happening) other := by
  refine yields_bind (yields_get ?_)
  split
  · next idle =>
    rw [idle]
    exact yields_pure (.refl tidy)
  · next inst live =>
    have made : Event.calls (action.run inst).2.journal
        = [happening inst].flatMap (Happening.calls component.config.isEditor) := by
      rw [calls, tidy inst live, List.flatMap_singleton]
      rfl
    refine yields_bind ((records_onInstance files tidy made).mono ?_)
    rintro _ other ⟨records, rfl⟩
    refine yields_bind (yields_modify (yields_pure ?_))
    rw [live]
    refine ⟨records.isEditor_eq, ?_, records.calls_eq⟩
    rintro inst ⟨⟩
    rfl

theorem records_dispatch (tag : String) (arguments : List Value) (tidy : component.Tidy) :
    (dispatch tag arguments).Yields files component fun _ other =>
      Records component (tellings tag arguments component) other := by
  refine yields_bind (yields_get (yields_bind ?_))
  have told := records_onLive files (fun inst => .told inst tag arguments) tidy
    (Instance.calls_broadcast component.config.isEditor tag arguments)
  exact told.mono fun _ _ records => yields_pure records

theorem records_call (name : String) (arguments : List Value) (tidy : component.Tidy) :
    (call name arguments).Yields files component fun _ other =>
      Records component (Operation.history files component (.call name arguments)) other := by
  have asked := records_onLive files (fun inst => .asked inst name arguments) tidy
    (Instance.calls_call name arguments)
  refine yields_bind (asked.mono fun result other records => ?_)
  cases result with
  | none => exact yields_bind (yields_get (yields_pure records))
  | some result => exact yields_pure records

/-! ## Building -/

/-- Looking up declarations calls nothing. -/
theorem calls_registryBuild (script : Script.Interpreter) (registry : Registry)
    (journal : List Event) (declarations : List FunctionDecl) :
    Event.calls (Registry.build script registry journal declarations).2.2
      = Event.calls journal := by
  induction declarations generalizing script registry journal with
  | nil => rfl
  | cons declaration rest ih =>
    have effects : Event.calls (((script.function? declaration.name).2.2.map Event.effect).reverse
        ++ journal) = Event.calls journal := by
      refine (Event.calls_append _ journal).trans ?_
      rw [← Instance.effectEvents, Event.calls_effectEvents, List.append_nil]
    rw [Registry.build]
    dsimp only
    split
    · exact (ih _ _ _).trans effects
    · exact (ih _ _ _).trans ((Event.calls_cons_of_not_isCall rfl _).trans effects)

/-- A build calls no function of the script. -/
theorem calls_build (host : HostFunctions) (name source : String) :
    Event.calls (Instance.build host name source).2 = [] := by
  unfold Instance.build
  dsimp only
  split
  · exact Event.calls_effectEvents _
  · refine (Event.calls_cons_of_not_isCall rfl _).trans ?_
    exact (calls_registryBuild _ _ _ _).trans (Event.calls_effectEvents _)

/-- The journal of an instance that was built was taken. -/
theorem journal_build {host : HostFunctions} {name source : String} {inst : Instance}
    (h : (Instance.build host name source).1 = .ok inst) : inst.journal = [] := by
  unfold Instance.build at h
  dsimp only at h
  split at h
  · cases h
  · cases h
    rfl

/-- A build is nothing that happens to an instance, and the journal of what it gives was taken. -/
theorem records_build (tidy : component.Tidy) :
    build.Yields files component fun result other =>
      Records component [] other ∧ ∀ inst, result = .ok inst → inst.journal = [] := by
  refine yields_bind (yields_get (yields_bind (yields_read ?_)))
  split
  · refine yields_pure ⟨.refl tidy, ?_⟩
    rintro inst ⟨⟩
  · next source loaded =>
    have quiet := calls_build component.host component.config.name source
    split
    next result journal built =>
    rw [built] at quiet
    have first : Records component [] { component with journal := journal ++ component.journal } := by
      refine ⟨rfl, tidy, ?_⟩
      rw [Event.calls_append, quiet]
      rfl
    refine yields_bind (yields_modify ?_)
    cases result with
    | error error =>
      refine yields_pure ⟨first, ?_⟩
      rintro inst ⟨⟩
    | ok inst =>
      have taken : inst.journal = [] := journal_build (congrArg Prod.fst built)
      refine yields_bind ((records_onInstance_silent files first.tidy
        (Instance.silent_setBindings component.bindings) taken).mono ?_)
      rintro _ other ⟨second, rfl⟩
      cases ((setBindings component.bindings).run inst).1 with
      | error error =>
        refine yields_pure ⟨first.trans second, ?_⟩
        rintro inst ⟨⟩
      | ok _ =>
        refine yields_bind ((records_onInstance_silent files second.tidy
          (Instance.silent_initialiseExposed component.config.initialValues) rfl).mono ?_)
        rintro _ other ⟨third, rfl⟩
        refine yields_bind (yields_modify (yields_pure ⟨?_, ?_⟩))
        · have all := (first.trans second).trans third
          exact ⟨all.isEditor_eq, all.tidy, all.calls_eq⟩
        · rintro inst ⟨⟩
          rfl

/-- Making an instance live, unless there is one, is nothing that happens to an instance. -/
theorem records_ensureLive (tidy : component.Tidy) :
    ensureLive.Yields files component fun _ other => Records component [] other := by
  refine yields_bind (yields_get ?_)
  split
  · exact yields_pure (.refl tidy)
  · refine yields_bind ((records_build files tidy).mono ?_)
    rintro result other ⟨records, taken⟩
    cases result with
    | error error => exact yields_pure records
    | ok inst =>
      refine yields_bind (yields_modify (yields_pure ⟨records.isEditor_eq, ?_, records.calls_eq⟩))
      rintro fresh ⟨⟩
      exact taken inst rfl

/-! ## The stations of the life -/

theorem records_awake (tidy : component.Tidy) :
    awake.Yields files component fun _ other =>
      Records component (Operation.history files component .awake) other := by
  have built : Records component [] (ensureLive.after files component) := records_ensureLive files tidy
  refine yields_bind (yields_of_eq fun result other result_eq after_eq => ?_)
  rw [after_eq] at built
  rw [Operation.history, result_eq, after_eq]
  cases result with
  | error error => exact yields_pure built
  | ok _ =>
    refine yields_bind ((records_dispatch files awakeTag [] built.tidy).mono ?_)
    intro _ other told
    exact yields_pure (built.trans told)

theorem records_restore (tidy : component.Tidy) :
    restore.Yields files component fun _ other =>
      Records component (restorings component) other := by
  refine yields_bind (yields_get ?_)
  unfold restorings
  split
  · next idle =>
    rw [idle]
    exact yields_pure (.refl tidy)
  · next inst live =>
    have quiet := (Instance.silent_restoreVariables component.snapshot).calls_eq inst
    rw [live]
    refine yields_bind (yields_modify (yields_bind (yields_onInstance ?_)))
    refine yields_bind (yields_modify (yields_note ⟨rfl, ?_, ?_⟩))
    · rintro inst ⟨⟩
      rfl
    · refine (Event.calls_cons_of_not_isCall rfl _).trans ?_
      rw [Event.calls_append, quiet, tidy inst live]
      rfl

theorem records_enable (tidy : component.Tidy) :
    enable.Yields files component fun _ other =>
      Records component (enablings files component) other := by
  have built : Records component [] (ensureLive.after files component) := records_ensureLive files tidy
  refine yields_bind (yields_of_eq fun result other result_eq after_eq => ?_)
  rw [after_eq] at built
  rw [enablings, result_eq, after_eq]
  cases result with
  | error error => exact yields_pure built
  | ok _ =>
    have given : Records other (restorings other) (restore.after files other) :=
      records_restore files built.tidy
    refine yields_bind (yields_of_eq fun _ middle _ after_eq => ?_)
    rw [after_eq] at given
    dsimp only
    rw [after_eq]
    refine yields_bind ((records_dispatch files enableTag [] given.tidy).mono ?_)
    intro _ last told
    exact yields_pure (built.trans (given.trans told))

theorem records_disable (tidy : component.Tidy) :
    disable.Yields files component fun _ other => Records component (tearings component) other := by
  refine yields_bind (yields_get ?_)
  unfold tearings
  split
  · next idle =>
    rw [idle]
    exact yields_pure (.refl tidy)
  · next inst live =>
    rw [live]
    have idle : Records component [] { component with live? := none } := by
      refine ⟨rfl, ?_, (List.append_nil _).symm⟩
      rintro inst ⟨⟩
    have calls : Event.calls ((broadcast component.config.isEditor disableTag []).run inst).2.journal
        = [Happening.told inst disableTag []].flatMap
            (Happening.calls component.config.isEditor) := by
      rw [Instance.calls_broadcast, tidy inst live, List.flatMap_singleton]
      rfl
    refine yields_bind (yields_modify ?_)
    refine yields_bind ((records_onInstance files idle.tidy calls).mono ?_)
    rintro _ other ⟨told, rfl⟩
    refine yields_bind ((records_onInstance_silent files told.tidy Instance.silent_capture rfl).mono ?_)
    rintro _ other ⟨captured, rfl⟩
    obtain ⟨isEditor_eq, tidy, calls_eq⟩ := (idle.trans told).trans captured
    refine yields_bind (yields_modify (yields_note ⟨isEditor_eq, tidy, ?_⟩))
    exact (Event.calls_cons_of_not_isCall rfl _).trans calls_eq

theorem records_reload (tidy : component.Tidy) :
    reload.Yields files component fun _ other =>
      Records component (reloadings files component) other := by
  have noted : Records component []
      ((note (.reloading component.config.name)).after files component) :=
    records_note files tidy rfl
  have torn := records_disable files noted.tidy
  have enabled := records_enable files torn.tidy
  refine yields_bind (yields_get (yields_bind ?_))
  exact noted.trans (torn.trans enabled)

theorem records_advancePending (delta : Nat) (tidy : component.Tidy) :
    (advancePending delta).Yields files component fun _ other =>
      Records component (advancings files component) other := by
  refine yields_bind (yields_get ?_)
  unfold advancings
  cases component.pendingReload? with
  | none => exact yields_pure (.refl tidy)
  | some remaining =>
    cases remaining with
    | zero =>
      have settled : Records component [] { component with pendingReload? := none } :=
        ⟨rfl, tidy, (List.append_nil _).symm⟩
      refine yields_bind (yields_modify ?_)
      split
      · exact settled.trans (records_reload files settled.tidy)
      · exact yields_pure settled
    | succ remaining =>
      exact yields_bind (yields_modify (yields_pure ⟨rfl, tidy, (List.append_nil _).symm⟩))

theorem records_update (delta : Nat) (tidy : component.Tidy) :
    (update delta).Yields files component fun _ other =>
      Records component (Operation.history files component (.update delta)) other := by
  have advanced : Records component (advancings files component)
      ((advancePending delta).after files component) := records_advancePending files delta tidy
  refine yields_bind (yields_of_eq fun result other result_eq after_eq => ?_)
  rw [after_eq] at advanced
  rw [Operation.history, result_eq, after_eq]
  cases result with
  | error error =>
    rw [List.append_nil]
    exact yields_pure advanced
  | ok _ =>
    refine yields_bind ((records_dispatch files updateTag [] advanced.tidy).mono ?_)
    intro _ last told
    exact yields_pure (advanced.trans told)

theorem records_notifySourceModified (tidy : component.Tidy) :
    notifySourceModified.Yields files component fun _ other =>
      Records component (Operation.history files component .notifySourceModified) other := by
  refine yields_bind (yields_get ?_)
  unfold Operation.history
  dsimp only
  split
  · exact records_reload files tidy
  · exact yields_pure (.refl tidy)

theorem records_setSourceText (text : String) (tidy : component.Tidy) :
    (setSourceText text).Yields files component fun _ other => Records component [] other := by
  refine yields_bind (yields_get ?_)
  split
  · exact yields_bind ((records_note files tidy rfl).mono fun _ _ noted => yields_pure noted)
  · split
    · exact yields_pure (.refl tidy)
    · exact yields_bind (yields_modify (yields_pure ⟨rfl, tidy, (List.append_nil _).symm⟩))

/-! ## Runs -/

/-- The calls in the journal of an operation are those of its history. -/
theorem records_after (tidy : component.Tidy) (operation : Operation) :
    Records component (operation.history files component) (operation.after files component) := by
  have same : Records component [] component := .refl tidy
  cases operation with
  | awake => exact records_awake files tidy
  | enable => exact records_enable files tidy
  | start => exact yields_bind ((records_dispatch files startTag [] tidy).mono fun _ _ told => yields_pure told)
  | update delta => exact records_update files delta tidy
  | fixedUpdate =>
    exact yields_bind ((records_dispatch files fixedUpdateTag [] tidy).mono fun _ _ told =>
      yields_pure told)
  | disable => exact records_disable files tidy
  | reload => exact records_reload files tidy
  | setSourceText text => exact records_setSourceText files text tidy
  | notifySourceModified => exact records_notifySourceModified files tidy
  | loadSnapshot entries => exact ⟨rfl, tidy, same.calls_eq⟩
  | bind name value => exact ⟨rfl, tidy, same.calls_eq⟩
  | dispatch tag arguments => exact records_dispatch files tag arguments tidy
  | call name arguments => exact records_call files name arguments tidy

/-- The calls in the journal of a run are those of its history. -/
theorem records_run (tidy : component.Tidy) (steps : List (FileTree × Operation)) :
    Records component (history component steps) (run component steps) := by
  induction steps generalizing component with
  | nil => exact .refl tidy
  | cons step steps ih =>
    have first := records_after step.1 tidy step.2
    exact first.trans (ih first.tidy)

end Component

end ScriptHost
