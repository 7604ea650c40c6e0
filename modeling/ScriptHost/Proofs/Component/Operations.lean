import ScriptHost.Proofs.Instance.Steady

/-!
# Operations on a component

What a host can do with a component, and what the parts of an operation lead to.

* `Component.Action.Yields` : what holds of the result of an action and of the state that it leads
  to, with one rule for each way to build an action.
* `Component.Operation`, `Component.run` : the operations, and some of them one after the other.
* `Component.SameLife` : between two states the live script was called, and nothing else happened.
* `Component.rebuilt`, `Component.yields_build` : what a build gives.
-/

namespace ScriptHost.Component

variable {α β : Type}

/-! ## Results and states -/

/-- The state that an action leads to. -/
def Action.after (action : Action α) (files : FileTree) (component : Component) : Component :=
  ((action.run files).run component).2

/-- The result of an action. -/
def Action.result (action : Action α) (files : FileTree) (component : Component) : α :=
  ((action.run files).run component).1

/-- From a component, an action gives a result and leads to a state with the property. -/
def Action.Yields (action : Action α) (files : FileTree) (component : Component)
    (property : α → Component → Prop) : Prop :=
  property (action.result files component) (action.after files component)

section

variable {files : FileTree} {component : Component}

theorem Action.Yields.mono {action : Action α} {property other : α → Component → Prop}
    (h : action.Yields files component property) (k : ∀ a c, property a c → other a c) :
    action.Yields files component other := k _ _ h

/-- What an action gives is its result, and where it leads to is the state after it. -/
theorem yields_of_eq {action : Action α} {property : α → Component → Prop}
    (h : ∀ a c, action.result files component = a → action.after files component = c →
      property a c) : action.Yields files component property := h _ _ rfl rfl

theorem yields_pure {a : α} {property : α → Component → Prop} (h : property a component) :
    (pure a : Action α).Yields files component property := h

theorem yields_get {property : Component → Component → Prop} (h : property component component) :
    (get : Action Component).Yields files component property := h

theorem yields_read {property : FileTree → Component → Prop} (h : property files component) :
    (read : Action FileTree).Yields files component property := h

theorem yields_modify {change : Component → Component} {property : Unit → Component → Prop}
    (h : property () (change component)) :
    (modify change : Action Unit).Yields files component property := h

/-- Of two actions in a row, the second starts where the first ends. -/
theorem yields_bind {action : Action α} {next : α → Action β} {property : β → Component → Prop}
    (h : action.Yields files component fun a c => (next a).Yields files c property) :
    (action >>= next).Yields files component property := h

theorem yields_note {event : Event} {property : Unit → Component → Prop}
    (h : property () { component with journal := event :: component.journal }) :
    (note event).Yields files component property := h

theorem yields_onInstance {inst : Instance} {action : Instance.Action α}
    {property : α × Instance → Component → Prop}
    (h : property ((action.run inst).1, { (action.run inst).2 with journal := [] })
      { component with journal := (action.run inst).2.journal ++ component.journal }) :
    (onInstance inst action).Yields files component property := h

end

/-! ## Operations -/

/-- What a host can do with a component. -/
inductive Operation where
  | awake
  | enable
  | start
  | update (delta : Nat)
  | fixedUpdate
  | disable
  | reload
  | setSourceText (text : String)
  | notifySourceModified
  | loadSnapshot (entries : List EncodedVariable)
  | bind (name : String) (value : Value)
  | dispatch (tag : String) (arguments : List Value)
  | call (name : String) (arguments : List Value)

/-- The state that an operation leads to; `files` are the files at that time. -/
def Operation.after (files : FileTree) (component : Component) : Operation → Component
  | awake => Component.awake.after files component
  | enable => Component.enable.after files component
  | start => Component.start.after files component
  | update delta => (Component.update delta).after files component
  | fixedUpdate => Component.fixedUpdate.after files component
  | disable => Component.disable.after files component
  | reload => Component.reload.after files component
  | setSourceText text => (Component.setSourceText text).after files component
  | notifySourceModified => Component.notifySourceModified.after files component
  | loadSnapshot entries => (Component.loadSnapshot entries).after files component
  | bind name value => (Component.bind name value).after files component
  | dispatch tag arguments => (Component.dispatch tag arguments).after files component
  | call name arguments => (Component.call name arguments).after files component

/-- The state after some operations, each with the files at its time. -/
def run (component : Component) (steps : List (FileTree × Operation)) : Component :=
  steps.foldl (fun component step => step.2.after step.1 component) component

/-- A component before anything happened to it. -/
def idle (config : Config) (host : HostFunctions) : Component := { config, host }

/-! ## Calls of the live script -/

/-- Between the two states the live script was called, and nothing else happened: no script was
built or torn down, and nothing was edited or captured. -/
def SameLife (component other : Component) : Prop :=
  ∃ live? journal, other = { component with live?, journal }
    ∧ Option.Rel Instance.SameBuild component.live? live?

theorem SameLife.refl (component : Component) : SameLife component component := by
  refine ⟨component.live?, component.journal, rfl, ?_⟩
  cases component.live? with
  | none => exact .none
  | some inst => exact .some (.refl inst)

theorem yields_onLive {action : Instance.Action α} (steady : Instance.Steady action)
    (files : FileTree) (component : Component) :
    (onLive action).Yields files component fun _ other => SameLife component other := by
  refine yields_bind (yields_get ?_)
  split
  · exact yields_pure (.refl component)
  · next inst live =>
    refine yields_bind (yields_onInstance ?_)
    refine yields_bind (yields_modify (yields_pure ?_))
    obtain ⟨script, journal, same⟩ := steady inst
    refine ⟨_, _, rfl, ?_⟩
    rw [live, same]
    exact .some ⟨script, [], rfl⟩

theorem yields_dispatch (tag : String) (arguments : List Value) (files : FileTree)
    (component : Component) :
    (dispatch tag arguments).Yields files component fun _ other => SameLife component other := by
  refine yields_bind (yields_get (yields_bind ?_))
  have broadcast := yields_onLive
    (Instance.noting_broadcast component.config.isEditor tag arguments).steady files component
  exact broadcast.mono fun _ _ same => yields_pure same

theorem yields_call (name : String) (arguments : List Value) (files : FileTree)
    (component : Component) :
    (call name arguments).Yields files component fun _ other => SameLife component other := by
  refine yields_bind ?_
  have called := yields_onLive (Instance.noting_call name arguments).steady files component
  refine called.mono fun result other same => ?_
  cases result with
  | none => exact yields_bind (yields_get (yields_pure same))
  | some result => exact yields_pure same

/-! ## Building -/

/-- The instance that a build gives: the text is loaded, then the bindings are set, and then the
exposed variables. -/
def rebuilt (files : FileTree) (config : Config) (bindings : Entries Value)
    (host : HostFunctions) : Except Error Instance := do
  let source ← config.source.load files
  let inst ← (Instance.build host config.name source).1
  let bound := (setBindings bindings).run inst
  let _ ← bound.1
  let exposed :=
    (Instance.initialiseExposed config.initialValues).run { bound.2 with journal := [] }
  return { exposed.2 with journal := [] }

/-- The exposed variables of a component after a build: those of the tags of what it gives, or those
of before when it fails. -/
def exposedAfter (component : Component) : Except Error Instance → List ExposedVariable
  | .ok inst => exposedVariables inst.tags.tags
  | .error _ => component.exposed

/-- A build leaves all of a component but the journal and the exposed variables. -/
theorem yields_build_exposed (files : FileTree) (component : Component) :
    build.Yields files component fun result other =>
      result = rebuilt files component.config component.bindings component.host
        ∧ ∃ journal, other
          = { component with journal, exposed := component.exposedAfter result } := by
  refine yields_bind (yields_get (yields_bind (yields_read ?_)))
  split
  · next error loaded =>
    refine yields_pure ⟨?_, component.journal, rfl⟩
    simp only [rebuilt, loaded, Bind.bind, Except.bind]
  · next source loaded =>
    split
    next result journal built =>
    refine yields_bind (yields_modify ?_)
    cases result with
    | error error =>
      refine yields_pure ⟨?_, _, rfl⟩
      simp only [rebuilt, loaded, built, Bind.bind, Except.bind]
    | ok inst =>
      refine yields_bind (yields_onInstance ?_)
      cases bound : ((setBindings component.bindings).run inst).1 with
      | error error =>
        refine yields_pure ⟨?_, _, rfl⟩
        simp only [rebuilt, loaded, built, bound, Bind.bind, Except.bind]
      | ok _ =>
        have silent := Instance.silent_initialiseExposed component.config.initialValues
        have tags :=
          (silent.steady { ((setBindings component.bindings).run inst).2 with journal := [] }).tags_eq
        refine yields_bind (yields_onInstance (yields_bind (yields_modify (yields_pure ⟨?_, ?_⟩))))
        · simp only [rebuilt, loaded, built, bound, Bind.bind, Except.bind, pure, Except.pure]
        · -- The exposed variables are read off the tags before they are set, and the tags stay.
          unfold exposedAfter
          dsimp only
          rw [tags]
          exact ⟨_, rfl⟩

theorem yields_build (files : FileTree) (component : Component) :
    build.Yields files component fun result other =>
      result = rebuilt files component.config component.bindings component.host
        ∧ ∃ journal exposed, other = { component with journal, exposed } := by
  refine (yields_build_exposed files component).mono ?_
  rintro result other ⟨built, journal, rfl⟩
  exact ⟨built, journal, _, rfl⟩

theorem isActive_of_idle {component : Component} (idle : component.live? = none) :
    component.isActive = false := by
  rw [isActive, idle]
  rfl

/-- When nothing is live, an instance is made unless the build fails. -/
theorem yields_ensureLive_idle (files : FileTree) {component : Component}
    (idle : component.live? = none) :
    ensureLive.Yields files component fun result other =>
      match rebuilt files component.config component.bindings component.host with
      | .ok inst => result = .ok () ∧ ∃ journal, other
          = { component with live? := some inst, journal, exposed := exposedVariables inst.tags.tags }
      | .error error => result = .error error ∧ ∃ journal, other = { component with journal } := by
  refine yields_bind (yields_get ?_)
  rw [isActive_of_idle idle]
  refine yields_bind ((yields_build_exposed files component).mono ?_)
  rintro result other ⟨built, journal, rfl⟩
  rw [← built]
  cases result with
  | error error => exact yields_pure ⟨rfl, journal, rfl⟩
  | ok inst => exact yields_bind (yields_modify (yields_pure ⟨rfl, journal, rfl⟩))

/-- An instance is built from the text that the configuration has at that time. -/
theorem load_of_rebuilt {files : FileTree} {config : Config} {bindings : Entries Value}
    {host : HostFunctions} {inst : Instance} (h : rebuilt files config bindings host = .ok inst) :
    config.source.load files = .ok inst.source := by
  unfold rebuilt at h
  cases loaded : config.source.load files with
  | error error =>
    rw [loaded] at h
    cases h
  | ok source =>
    cases built : (Instance.build host config.name source).1 with
    | error error =>
      simp only [loaded, built, Bind.bind, Except.bind] at h
      cases h
    | ok first =>
      cases bound : ((setBindings bindings).run first).1 with
      | error error =>
        simp only [loaded, built, bound, Bind.bind, Except.bind] at h
        cases h
      | ok _ =>
        simp only [loaded, built, bound, Bind.bind, Except.bind, pure, Except.pure] at h
        -- What follows the loading sets globals only, which leaves the text alone.
        have same := (Instance.silent_setBindings bindings).steady first
        have exposed := (Instance.silent_initialiseExposed config.initialValues).steady
          { ((setBindings bindings).run first).2 with journal := [] }
        have text : inst.source = source := by
          rw [← Except.ok.inj h]
          exact exposed.source_eq.trans (same.source_eq.trans (Instance.source_build built))
        rw [text]

end ScriptHost.Component
