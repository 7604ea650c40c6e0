import Mathlib.Data.List.Infix
import ScriptHost.Proofs.Component.Activation
import ScriptHost.Proofs.Component.Waiting

/-!
# Reloads that fail

When a live script is torn down and the next one cannot be built, the component holds the variables
that the old script had after it was told that it is off. There they wait, as long as no script is
live, and the first one that is enabled is given them before it is told so.

* `Component.Rebuild` : the operations that make a live script reload.
* `Component.yields_rebuild_failing`, `Component.history_rebuild_failing` : a reload that fails.
* `Component.snapshot_run_of_idle` : what happens while nothing is live leaves the variables alone.
* `Component.rebuild_recovers` : after a reload that fails, no variable is lost.
-/

namespace ScriptHost.Component

variable {files : FileTree} {component : Component} {old : Instance} {error : Error}

/-! ## Tearing down and not building anew -/

/-- The variables of a live instance after it was told that it is off. -/
def lastVariables (component : Component) (old : Instance) : Snapshot :=
  (Instance.capture.run (component.toldOff old)).1

/-- Tearing down a live instance captures its last variables. -/
theorem yields_disable_live (files : FileTree) (live : component.live? = some old) :
    disable.Yields files component fun _ other => ∃ journal, other
      = { component with live? := none, snapshot := component.lastVariables old, journal } := by
  refine yields_bind (yields_get ?_)
  rw [live]
  refine yields_bind (yields_modify (yields_bind (yields_onInstance ?_)))
  exact yields_bind (yields_onInstance (yields_bind (yields_modify (yields_note ⟨_, rfl⟩))))

theorem tearings_live (live : component.live? = some old) :
    tearings component
      = [.told old disableTag [],
          .captured (component.toldOff old) (component.lastVariables old)] := by
  unfold tearings
  rw [live]
  rfl

/-- When nothing is live, enabling a component that cannot be built gives the error and leaves it. -/
theorem yields_enable_failing (idle : component.live? = none)
    (failing : rebuilt files component.config component.bindings component.host = .error error) :
    enable.Yields files component fun result other =>
      result = .error error ∧ ∃ journal, other = { component with journal } := by
  have made := yields_ensureLive_idle files idle
  rw [failing] at made
  refine yields_bind (made.mono ?_)
  rintro _ other ⟨rfl, journal, rfl⟩
  exact yields_pure ⟨rfl, journal, rfl⟩

theorem enablings_failing (idle : component.live? = none)
    (failing : rebuilt files component.config component.bindings component.host = .error error) :
    enablings files component = [] := by
  have made := yields_ensureLive_idle files idle
  unfold Action.Yields at made
  rw [failing] at made
  unfold enablings
  rw [made.1]

theorem yields_reload_failing (live : component.live? = some old)
    (failing : rebuilt files component.config component.bindings component.host = .error error) :
    reload.Yields files component fun result other =>
      result = .error error ∧ ∃ journal, other
        = { component with
            live? := none, snapshot := component.lastVariables old, journal } := by
  let noted := { component with journal := .reloading component.config.name :: component.journal }
  have live_noted : noted.live? = some old := live
  refine yields_bind (yields_get (yields_bind (yields_note (yields_bind ?_))))
  refine (yields_disable_live files live_noted).mono ?_
  rintro _ other ⟨journal, rfl⟩
  let torn : Component :=
    { component with live? := none, snapshot := component.lastVariables old, journal }
  have idle : torn.live? = none := rfl
  refine (yields_enable_failing idle failing).mono ?_
  rintro result other ⟨rfl, journal, rfl⟩
  exact ⟨rfl, journal, rfl⟩

theorem reloadings_failing (live : component.live? = some old)
    (failing : rebuilt files component.config component.bindings component.host = .error error) :
    reloadings files component
      = [.told old disableTag [],
          .captured (component.toldOff old) (component.lastVariables old)] := by
  let noted := { component with journal := .reloading component.config.name :: component.journal }
  have live_noted : noted.live? = some old := live
  have none_enabled : enablings files (disable.after files noted) = [] := by
    obtain ⟨journal, torn⟩ := yields_disable_live files live_noted
    rw [torn]
    exact enablings_failing rfl failing
  show tearings noted ++ enablings files (disable.after files noted) = _
  rw [none_enabled, List.append_nil, tearings_live live_noted]
  rfl

/-! ## The ways to a reload -/

/-- The operations that make a live script reload. -/
inductive Rebuild where
  | reload
  | notifySourceModified
  /-- Time passes, and an edit has waited long enough. -/
  | update (delta : Nat)

namespace Rebuild

/-- What the operation does. -/
def action : Rebuild → Action (Except Error Unit)
  | reload => Component.reload
  | notifySourceModified => Component.notifySourceModified
  | update delta => Component.update delta

/-- The same as one of all operations. -/
def operation : Rebuild → Operation
  | reload => .reload
  | notifySourceModified => .notifySourceModified
  | update delta => .update delta

theorem after_operation (rebuild : Rebuild) (files : FileTree) (component : Component) :
    rebuild.operation.after files component = rebuild.action.after files component := by
  cases rebuild <;> rfl

/-- Whether the operation makes a live script reload. -/
def IsDue (component : Component) : Rebuild → Prop
  | reload | notifySourceModified => True
  | update _ => component.pendingReload? = some 0

/-- The edit that waits afterwards; one that was due waits no longer. -/
def pendingAfter (component : Component) : Rebuild → Option Nat
  | reload | notifySourceModified => component.pendingReload?
  | update _ => none

end Rebuild

/-- A component whose live script was torn down, and none built in its place. -/
def torn (component : Component) (rebuild : Rebuild) (old : Instance) (journal : List Event) :
    Component :=
  { component with
    live? := none
    snapshot := component.lastVariables old
    pendingReload? := rebuild.pendingAfter component
    journal }

theorem isActive_of_live (live : component.live? = some old) : component.isActive = true := by
  rw [isActive, live]
  rfl

/-- An edit that has waited long enough makes the script reload. -/
theorem advancePending_due (live : component.live? = some old)
    (due : component.pendingReload? = some 0) (delta : Nat) :
    (advancePending delta).result files component
        = reload.result files { component with pendingReload? := none }
      ∧ (advancePending delta).after files component
        = reload.after files { component with pendingReload? := none }
      ∧ advancings files component
        = reloadings files { component with pendingReload? := none } := by
  have active := isActive_of_live live
  have stepped : (advancePending delta).Yields files component fun result other =>
      result = reload.result files { component with pendingReload? := none }
        ∧ other = reload.after files { component with pendingReload? := none } := by
    refine yields_bind (yields_get ?_)
    rw [due]
    refine yields_bind (yields_modify ?_)
    rw [active]
    exact ⟨rfl, rfl⟩
  refine ⟨stepped.1, stepped.2, ?_⟩
  unfold advancings
  rw [due, active]
  rfl

/-- A reload that fails gives its error and leaves the component without a script, with the last
variables of the old one. All that happens to instances is that the old one is torn down. -/
theorem yields_rebuild_failing (rebuild : Rebuild) (live : component.live? = some old)
    (due : rebuild.IsDue component)
    (failing : rebuilt files component.config component.bindings component.host = .error error) :
    rebuild.operation.history files component
        = [.told old disableTag [],
          .captured (component.toldOff old) (component.lastVariables old)]
      ∧ rebuild.action.Yields files component fun result other =>
        result = .error error ∧ ∃ journal, other = component.torn rebuild old journal := by
  have active := isActive_of_live live
  cases rebuild with
  | reload => exact ⟨reloadings_failing live failing, yields_reload_failing live failing⟩
  | notifySourceModified =>
    constructor
    · show (if component.isActive then reloadings files component else []) = _
      rw [active]
      exact reloadings_failing live failing
    · refine yields_bind (yields_get ?_)
      rw [active]
      exact yields_reload_failing live failing
  | update delta =>
    let settled : Component := { component with pendingReload? := none }
    have live_settled : settled.live? = some old := live
    obtain ⟨result_eq, journal, after_eq⟩ := yields_reload_failing live_settled failing
    obtain ⟨result, after, happened⟩ := advancePending_due live due delta
    rw [result_eq] at result
    constructor
    · show advancings files component ++ _ = _
      rw [result, List.append_nil, happened]
      exact reloadings_failing live_settled failing
    · refine yields_bind (yields_of_eq fun given other given_eq other_eq => ?_)
      rw [← given_eq, ← other_eq, result, after, after_eq]
      exact yields_pure ⟨rfl, journal, rfl⟩

/-! ## While nothing is live -/

/-- An enabling after which nothing is live has failed, and left the variables alone. -/
theorem snapshot_enable_of_idle (idle : component.live? = none)
    (idle_after : (enable.after files component).live? = none) :
    (enable.after files component).snapshot = component.snapshot := by
  cases built : rebuilt files component.config component.bindings component.host with
  | error error =>
    obtain ⟨_, journal, after⟩ := yields_enable_failing idle built
    rw [after]
  | ok fresh =>
    obtain ⟨_, journal, after⟩ := yields_enable_idle idle built
    obtain ⟨live?, _, same, rel⟩ : SameLife (component.opened fresh journal)
        ((dispatchEvent enableTag).after files (component.opened fresh journal)) :=
      sameLife_opened fresh journal files
    rw [after, same] at idle_after
    change live? = none at idle_after
    rw [idle_after] at rel
    cases rel

/-- Tearing down does nothing when nothing is live. -/
theorem disable_of_idle (files : FileTree) (idle : component.live? = none) :
    disable.after files component = component := by
  show disable.Yields files component fun _ other => other = component
  refine yields_bind (yields_get ?_)
  rw [idle]
  exact yields_pure rfl

theorem snapshot_update_of_idle (files : FileTree) (idle : component.live? = none) (delta : Nat) :
    (update delta).Yields files component fun _ other =>
      other.snapshot = component.snapshot := by
  have advanced : (advancePending delta).Yields files component fun result other =>
      result = .ok () ∧ other.snapshot = component.snapshot := by
    refine yields_bind (yields_get ?_)
    split
    · exact yields_pure ⟨rfl, rfl⟩
    · refine yields_bind (yields_modify ?_)
      rw [isActive_of_idle idle]
      exact yields_pure ⟨rfl, rfl⟩
    · exact yields_bind (yields_modify (yields_pure ⟨rfl, rfl⟩))
  refine yields_bind (advanced.mono ?_)
  rintro _ other ⟨rfl, same⟩
  rw [← same]
  exact yields_bind (snapshot_of_blind (blind_dispatch updateTag [] files other))

/-- An operation that finds nothing live and leaves nothing live leaves the variables alone, unless
it brings others. -/
theorem snapshot_after_of_idle {operation : Operation}
    (quiet : ∀ entries, operation ≠ .loadSnapshot entries) (idle : component.live? = none)
    (idle_after : (operation.after files component).live? = none) :
    (operation.after files component).snapshot = component.snapshot := by
  have told (tag : String) (arguments : List Value) :
      ((dispatch tag arguments).after files component).snapshot = component.snapshot :=
    snapshot_of_blind (blind_dispatch tag arguments files component)
  cases operation with
  | awake => exact snapshot_of_blind (blind_awake files component)
  | enable => exact snapshot_enable_of_idle idle idle_after
  | start => exact told startTag []
  | update delta => exact snapshot_update_of_idle files idle delta
  | fixedUpdate => exact told fixedUpdateTag []
  | disable => exact congrArg Component.snapshot (disable_of_idle files idle)
  | reload =>
    let noted := { component with journal := .reloading component.config.name :: component.journal }
    have idle_noted : noted.live? = none := idle
    have enabled : Operation.reload.after files component = enable.after files noted := by
      show enable.after files (disable.after files noted) = _
      rw [disable_of_idle files idle_noted]
    rw [enabled] at idle_after ⊢
    exact snapshot_enable_of_idle idle_noted idle_after
  | setSourceText text => exact snapshot_of_blind (blind_setSourceText text files component)
  | notifySourceModified =>
    show notifySourceModified.Yields files component fun _ other =>
      other.snapshot = component.snapshot
    refine yields_bind (yields_get ?_)
    rw [isActive_of_idle idle]
    exact yields_pure rfl
  | loadSnapshot entries => exact absurd rfl (quiet entries)
  | bind name value => rfl
  | dispatch tag arguments => exact told tag arguments
  | call name arguments => exact snapshot_of_blind (blind_call name arguments files component)

/-- Operations during which nothing is live leave the variables alone, unless they bring others. -/
theorem snapshot_run_of_idle {steps : List (FileTree × Operation)}
    (quiet : ∀ step ∈ steps, ∀ entries, step.2 ≠ .loadSnapshot entries)
    (idle : ∀ front, front <+: steps → (run component front).live? = none) :
    (run component steps).snapshot = component.snapshot := by
  induction steps generalizing component with
  | nil => rfl
  | cons step steps ih =>
    have idle_first : component.live? = none := idle [] List.nil_prefix
    have idle_next : (step.2.after step.1 component).live? = none :=
      idle [step] (List.prefix_append [step] steps)
    have first := snapshot_after_of_idle (quiet step List.mem_cons_self) idle_first idle_next
    have rest : (run (step.2.after step.1 component) steps).snapshot
        = (step.2.after step.1 component).snapshot := by
      refine ih (fun other m => quiet other (List.mem_cons_of_mem step m)) ?_
      intro front within
      exact idle (step :: front) (List.cons_prefix_cons.2 ⟨rfl, within⟩)
    exact rest.trans first

/-! ## Recovery -/

/-- When a live script is to reload and the build fails, the error is given, and the component keeps
all but its script. The old instance is told that it is off and captured; nothing else is told, so
that an update that fails does not reach a script. Until a script is live again, no operation but
one that brings other variables changes what was captured, and the next script that is enabled is
given just that before it is told that it is on. -/
theorem rebuild_recovers (rebuild : Rebuild) (live : component.live? = some old)
    (due : rebuild.IsDue component) (failing : build.result files component = .error error) :
    rebuild.action.Yields files component fun result other =>
      result = .error error ∧ (∃ journal, other = component.torn rebuild old journal)
        ∧ rebuild.operation.history files component
          = [.told old disableTag [],
            .captured (component.toldOff old) (component.lastVariables old)]
        ∧ (component.Tidy → Event.calls other.journal = Event.calls component.journal
          ++ (Happening.told old disableTag []).calls component.config.isEditor)
        ∧ ∀ steps, (∀ step ∈ steps, ∀ entries, step.2 ≠ .loadSnapshot entries) →
          (∀ front, front <+: steps → (run other front).live? = none) →
            (run other steps).snapshot = component.lastVariables old
              ∧ ∀ later fresh, build.result later (run other steps) = .ok fresh →
                enable.result later (run other steps) = .ok ()
                  ∧ enablings later (run other steps)
                    = [.restored fresh (component.lastVariables old),
                      .told (fresh.given (component.lastVariables old)) enableTag []]
                  ∧ ∃ journal, enable.after later (run other steps)
                    = (dispatchEvent enableTag).after later
                      ((run other steps).opened fresh journal) := by
  have failing_build := (yields_build files component).1.symm.trans failing
  obtain ⟨happened, gave⟩ := yields_rebuild_failing rebuild live due failing_build
  refine yields_of_eq fun result other result_eq after_eq => ?_
  obtain ⟨error_given, journal, after⟩ := gave
  rw [result_eq] at error_given
  rw [after_eq] at after
  have calls : component.Tidy → Event.calls other.journal = Event.calls component.journal
      ++ (Happening.told old disableTag []).calls component.config.isEditor := by
    intro tidy
    have recorded := (records_after files tidy rebuild.operation).calls_eq
    rw [happened, rebuild.after_operation, after_eq] at recorded
    rw [recorded]
    congr 1
    exact List.append_nil _
  refine ⟨error_given, ⟨journal, after⟩, happened, calls, ?_⟩
  intro steps quiet idle
  have waiting : (run other steps).snapshot = component.lastVariables old := by
    rw [snapshot_run_of_idle quiet idle, after]
    rfl
  refine ⟨waiting, ?_⟩
  intro later fresh built
  have idle_last : (run other steps).live? = none := idle steps (List.prefix_refl steps)
  have rebuilt_later := (yields_build later (run other steps)).1.symm.trans built
  obtain ⟨ok, journal, enabled⟩ := yields_enable_idle idle_last rebuilt_later
  have given := enablings_idle idle_last rebuilt_later
  rw [waiting] at given
  exact ⟨ok, given, journal, enabled⟩

/-- A door that is broken by an edit has the hit points that it had when it was told that it is off,
until an edit that can be built gives them back. -/
theorem rebuild_recovers_of_door :
    let door := run
      (idle
        { name := "door"
          source := .literal "#Serialize hp\nhp = 7\n#OnDisable\nfunction off() hp = 8 end"
          context := .editor } .empty)
      [(.empty [], .enable), (.empty [], .setSourceText "hp = = 1")]
    let broken := (update 16).after (.empty []) door
    let steps := [(FileTree.empty [], Operation.update 16), (.empty [], .enable),
      (.empty [], .disable), (.empty [], .setSourceText "#Serialize hp\nhp = 1")]
    let mended := run broken steps
    broken.live? = none ∧ mended.snapshot = [.encoded ⟨"hp", "lua.integer", "8"⟩]
      ∧ ∃ fresh, enablings (.empty []) mended = [.restored fresh mended.snapshot,
          .told (fresh.given mended.snapshot) enableTag []] := by
  intro door broken steps mended
  have before : (∃ old, old ∈ door.live?
        ∧ door.lastVariables old = [.encoded ⟨"hp", "lua.integer", "8"⟩])
      ∧ door.pendingReload? = some 0 ∧ (build.result (.empty []) door).toOption.isNone := by
    decide +kernel
  obtain ⟨⟨old, live, last⟩, due, unbuildable⟩ := before
  obtain ⟨error, failing⟩ : ∃ error, build.result (.empty []) door = .error error := by
    cases result : build.result (.empty []) door with
    | error error => exact ⟨error, rfl⟩
    | ok fresh =>
      rw [result] at unbuildable
      cases unbuildable
  have after : (∀ front ∈ steps.inits, (run broken front).live?.isNone)
      ∧ ∃ fresh, fresh ∈ (build.result (.empty []) mended).toOption ∧ fresh.name = "door" := by
    decide +kernel
  obtain ⟨asleep, fresh, built, _⟩ := after
  have quiet : ∀ step ∈ steps, ∀ entries, step.2 ≠ .loadSnapshot entries := by simp [steps]
  obtain ⟨_, ⟨_, torn⟩, _, _, later⟩ := rebuild_recovers (.update 16) live due failing
  obtain ⟨waiting, enabled⟩ := later steps quiet fun front within =>
    Option.isNone_iff_eq_none.1 (asleep front ((List.mem_inits ..).2 within))
  have given := (enabled (.empty []) fresh (eq_ok_of_mem_toOption built)).2.1
  rw [← waiting] at given
  exact ⟨congrArg Component.live? torn, waiting.trans last, fresh, given⟩

end ScriptHost.Component
