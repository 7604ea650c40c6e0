import ScriptHost.Proofs.Component.Operations

/-!
# Properties that outlast the script

A property of a component that does not hang on its live script, and that no capture breaks, is
kept by all that calls, builds and tears down scripts.

* `Component.Lasting` : such a property.
* `Component.Lasting.keeps_awake`, `Component.Lasting.keeps_update`, … : the actions that keep it.
* `Component.ascending_bindings_run` : the bindings of a component are always in order.
-/

namespace ScriptHost.Component

variable {α β : Type}

/-! ## Actions that keep a property -/

/-- When a component has the property before the action, then it has it afterwards. -/
def Action.Keeps (property : Component → Prop) (action : Action α) : Prop :=
  ∀ files component, property component →
    action.Yields files component fun _ other => property other

namespace Action.Keeps

variable {property : Component → Prop}

theorem pure (a : α) : Keeps property (Pure.pure a : Action α) := fun _ _ h => yields_pure h

theorem get : Keeps property (MonadState.get : Action Component) := fun _ _ h => yields_get h

theorem bind {action : Action α} {next : α → Action β} (h : Keeps property action)
    (k : ∀ a, Keeps property (next a)) : Keeps property (action >>= next) := by
  intro files component start
  refine yields_bind ((h files component start).mono ?_)
  intro a other middle
  exact k a files other middle

/-- An action that ends when its first part fails, with the same error. -/
theorem attempt {action : Action (Except Error α)} {next : Except Error α → Action (Except Error β)}
    (h : Keeps property action) (stops : ∀ error, next (.error error) = Pure.pure (.error error))
    (k : ∀ a, Keeps property (next (.ok a))) : Keeps property (action >>= next) := by
  refine .bind h fun result => ?_
  cases result with
  | error error =>
    rw [stops]
    exact .pure _
  | ok a => exact k a

theorem modify {change : Component → Component}
    (h : ∀ component, property component → property (change component)) :
    Keeps property (modify change : Action Unit) :=
  fun _ component start => yields_modify (h component start)

end Action.Keeps

/-! ## Lasting properties -/

/-- A property that neither the live script, nor what it is built or captured as, has a part in. -/
structure Lasting (property : Component → Prop) : Prop where
  of_live : ∀ component live?, property component → property { component with live? }
  of_journal : ∀ component journal, property component → property { component with journal }
  of_exposed : ∀ component exposed, property component → property { component with exposed }
  of_pendingReload : ∀ component pendingReload?, property component →
    property { component with pendingReload? }
  /-- The captured variables are given away. -/
  of_given : ∀ component, property component → property { component with snapshot := [] }
  /-- The variables of an instance are captured. -/
  of_captured : ∀ component inst, property component →
    property { component with snapshot := (Instance.capture.run inst).1 }

namespace Lasting

variable {property : Component → Prop}

section

variable (h : Lasting property)
include h

theorem keeps_note (event : Event) : (note event).Keeps property :=
  .modify fun component => h.of_journal component _

theorem keeps_onInstance (inst : Instance) (action : Instance.Action α) :
    (onInstance inst action).Keeps property :=
  .bind (.modify fun component => h.of_journal component _) fun _ => .pure _

theorem keeps_onLive (action : Instance.Action α) : (onLive action).Keeps property := by
  refine .bind .get fun component => ?_
  cases component.live? with
  | none => exact .pure none
  | some inst =>
    refine .bind (h.keeps_onInstance inst action) fun result => ?_
    exact .bind (.modify fun other => h.of_live other _) fun _ => .pure _

theorem keeps_dispatch (tag : String) (arguments : List Value) :
    (dispatch tag arguments).Keeps property :=
  .bind .get fun _ => .bind (h.keeps_onLive _) fun _ => .pure _

theorem keeps_call (name : String) (arguments : List Value) :
    (call name arguments).Keeps property := by
  refine .bind (h.keeps_onLive _) fun result => ?_
  cases result with
  | none => exact .bind .get fun _ => .pure _
  | some result => exact .pure _

theorem keeps_build : build.Keeps property := by
  intro files component start
  refine (yields_build files component).mono ?_
  rintro _ other ⟨_, journal, exposed, rfl⟩
  exact h.of_exposed _ exposed (h.of_journal component journal start)

theorem keeps_ensureLive : ensureLive.Keeps property := by
  refine .bind .get fun component => ?_
  split
  · exact .pure _
  · refine .attempt h.keeps_build (fun _ => rfl) fun inst => ?_
    exact .bind (.modify fun other => h.of_live other _) fun _ => .pure _

theorem keeps_awake : awake.Keeps property :=
  .attempt h.keeps_ensureLive (fun _ => rfl) fun _ =>
    .bind (h.keeps_dispatch awakeTag []) fun _ => .pure _

theorem keeps_restore : restore.Keeps property := by
  refine .bind .get fun component => ?_
  cases component.live? with
  | none => exact .pure _
  | some inst =>
    refine .bind (.modify fun other => h.of_given other) fun _ => ?_
    refine .bind (h.keeps_onInstance inst _) fun result => ?_
    exact .bind (.modify fun other => h.of_live other _) fun _ => h.keeps_note _

theorem keeps_enable : enable.Keeps property :=
  .attempt h.keeps_ensureLive (fun _ => rfl) fun _ =>
    .bind h.keeps_restore fun _ => .bind (h.keeps_dispatch enableTag []) fun _ => .pure _

/-- The captured variables are those of an instance, so the change has to be followed as a whole. -/
theorem keeps_disable : disable.Keeps property := by
  intro files component start
  refine yields_bind (yields_get ?_)
  split
  · exact yields_pure start
  · refine yields_bind (yields_modify (yields_bind (yields_onInstance ?_)))
    refine yields_bind (yields_onInstance (yields_bind (yields_modify (yields_note ?_))))
    have idle := h.of_live component none start
    exact h.of_journal _ _ (h.of_captured _ _ (h.of_journal _ _ (h.of_journal _ _ idle)))

theorem keeps_reload : reload.Keeps property :=
  .bind .get fun _ => .bind (h.keeps_note _) fun _ => .bind h.keeps_disable fun _ => h.keeps_enable

theorem keeps_advancePending (delta : Nat) : (advancePending delta).Keeps property := by
  refine .bind .get fun component => ?_
  split
  · exact .pure _
  · refine .bind (.modify fun other => h.of_pendingReload other _) fun _ => ?_
    split
    · exact h.keeps_reload
    · exact .pure _
  · exact .bind (.modify fun other => h.of_pendingReload other _) fun _ => .pure _

theorem keeps_update (delta : Nat) : (update delta).Keeps property :=
  .attempt (h.keeps_advancePending delta) (fun _ => rfl) fun _ =>
    .bind (h.keeps_dispatch updateTag []) fun _ => .pure _

theorem keeps_start : start.Keeps property :=
  .bind (h.keeps_dispatch startTag []) fun _ => .pure _

theorem keeps_fixedUpdate : fixedUpdate.Keeps property :=
  .bind (h.keeps_dispatch fixedUpdateTag []) fun _ => .pure _

theorem keeps_notifySourceModified : notifySourceModified.Keeps property := by
  refine .bind .get fun component => ?_
  split
  · exact h.keeps_reload
  · exact .pure _

end

end Lasting

/-! ## Bindings -/

theorem lasting_ascending_bindings :
    Lasting fun component => component.bindings.Ascending where
  of_live _ _ ordered := ordered
  of_journal _ _ ordered := ordered
  of_exposed _ _ ordered := ordered
  of_pendingReload _ _ ordered := ordered
  of_given _ ordered := ordered
  of_captured _ _ ordered := ordered

/-- The bindings stay in order, whatever is done with a component. -/
theorem ascending_bindings_after (files : FileTree) {component : Component}
    (ordered : component.bindings.Ascending) (operation : Operation) :
    (operation.after files component).bindings.Ascending := by
  have lasting := lasting_ascending_bindings
  cases operation with
  | awake => exact lasting.keeps_awake files component ordered
  | enable => exact lasting.keeps_enable files component ordered
  | start => exact lasting.keeps_start files component ordered
  | update delta => exact lasting.keeps_update delta files component ordered
  | fixedUpdate => exact lasting.keeps_fixedUpdate files component ordered
  | disable => exact lasting.keeps_disable files component ordered
  | reload => exact lasting.keeps_reload files component ordered
  | setSourceText text =>
    show (setSourceText text).Yields files component fun _ other => other.bindings.Ascending
    refine yields_bind (yields_get ?_)
    split
    · exact yields_bind (yields_note (yields_pure ordered))
    · split
      · exact yields_pure ordered
      · exact yields_bind (yields_modify (yields_pure ordered))
  | notifySourceModified => exact lasting.keeps_notifySourceModified files component ordered
  | loadSnapshot entries => exact ordered
  | bind name value => exact ordered.insert name value
  | dispatch tag arguments => exact lasting.keeps_dispatch tag arguments files component ordered
  | call name arguments => exact lasting.keeps_call name arguments files component ordered

/-- Whatever was done with a component since it was made, its bindings are in order. -/
theorem ascending_bindings_run (config : Config) (host : HostFunctions)
    (steps : List (FileTree × Operation)) :
    (run (idle config host) steps).bindings.Ascending := by
  have ordered : (idle config host).bindings.Ascending := Entries.ascending_nil
  generalize idle config host = component at ordered ⊢
  induction steps generalizing component with
  | nil => exact ordered
  | cons step steps ih => exact ih _ (ascending_bindings_after step.1 ordered step.2)

end ScriptHost.Component
