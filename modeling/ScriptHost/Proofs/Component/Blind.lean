import ScriptHost.Component

/-!
# Actions that have nothing to do with captured variables

The variables that a component holds for its next instance are looked at only when one is enabled
or torn down. The other actions do the same whatever these variables are, and leave them.

* `Component.holding` : the component with other variables that wait.
* `Component.Blind` : an action has nothing to do with the variables that wait.
* `Component.blind_awake`, `Component.blind_setSourceText` : most operations are such actions.
-/

namespace ScriptHost
namespace Component

variable {α β : Type}

/-- The component with other variables that wait. -/
def holding (component : Component) (snapshot : Snapshot) : Component :=
  { component with snapshot }

/-! ## Actions that have nothing to do with the variables -/

/-- Whatever variables wait, the action gives the same result and leaves the same component, in which
the same variables wait. -/
def Blind (action : Action α) : Prop :=
  ∀ files component snapshot, (action.run files).run (component.holding snapshot)
    = (((action.run files).run component).1,
        ((action.run files).run component).2.holding snapshot)

namespace Blind

theorem pure (a : α) : Blind (Pure.pure a : Action α) := fun _ _ _ => rfl

theorem read {next : FileTree → Action α} (k : ∀ files, Blind (next files)) :
    Blind (MonadReader.read >>= next) := fun files => k files files

theorem bind {action : Action α} {next : α → Action β} (h : Blind action)
    (k : ∀ a, Blind (next a)) : Blind (action >>= next) := by
  intro files component snapshot
  refine Eq.trans ?_ (k _ files _ snapshot)
  show ((next ((action.run files).run (component.holding snapshot)).1).run files).run
    ((action.run files).run (component.holding snapshot)).2 = _
  rw [h]
  rfl

/-- What is looked at is not the variables. -/
theorem get {next : Component → Action α} (k : ∀ component, Blind (next component))
    (same : ∀ component snapshot, next (component.holding snapshot) = next component) :
    Blind (MonadState.get >>= next) := by
  intro files component snapshot
  refine Eq.trans ?_ (k component files component snapshot)
  show ((next (component.holding snapshot)).run files).run (component.holding snapshot) = _
  rw [same]

theorem modified {change : Component → Component}
    (same : ∀ component snapshot,
      change (component.holding snapshot) = (change component).holding snapshot) :
    Blind (modify change : Action Unit) := by
  intro files component snapshot
  show ((), change (component.holding snapshot)) = _
  rw [same]
  rfl

theorem note (event : Event) : Blind (Component.note event) := fun _ _ _ => rfl

theorem onInstance (inst : Instance) (action : Instance.Action α) :
    Blind (Component.onInstance inst action) := fun _ _ _ => rfl

end Blind

theorem blind_onLive (action : Instance.Action α) : Blind (onLive action) := by
  refine .get (fun component => ?_) fun _ _ => rfl
  cases component.live? with
  | none => exact .pure none
  | some inst =>
    exact .bind (.onInstance inst action) fun result =>
      .bind (.modified fun _ _ => rfl) fun _ => .pure _

theorem blind_dispatch (tag : String) (arguments : List Value) :
    Blind (dispatch tag arguments) :=
  .get (fun _ => .bind (blind_onLive _) fun _ => .pure _) fun _ _ => rfl

theorem blind_call (name : String) (arguments : List Value) : Blind (call name arguments) := by
  refine .bind (blind_onLive _) fun result => ?_
  cases result with
  | none => exact .get (fun _ => .pure _) fun _ _ => rfl
  | some result => exact .pure result

theorem blind_build : Blind build := by
  refine .get (fun component => .read fun files => ?_) fun _ _ => rfl
  split
  · exact .pure _
  · refine .bind (.modified fun _ _ => rfl) fun _ => ?_
    split
    · exact .pure _
    · refine .bind (.onInstance _ _) fun bound => ?_
      split
      · exact .pure _
      · exact .bind (.onInstance _ _) fun _ => .bind (.modified fun _ _ => rfl) fun _ => .pure _

theorem blind_ensureLive : Blind ensureLive := by
  refine .get (fun component => ?_) fun _ _ => rfl
  split
  · exact .pure _
  · refine .bind blind_build fun result => ?_
    cases result with
    | error error => exact .pure _
    | ok inst => exact .bind (.modified fun _ _ => rfl) fun _ => .pure _

theorem blind_awake : Blind awake := by
  refine .bind blind_ensureLive fun result => ?_
  cases result with
  | error error => exact .pure _
  | ok _ => exact .bind (blind_dispatch _ _) fun _ => .pure _

theorem blind_setSourceText (text : String) : Blind (setSourceText text) := by
  refine .get (fun component => ?_) fun _ _ => rfl
  split
  · exact .bind (.note _) fun _ => .pure _
  · split
    · exact .pure _
    · exact .bind (.modified fun _ _ => rfl) fun _ => .pure _

end Component
end ScriptHost
