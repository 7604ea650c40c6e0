import ScriptHost.Proofs.Component.Operations
import ScriptHost.Proofs.Instance.Capture

/-!
# A reload keeps marked globals

* `Component.yields_disable_quietly`, `Component.yields_enable_quietly` : tearing a script down and
  building it anew, when no function is called on the way.
* `Component.global_reload` : a marked global has its value again after a reload.
-/

namespace ScriptHost.Component

variable {files : FileTree} {component : Component}

/-- Without functions that have a tag, a broadcast of it is noted only. -/
theorem yields_broadcast_quietly {inst : Instance} {tag : String}
    (quiet : inst.tags.functionsWithTag tag = []) (editor : Bool) (arguments : List Value) :
    (broadcast editor tag arguments).Yields inst fun _ after =>
      after.script = inst.script ∧ after.tags = inst.tags := by
  refine Instance.yields_bind (Instance.yields_get ?_)
  have none_called : handlersOf editor inst.tags tag = [] := by
    unfold handlersOf
    rw [quiet]
    rfl
  rw [none_called]
  exact Instance.yields_bind (Instance.yields_note (Instance.yields_pure ⟨rfl, rfl⟩))

/-- Tearing down a plain script without functions to call takes all of its marked globals that can
be captured. -/
theorem yields_disable_quietly {inst : Instance} (live : component.live? = some inst)
    (plain : inst.IsPlain) (quiet : inst.tags.functionsWithTag disableTag = []) :
    disable.Yields files component fun _ other =>
      other.live? = none
        ∧ other.snapshot = (serializedVariables inst.tags.tags).filterMap
          (Instance.capturedOf inst.script.world)
        ∧ other.config = component.config ∧ other.bindings = component.bindings
        ∧ other.host = component.host := by
  refine yields_bind (yields_get ?_)
  rw [live]
  refine yields_bind (yields_modify (yields_bind (yields_onInstance ?_)))
  obtain ⟨script, tags⟩ := yields_broadcast_quietly quiet component.config.isEditor []
  generalize ((broadcast component.config.isEditor disableTag []).run inst).2 = told at script tags
  have told_plain : Instance.IsPlain { told with journal := [] } := by
    show told.script.world.PlainGlobals
    rw [script]
    exact plain
  have taken : (Instance.capture.run { told with journal := [] }).1
      = (serializedVariables inst.tags.tags).filterMap
        (Instance.capturedOf inst.script.world) := by
    rw [← tags, ← script]
    exact Instance.yields_capture told_plain
  refine yields_bind (yields_onInstance (yields_bind (yields_modify (yields_note ?_))))
  exact ⟨rfl, taken, rfl, rfl, rfl⟩

/-- Without functions that have a tag, a dispatch of it leaves the live script as it is. -/
theorem yields_dispatchEvent_quietly {inst : Instance} {tag : String}
    (live : component.live? = some inst) (quiet : inst.tags.functionsWithTag tag = []) :
    (dispatchEvent tag).Yields files component fun _ other =>
      ∃ after, other.live? = some after ∧ after.script = inst.script := by
  have told : (onLive (broadcast component.config.isEditor tag [])).Yields files component
      fun _ other => ∃ after, other.live? = some after ∧ after.script = inst.script := by
    refine yields_bind (yields_get ?_)
    rw [live]
    refine yields_bind (yields_onInstance (yields_bind (yields_modify (yields_pure ?_))))
    exact ⟨_, rfl, (yields_broadcast_quietly quiet component.config.isEditor []).1⟩
  exact yields_bind (yields_get (yields_bind (told.mono fun _ _ h => yields_pure h)))

/-- Without a live script, a build that goes well gives one. -/
theorem yields_ensureLive_of_idle {fresh : Instance} (idle : component.live? = none)
    (built : rebuilt files component.config component.bindings component.host = .ok fresh) :
    ensureLive.Yields files component fun result other =>
      result = .ok () ∧ other.live? = some fresh ∧ other.snapshot = component.snapshot := by
  have made := yields_ensureLive_idle files idle
  rw [built] at made
  refine made.mono ?_
  rintro result other ⟨rfl, journal, rfl⟩
  exact ⟨rfl, rfl, rfl⟩

theorem yields_restore {inst : Instance} (live : component.live? = some inst) :
    restore.Yields files component fun _ other =>
      other.live? = some
        { ((Instance.restoreVariables component.snapshot).run inst).2 with journal := [] } := by
  refine yields_bind (yields_get ?_)
  rw [live]
  refine yields_bind (yields_modify (yields_bind (yields_onInstance ?_)))
  exact yields_bind (yields_modify (yields_note rfl))

/-- A script that is built when there is none gets the captured variables. When it has no functions
to call, nothing else happens to it. -/
theorem yields_enable_quietly {fresh : Instance} (idle : component.live? = none)
    (built : rebuilt files component.config component.bindings component.host = .ok fresh)
    (quiet : fresh.tags.functionsWithTag enableTag = []) :
    enable.Yields files component fun result other =>
      result = .ok () ∧ ∃ inst, other.live? = some inst
        ∧ inst.script = ((Instance.restoreVariables component.snapshot).run fresh).2.script := by
  refine yields_bind ((yields_ensureLive_of_idle idle built).mono ?_)
  rintro _ other ⟨rfl, live, snapshot⟩
  refine yields_bind ((yields_restore live).mono ?_)
  rw [snapshot]
  intro _ other live
  have tags := ((Instance.silent_restoreVariables component.snapshot).steady fresh).tags_eq
  rw [← tags] at quiet
  refine yields_bind ((yields_dispatchEvent_quietly live quiet).mono ?_)
  rintro _ other ⟨inst, live, script⟩
  exact yields_pure ⟨rfl, inst, live, script⟩

/-- A marked global whose value is a reference, or a value without floating point numbers and
references in which at most 63 arrays and maps lie inside each other, has that value again after a
reload that builds a script. Whatever the new script, the bindings and the configuration set the
global to, and whatever becomes of the other globals, does not matter. -/
theorem global_reload {old fresh : Instance} {name : String} {value : Value}
    (live : component.live? = some old)
    (built : build.result files component = .ok fresh)
    (quiet_old : old.tags.functionsWithTag disableTag = [])
    (quiet_fresh : fresh.tags.functionsWithTag enableTag = [])
    (plain_old : old.IsPlain) (plain_fresh : fresh.IsPlain)
    (marked : name ∈ serializedVariables old.tags.tags)
    (held : ((Instance.global name).run old).1 = .ok value) (kept : value.IsKept) :
    reload.Yields files component fun result other =>
      result = .ok () ∧ ∃ inst, other.live? = some inst
        ∧ ((Instance.global name).run inst).1 = .ok value := by
  obtain ⟨read, _⟩ := Instance.yields_global plain_old name
  rw [held] at read
  have normal : value.Normal := (Script.normal_exportWithin read.symm).1
  have rebuild := (yields_build files component).1.symm.trans built
  refine yields_bind (yields_get (yields_bind (yields_note ?_)))
  refine yields_bind ((yields_disable_quietly (by exact live) plain_old quiet_old).mono ?_)
  rintro _ other ⟨idle, snapshot, config, bindings, host⟩
  -- A build reads nothing that the old script can have changed, so it gives the same instance.
  rw [← config, ← bindings, ← host] at rebuild
  refine (yields_enable_quietly idle rebuild quiet_fresh).mono ?_
  rw [snapshot]
  rintro _ last ⟨rfl, inst, live, script⟩
  obtain ⟨plain, stored⟩ :=
    Instance.stored_restoreVariables_captured plain_fresh marked read.symm kept
  rw [← script] at stored
  have plain_inst : inst.IsPlain := by
    unfold Instance.IsPlain at plain ⊢
    rw [script]
    exact plain
  exact ⟨rfl, inst, live, Instance.yields_global_of_stored plain_inst stored normal kept⟩

/-- The coins that a script has stay when its text is edited, whatever the new text and a binding
set them to. -/
theorem global_reload_of_edit :
    let edited := run
      (idle { name := "lamp", source := .literal "#Serialize coins\ncoins = 1" } .empty)
      [(.empty [], .awake), (.empty [], .bind "coins" (.integer 5)),
        (.empty [], .setSourceText "#Serialize coins\ncoins = 9")]
    reload.Yields (.empty []) edited fun result other =>
      result = .ok () ∧ ∃ inst, other.live? = some inst
        ∧ ((Instance.global "coins").run inst).1 = .ok (.integer 1) := by
  intro edited
  have before : ∃ old, old ∈ edited.live? ∧ old.tags.functionsWithTag disableTag = []
      ∧ (old.script.world.table Script.World.globals).metatable? = none
      ∧ "coins" ∈ serializedVariables old.tags.tags
      ∧ ∃ value, value ∈ ((Instance.global "coins").run old).1.toOption
        ∧ value.asInteger? = some 1 := by
    decide +kernel
  have after : ∃ fresh, fresh ∈ (build.result (.empty []) edited).toOption
      ∧ fresh.tags.functionsWithTag enableTag = []
      ∧ (fresh.script.world.table Script.World.globals).metatable? = none := by
    decide +kernel
  obtain ⟨old, live, quiet_old, plain_old, marked, value, read, isOne⟩ := before
  obtain ⟨fresh, rebuild, quiet_fresh, plain_fresh⟩ := after
  have held : ((Instance.global "coins").run old).1 = .ok (.integer 1) := by
    cases value with
    | integer coins =>
      cases isOne
      exact eq_ok_of_mem_toOption read
    | _ => cases isOne
  have built : build.result (.empty []) edited = .ok fresh := eq_ok_of_mem_toOption rebuild
  have kept : Value.IsKept (.integer 1) := by
    refine .inr ⟨by simp, (Value.throughout_leaf rfl).2 ⟨id, id⟩, Nat.zero_le 63⟩
  exact global_reload live built quiet_old quiet_fresh plain_old plain_fresh marked held kept

end ScriptHost.Component
