import ScriptHost.Proofs.Component.Activation
import ScriptHost.Proofs.Instance.Globals
import ScriptHost.Proofs.Script.Likeness

/-!
# Restoring captured variables

Each captured variable of a list without repeated names has an effect on its own global only, so
that the others, their order and the variables that cannot be decoded do not count. What is read of
a global afterwards is therefore told without the list: it is what is read after the one variable is
set, or what was read before.

* `Instance.restoring` : an instance after captured variables are restored into it.
* `Instance.yields_restoreVariables` : how many variables are restored, and what stays.
* `Instance.reads_restoring_of_value`, `Instance.reads_restoring_of_spared` : the globals afterwards.
* `Component.restore_isolates` : the variables have their effects one by one, in any order, and once.
-/

namespace ScriptHost

namespace CapturedVariable

/-- Whether there is a value to restore: the variable is a reference, or can be decoded. -/
def isRestorable : CapturedVariable → Bool
  | native .. => true
  | encoded entry => entry.decode.toOption.isSome

theorem isRestorable_eq (captured : CapturedVariable) :
    captured.isRestorable = captured.value.toOption.isSome := by
  cases captured <;> rfl

theorem exists_value_of_isRestorable {captured : CapturedVariable}
    (h : captured.isRestorable = true) : ∃ value, captured.value = .ok value := by
  rw [isRestorable_eq] at h
  obtain ⟨value, found⟩ := Option.isSome_iff_exists.1 h
  exact ⟨value, eq_ok_of_mem_toOption found⟩

end CapturedVariable

namespace Instance

open Script (World)

variable {inst : Instance} {snapshot : Snapshot}

/-- An instance after captured variables are restored into it. -/
def restoring (inst : Instance) (snapshot : Snapshot) : Instance :=
  ((restoreVariables snapshot).run inst).2

/-! ## What a restore leaves -/

theorem name_restoring (inst : Instance) (snapshot : Snapshot) :
    (inst.restoring snapshot).name = inst.name := by
  obtain ⟨script, journal, same⟩ := (silent_restoreVariables snapshot).steady inst
  rw [restoring, same]

/-- A variable is restored if it has a value. Further tables may be made then, and the others stay
as they are but for that of the globals. -/
theorem yields_restoreVariable_exact (plain : inst.IsPlain) (captured : CapturedVariable) :
    (restoreVariable captured).Yields inst fun restored after =>
      restored = captured.isRestorable
        ∧ after.script.world = restoredInto inst.script.world captured := by
  refine yields_bind (yields_get ?_)
  rw [CapturedVariable.isRestorable_eq]
  unfold restoredInto
  cases captured.value with
  | error reason => exact yields_bind (yields_note (yields_pure ⟨rfl, rfl⟩))
  | ok value =>
    refine yields_bind ((yields_setGlobal plain captured.name value).mono ?_)
    rintro _ after ⟨rfl, world⟩
    exact yields_pure ⟨rfl, world⟩

/-- A restored variable changes no table that was there but that of the globals. -/
theorem table_restoredInto (world : World) (captured : CapturedVariable) :
    world.tables.size ≤ (restoredInto world captured).tables.size
      ∧ ∀ id, id ≠ World.globals → id < world.tables.size →
        (restoredInto world captured).table id = world.table id := by
  unfold restoredInto
  cases captured.value with
  | error reason => exact ⟨Nat.le_refl _, fun _ _ _ => rfl⟩
  | ok value =>
    refine ⟨?_, fun id ne there => World.table_withGlobal_of_ne captured.name value ne there⟩
    refine Nat.le_trans (Script.image_importValue value world).2.size_le (Nat.le_of_eq ?_)
    exact (World.size_setIn ..).symm

/-- As many variables are restored as have a value, and of the tables that were there only that of
the globals changes. -/
theorem yields_restoreVariables (plain : inst.IsPlain) (snapshot : Snapshot) :
    (restoreVariables snapshot).Yields inst fun count after =>
      count = snapshot.countP CapturedVariable.isRestorable
        ∧ inst.script.world.tables.size ≤ after.script.world.tables.size
        ∧ ∀ id, id ≠ World.globals → id < inst.script.world.tables.size →
          after.script.world.table id = inst.script.world.table id := by
  induction snapshot generalizing inst with
  | nil => exact yields_pure ⟨rfl, Nat.le_refl _, fun _ _ _ => rfl⟩
  | cons captured rest ih =>
    refine yields_bind ((yields_restoreVariable_exact plain captured).mono ?_)
    rintro restored after ⟨rfl, world⟩
    have plain_after : after.IsPlain := by
      unfold IsPlain
      rw [world]
      exact plainGlobals_restoredInto plain captured
    obtain ⟨larger, tables⟩ := table_restoredInto inst.script.world captured
    rw [← world] at larger tables
    refine yields_bind ((ih plain_after).mono ?_)
    rintro count last ⟨rfl, larger_rest, tables_rest⟩
    refine yields_pure ⟨?_, Nat.le_trans larger larger_rest, fun id ne there => ?_⟩
    · rw [List.countP_cons]
      split <;> rfl
    · exact (tables_rest id ne (Nat.lt_of_lt_of_le there larger)).trans (tables id ne there)

theorem written_restoring (plain : inst.IsPlain) (snapshot : Snapshot) :
    World.Written inst.script.world (writesOf snapshot) (inst.restoring snapshot).script.world :=
  written_restoreVariables snapshot (.of_alike plain (.refl _) rfl)

/-! ## What is written -/

/-- What is set last under a name. -/
theorem lookup_writesOf (snapshot : Snapshot) (name : String) :
    (writesOf snapshot).reverse.lookup name
      = snapshot.reverse.findSome? fun captured =>
          if captured.name = name then captured.value.toOption else none := by
  rw [writesOf, ← List.filterMap_reverse]
  exact lookup_filterMap name CapturedVariable.name _ _

/-- Under the name of a variable its value is set, as no other variable has the name. -/
theorem lookup_writesOf_of_value (distinct : (snapshot.map CapturedVariable.name).Nodup)
    {captured : CapturedVariable} (m : captured ∈ snapshot) {value : Value}
    (ok : captured.value = .ok value) :
    (writesOf snapshot).reverse.lookup captured.name = some value := by
  rw [lookup_writesOf]
  cases found : snapshot.reverse.findSome? fun other =>
      if other.name = captured.name then other.value.toOption else none with
  | none =>
    have absent := List.findSome?_eq_none_iff.1 found captured (List.mem_reverse.2 m)
    rw [if_pos rfl, ok] at absent
    cases absent
  | some set =>
    obtain ⟨other, there, set_eq⟩ := List.exists_of_findSome?_eq_some found
    split at set_eq
    · next same =>
      rw [List.inj_on_of_nodup_map distinct (List.mem_reverse.1 there) m same, ok] at set_eq
      exact set_eq.symm
    · cases set_eq

/-- Nothing is set under a name whose variables have no value. -/
theorem lookup_writesOf_of_spared {name : String}
    (spared : ∀ captured ∈ snapshot, captured.name = name → captured.isRestorable = false) :
    (writesOf snapshot).reverse.lookup name = none := by
  rw [lookup_writesOf, List.findSome?_eq_none_iff]
  intro captured m
  split
  · next same =>
    have lost := spared captured (List.mem_reverse.1 m) same
    rw [CapturedVariable.isRestorable_eq] at lost
    exact Option.isNone_iff_eq_none.1 (Option.isSome_eq_false_iff.1 lost)
  · rfl

/-! ## Globals afterwards -/

/-- A restored global is read as if only its own value had been set. -/
theorem reads_restoring_of_value (plain : inst.IsPlain)
    (distinct : (snapshot.map CapturedVariable.name).Nodup) {captured : CapturedVariable}
    (m : captured ∈ snapshot) {value : Value} (ok : captured.value = .ok value) :
    (inst.restoring snapshot).reads captured.name
      = (inst.setting captured.name value).reads captured.name := by
  have written := written_restoring plain snapshot
  have stored := written.stored captured.name value (lookup_writesOf_of_value distinct m ok)
  rw [reads_eq written.plain, reads_setting_eq plain]
  exact stored.export?_eq (World.stored_withGlobal inst.script.world captured.name value)

/-- The other globals hold what they did, and are read as before. -/
theorem reads_restoring_of_spared (plain : inst.IsPlain) {name : String}
    (spared : ∀ captured ∈ snapshot, captured.name = name → captured.isRestorable = false) :
    (inst.restoring snapshot).script.world.globalNamed name = inst.script.world.globalNamed name
      ∧ inst.SameReading name (inst.reads name) ((inst.restoring snapshot).reads name) := by
  have written := written_restoring plain snapshot
  have kept := written.kept name (lookup_writesOf_of_spared spared)
  obtain ⟨_, _, tables⟩ := yields_restoreVariables plain snapshot
  refine ⟨kept, ?_⟩
  rw [reads_eq written.plain, reads_eq plain]
  exact (World.export?_of_kept tables kept).imp_left Eq.symm

/-! ## Other orders -/

/-- In another order the variables leave every global as it is read. -/
theorem reads_restoring_of_perm (plain : inst.IsPlain)
    (distinct : (snapshot.map CapturedVariable.name).Nodup) {other : Snapshot}
    (perm : other.Perm snapshot) (name : String) :
    ((∃ captured ∈ snapshot, captured.name = name ∧ captured.isRestorable = true) →
        (inst.restoring other).reads name = (inst.restoring snapshot).reads name)
      ∧ inst.SameReading name ((inst.restoring snapshot).reads name)
          ((inst.restoring other).reads name) := by
  have distinct_other : (other.map CapturedVariable.name).Nodup :=
    (perm.map CapturedVariable.name).nodup_iff.2 distinct
  by_cases restored : ∃ captured ∈ snapshot, captured.name = name ∧ captured.isRestorable = true
  · -- Both ways the global is read as if only its own value had been set.
    obtain ⟨captured, m, rfl, restorable⟩ := restored
    obtain ⟨value, ok⟩ := CapturedVariable.exists_value_of_isRestorable restorable
    have same : (inst.restoring other).reads captured.name
        = (inst.restoring snapshot).reads captured.name := by
      rw [reads_restoring_of_value plain distinct m ok,
        reads_restoring_of_value plain distinct_other (perm.mem_iff.2 m) ok]
    exact ⟨fun _ => same, .inl same.symm⟩
  · -- Both ways the global is read as before.
    have spared : ∀ captured ∈ snapshot, captured.name = name → captured.isRestorable = false :=
      fun captured m named => eq_false_of_ne_true fun h => restored ⟨captured, m, named, h⟩
    have spared_other : ∀ captured ∈ other, captured.name = name → captured.isRestorable = false :=
      fun captured m => spared captured (perm.mem_iff.1 m)
    obtain ⟨_, same⟩ := reads_restoring_of_spared plain spared
    obtain ⟨_, same_other⟩ := reads_restoring_of_spared plain spared_other
    exact ⟨fun found => absurd found restored, same.symm.trans same_other⟩

end Instance

namespace Component

open Script (World)

/-! ## Restoring once -/

/-- The live instance is given the captured variables, and then none wait any more. -/
theorem yields_restore_live {files : FileTree} {component : Component} {inst : Instance}
    (live : component.live? = some inst) :
    restore.Yields files component fun _ other =>
      other = { component with
        live? := some { inst.restoring component.snapshot with journal := [] }
        snapshot := []
        journal := .restored inst.name ((Instance.restoreVariables component.snapshot).run inst).1
          :: ((inst.restoring component.snapshot).journal ++ component.journal) } := by
  refine yields_bind (yields_get ?_)
  rw [live]
  refine yields_bind (yields_modify (yields_bind (yields_onInstance ?_)))
  refine yields_bind (yields_modify (yields_note ?_))
  rw [← Instance.name_restoring inst component.snapshot]
  rfl

/-- Restoring once more gives nothing to the instance. -/
theorem yields_restore_again {files : FileTree} {component : Component} (inst : Instance)
    (live : component.live? = some inst) (taken : inst.journal = [])
    (nothing : component.snapshot = []) :
    restore.Yields files component fun _ other =>
      other = { component with journal := .restored inst.name 0 :: component.journal } := by
  refine (yields_restore_live live).mono ?_
  rintro _ other rfl
  have untouched : { inst.restoring [] with journal := [] } = inst := by
    show ({ inst with journal := [] } : Instance) = inst
    rw [← taken]
  have quiet : (inst.restoring []).journal = [] := taken
  rw [nothing, untouched, quiet]
  cases component
  cases live
  cases nothing
  rfl

/-- Restored variables have their effects one by one, in any order, and once. When no two have one
name, as many are counted as are references or can be decoded. Each of these globals is read as if
only its own value had been set, and the others hold what they did and are read as before; the
variables in another order are counted alike and leave every global as it is read. Only the error of
a global that is not restored and leads back to the table of the globals may be another one, as such
a global cannot be read in any case. A component that has given the variables to its live instance
keeps none, and when it is to give them once more, nothing changes and none is counted. -/
theorem restore_isolates (inst : Instance) (snapshot : Snapshot) :
    (inst.IsPlain → (snapshot.map CapturedVariable.name).Nodup →
      ((Instance.restoreVariables snapshot).run inst).1
          = snapshot.countP CapturedVariable.isRestorable
        ∧ (∀ captured ∈ snapshot, ∀ value, captured.value = .ok value →
            (inst.restoring snapshot).reads captured.name
              = (inst.setting captured.name value).reads captured.name)
        ∧ (∀ name, (∀ captured ∈ snapshot, captured.name = name →
              captured.isRestorable = false) →
            (inst.restoring snapshot).script.world.globalNamed name
                = inst.script.world.globalNamed name
              ∧ inst.SameReading name (inst.reads name) ((inst.restoring snapshot).reads name))
        ∧ ∀ other : Snapshot, other.Perm snapshot →
            ((Instance.restoreVariables other).run inst).1
                = ((Instance.restoreVariables snapshot).run inst).1
              ∧ ∀ name,
                ((∃ captured ∈ snapshot, captured.name = name ∧ captured.isRestorable = true) →
                    (inst.restoring other).reads name = (inst.restoring snapshot).reads name)
                  ∧ inst.SameReading name ((inst.restoring snapshot).reads name)
                      ((inst.restoring other).reads name))
    ∧ ∀ files (component : Component), component.live? = some inst →
        component.snapshot = snapshot →
        restore.Yields files component fun _ other =>
          other.snapshot = [] ∧ other.live? = some { inst.restoring snapshot with journal := [] }
            ∧ other.journal.head?
              = some (.restored inst.name ((Instance.restoreVariables snapshot).run inst).1)
            ∧ restore.Yields files other fun _ again =>
              again = { other with journal := .restored inst.name 0 :: other.journal } := by
  constructor
  · intro plain distinct
    have count := (Instance.yields_restoreVariables plain snapshot).1
    refine ⟨count, ?_, ?_, ?_⟩
    · exact fun captured m value ok => Instance.reads_restoring_of_value plain distinct m ok
    · exact fun name spared => Instance.reads_restoring_of_spared plain spared
    · intro other perm
      refine ⟨?_, Instance.reads_restoring_of_perm plain distinct perm⟩
      rw [count, (Instance.yields_restoreVariables plain other).1, perm.countP_eq]
  · rintro files component live rfl
    refine (yields_restore_live live).mono ?_
    rintro _ other rfl
    refine ⟨rfl, rfl, rfl, ?_⟩
    rw [← Instance.name_restoring inst component.snapshot]
    exact yields_restore_again { inst.restoring component.snapshot with journal := [] } rfl rfl rfl

/-- Of four variables, a number and a reference are restored, in whatever order they stand; one of an
unknown type and one that is no number leave their globals as they are. -/
theorem restore_isolates_of_lamp :
    let snapshot : Snapshot := [.encoded ⟨"hp", "lua.integer", "8"⟩,
      .encoded ⟨"lit", "lua.colour", "1"⟩, .native "target" ⟨"7", "Door"⟩,
      .encoded ⟨"speed", "lua.integer", "x"⟩]
    ∃ inst, (Instance.build .empty "lamp" "hp, lit = 7, true").1 = .ok inst ∧ inst.IsPlain
      ∧ (snapshot.map CapturedVariable.name).Nodup
      ∧ ((Instance.restoreVariables snapshot).run inst).1 = 2
      ∧ (inst.restoring snapshot).reads "lit" = inst.reads "lit"
      ∧ (inst.restoring snapshot.reverse).reads "hp"
        = (inst.setting "hp" (.integer 8)).reads "hp" := by
  intro snapshot
  have there : ∃ inst, inst ∈ (Instance.build .empty "lamp" "hp, lit = 7, true").1.toOption
      ∧ (inst.script.world.table World.globals).metatable? = none
      ∧ inst.script.world.globalNamed "lit" = .boolean true := by
    decide +kernel
  have eight : ∃ value, value ∈ (EncodedVariable.decode ⟨"hp", "lua.integer", "8"⟩).toOption
      ∧ value.asInteger? = some 8 := by
    decide +kernel
  have counted : snapshot.countP CapturedVariable.isRestorable = 2 := by decide +kernel
  have colour : CapturedVariable.isRestorable (.encoded ⟨"lit", "lua.colour", "1"⟩) = false := by
    decide +kernel
  have hp : CapturedVariable.isRestorable (.encoded ⟨"hp", "lua.integer", "8"⟩) = true := by
    decide +kernel
  have distinct : (snapshot.map CapturedVariable.name).Nodup := by decide
  obtain ⟨inst, built, plain, lit⟩ := there
  obtain ⟨value, decoded, is_eight⟩ := eight
  have value_eq : value = .integer 8 := by
    cases value with
    | integer n => exact congrArg Value.integer (Option.some.inj is_eight)
    | _ => cases is_eight
  obtain ⟨isolates, _⟩ := restore_isolates inst snapshot
  obtain ⟨count, restored, spared, reordered⟩ := isolates plain distinct
  have first : CapturedVariable.encoded ⟨"hp", "lua.integer", "8"⟩ ∈ snapshot := .head _
  refine ⟨inst, eq_ok_of_mem_toOption built, plain, distinct, count.trans counted, ?_, ?_⟩
  · refine ((spared "lit" ?_).2.eq ?_).symm
    · simp only [snapshot, List.forall_mem_cons, CapturedVariable.name]
      exact ⟨nofun, fun _ => colour, nofun, nofun, nofun⟩
    · intro back
      rw [Instance.LeadsBack, lit] at back
      cases back
  · have same := (reordered snapshot.reverse (List.reverse_perm snapshot)).2 "hp"
    rw [same.1 ⟨_, first, rfl, hp⟩]
    exact restored _ first _ (value_eq ▸ eq_ok_of_mem_toOption decoded)

/-- Two variables are restored that do not leave, one for a hole and one that is nested too deeply
where it is reached from a global. The one that is restored first is found first. -/
theorem ne_reads_restoring_of_perm :
    let source := "loop = _G\nfor i = 1, 62 do\n  loop = \x7bloop\x7d\nend\nassert = nil"
    let hole : EncodedVariable := ⟨"hole", "lua.array",
      "[\x7b\"type\":\"nil\"\x7d,\x7b\"type\":\"boolean\",\"value\":true\x7d]"⟩
    let deep : EncodedVariable := ⟨"deep", "lua.array",
      "[\x7b\"type\":\"array\",\"value\":[\x7b\"type\":\"boolean\",\"value\":true\x7d]\x7d]"⟩
    ∃ inst, (Instance.build .empty "lamp" source).1 = .ok inst ∧ inst.IsPlain
      ∧ ∃ first second,
        (inst.restoring [.encoded hole, .encoded deep]).reads "loop" = .error first
        ∧ (inst.restoring [.encoded deep, .encoded hole]).reads "loop" = .error second
        ∧ first.code ≠ second.code := by
  intro source hole deep
  let exported (inst : Instance) : Except Error Value :=
    Script.exportViewed inst.script.world.orderedView (Script.nestingLimit + 1)
      (inst.script.world.globalNamed "loop")
  have ran : ∃ inst ∈ (Instance.build .empty "lamp" source).1.toOption,
      (inst.script.world.table World.globals).metatable? = none
        ∧ let one := inst.restoring [.encoded hole, .encoded deep]
          let other := inst.restoring [.encoded deep, .encoded hole]
          (one.script.world.table World.globals).metatable? = none
            ∧ (other.script.world.table World.globals).metatable? = none
            ∧ ∃ first ∈ errorOf? (exported one), ∃ second ∈ errorOf? (exported other),
              first.code ≠ second.code := by
    decide +kernel
  obtain ⟨inst, built, plain, plain_one, plain_other, first, found, second, found_other, differ⟩ :=
    ran
  refine ⟨inst, eq_ok_of_mem_toOption built, plain, first, second, ?_, ?_, differ⟩
  · rw [Instance.reads_eq_exportViewed plain_one]
    exact eq_error_of_mem_errorOf? found
  · rw [Instance.reads_eq_exportViewed plain_other]
    exact eq_error_of_mem_errorOf? found_other

end Component

end ScriptHost
