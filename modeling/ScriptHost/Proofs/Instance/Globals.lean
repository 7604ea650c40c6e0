import ScriptHost.Proofs.Instance.Capture
import ScriptHost.Proofs.Instance.Steady
import ScriptHost.Proofs.Script.Orders

/-!
# Setting and reading globals

A value of the host that a global of a plain instance is set to is read again as its normal form, or
not at all, and the other globals are read as before.

* `Instance.reads` : what reading a global gives.
* `Instance.SameReading` : a global is read the same way twice.
* `Instance.reads_setGlobal_of_ne` : the other globals, after one is set.
* `Instance.reads_setGlobal_self` : which values are read again.
* `Instance.reads_setGlobal` : what setting a global does.
* `Instance.ne_reads_setGlobal_of_loop` : the error of another global can change.
-/

namespace ScriptHost.Instance

open Script (World)

/-- What reading a global gives. -/
def reads (inst : Instance) (name : String) : Except Error Value := ((global name).run inst).1

/-- The instance after a global is set. -/
def setting (inst : Instance) (name : String) (value : Value) : Instance :=
  ((setGlobal name value).run inst).2

variable {inst : Instance}

theorem reads_eq (plain : inst.IsPlain) (name : String) :
    inst.reads name = Script.export? inst.script.world (inst.script.world.globalNamed name) :=
  (yields_global plain name).1

/-- A reading can be computed. -/
theorem reads_eq_exportViewed (plain : inst.IsPlain) (name : String) :
    inst.reads name = Script.exportViewed inst.script.world.orderedView (Script.nestingLimit + 1)
      (inst.script.world.globalNamed name) := by
  rw [reads_eq plain, Script.export?_eq_exportViewed]

/-- What the host did before does not count when a value leaves. -/
theorem reads_setting_eq (plain : inst.IsPlain) (name : String) (value : Value) (other : String) :
    (inst.setting name value).reads other
      = Script.export? (inst.script.world.withGlobal name value)
          ((inst.script.world.withGlobal name value).globalNamed other) := by
  have world : (inst.setting name value).script.world
      = (inst.script.world.withGlobal name value).withoutEffects :=
    (yields_setGlobal plain name value).2
  have still := World.alike_withoutEffects (inst.script.world.withGlobal name value)
  have plain_after : (inst.setting name value).IsPlain := by
    unfold IsPlain
    rw [world]
    exact (plain.withGlobal name value).of_alike still
  rw [reads_eq plain_after, world, World.globalNamed_of_alike still, Script.export?_of_alike still]

/-! ## Globals that lead back -/

/-- The value of a global leads back to the table of the globals. -/
def LeadsBack (inst : Instance) (name : String) : Prop :=
  inst.script.world.Leads World.globals (inst.script.world.globalNamed name)

/-- A global is read the same way twice. Only the error may be another one when the global leads back
to the table of the globals: such a global cannot be read, and which error comes first can change. -/
def SameReading (inst : Instance) (name : String) (one other : Except Error Value) : Prop :=
  one = other
    ∨ inst.LeadsBack name ∧ (∃ error, one = .error error) ∧ ∃ error, other = .error error

namespace SameReading

variable {name : String} {one other last : Except Error Value}

theorem symm (same : inst.SameReading name one other) : inst.SameReading name other one := by
  rcases same with rfl | ⟨back, fails, fails_other⟩
  · exact .inl rfl
  · exact .inr ⟨back, fails_other, fails⟩

theorem trans (same : inst.SameReading name one other) (again : inst.SameReading name other last) :
    inst.SameReading name one last := by
  rcases same with rfl | ⟨back, fails, fails_other⟩
  · exact again
  · rcases again with rfl | ⟨_, _, fails_last⟩
    · exact .inr ⟨back, fails, fails_other⟩
    · exact .inr ⟨back, fails, fails_last⟩

theorem eq (same : inst.SameReading name one other) (away : ¬inst.LeadsBack name) : one = other :=
  same.resolve_right fun back => away back.1

end SameReading

/-! ## Globals that are set -/

/-- The other globals are read as before. -/
theorem reads_setGlobal_of_ne (plain : inst.IsPlain) {name other : String} (value : Value)
    (ne : other ≠ name) :
    inst.SameReading other (inst.reads other) ((inst.setting name value).reads other) := by
  rw [reads_setting_eq plain, reads_eq plain]
  exact (World.export?_withGlobal_of_ne inst.script.world value ne).imp_left Eq.symm

/-- A value is read again if it has no holes and its innermost values lie in at most 64 arrays and
maps, and then as its normal form. -/
theorem reads_setGlobal_self (plain : inst.IsPlain) (name : String) {value : Value}
    (formed : value.WellFormed) (out : Value) :
    (inst.setting name value).reads name = .ok out
      ↔ (value.HoleFree
          ∧ ∀ inner count, Value.OccursUnder inner count value → inner ≠ .nil → count ≤ 64)
        ∧ out = value.norm := by
  rw [reads_setting_eq plain]
  have stored := World.stored_withGlobal inst.script.world name value
  have placed : value.room ≤ Script.nestingLimit + 1
      ↔ ∀ inner count, Value.OccursUnder inner count value → inner ≠ .nil → count ≤ 64 := by
    simp only [Value.room_le_iff, Script.nestingLimit, Nat.lt_succ_iff]
  rw [← placed]
  exact Script.exportWithin_image_eq_ok_iff formed (Nat.succ_pos _) stored

/-- Setting a global to a value goes well, and the other globals are read as before. The global is
read as the normal form of the value if no array in the value has a nil in front of other items and
all that is not nil lies in at most 64 arrays and maps; otherwise it cannot be read. The normal form
leaves all that holds no other values as it is. -/
theorem reads_setGlobal (plain : inst.IsPlain) (name : String) {value : Value}
    (formed : value.WellFormed) :
    ((setGlobal name value).run inst).1 = .ok ()
      ∧ (∀ other, other ≠ name →
          inst.SameReading other (inst.reads other) ((inst.setting name value).reads other))
      ∧ (value.HoleFree →
          (∀ inner count, Value.OccursUnder inner count value → inner ≠ .nil → count ≤ 64) →
            (inst.setting name value).reads name = .ok value.norm)
      ∧ (¬(value.HoleFree
            ∧ ∀ inner count, Value.OccursUnder inner count value → inner ≠ .nil → count ≤ 64) →
          ∃ error, (inst.setting name value).reads name = .error error)
      ∧ ∀ inner, Value.Occurs inner value → inner.isLeaf = true → inner.norm = inner := by
  refine ⟨(yields_setGlobal plain name value).1, ?_, ?_, ?_, ?_⟩
  · exact fun other ne => reads_setGlobal_of_ne plain value ne
  · exact fun holeFree placed =>
      (reads_setGlobal_self plain name formed value.norm).2 ⟨⟨holeFree, placed⟩, rfl⟩
  · intro lost
    cases read : (inst.setting name value).reads name with
    | error error => exact ⟨error, rfl⟩
    | ok out => exact absurd ((reads_setGlobal_self plain name formed out).1 read).1 lost
  · exact fun inner occurs leaf => Value.norm_leaf (formed inner occurs) leaf

/-- A map of a text, of nothing, and of rows with nils at their ends comes back without the nils. -/
theorem reads_setGlobal_of_rows :
    let rows : Value := .map [("1", .string "x"), ("lost", .nil),
      ("rows", .array [.integer 1, .array [.number 0.5, .nil], .array [.nil], .nil])]
    ∃ inst, (build .empty "lamp" "hp = 7").1 = .ok inst ∧ inst.IsPlain ∧ rows.WellFormed
      ∧ ((setGlobal "rows" rows).run inst).1 = .ok ()
      ∧ (inst.setting "rows" rows).reads "hp" = inst.reads "hp"
      ∧ (inst.setting "rows" rows).reads "rows"
        = .ok (.map [("1", .string "x"),
            ("rows", .array [.integer 1, .array [.number 0.5], .map []])]) := by
  intro rows
  have there : ∃ inst, inst ∈ (build .empty "lamp" "hp = 7").1.toOption
      ∧ (inst.script.world.table World.globals).metatable? = none
      ∧ inst.script.world.globalNamed "hp" = .integer 7 := by
    decide +kernel
  obtain ⟨inst, built, plain, hp⟩ := there
  have notNaN : (0.5 : Float).isNaN = false := by decide +kernel
  have half : Value.ofFloat 0.5 false = .number 0.5 := @Value.norm_leaf (.number 0.5) notNaN rfl
  have formed : rows.WellFormed := by
    simp only [rows, Value.WellFormed, Value.throughout_map, Value.throughout_array,
      Value.IsWellFormed, List.forall_mem_cons, List.not_mem_nil, IsEmpty.forall_iff, implies_true,
      and_true]
    refine ⟨Entries.ascending_iff_keys.2 (by decide), ?_, ?_, by decide, ?_,
      ⟨by decide, ?_, ?_⟩, ⟨by decide, ?_⟩, ?_⟩
    all_goals exact (Value.throughout_leaf rfl).2 (by trivial)
  have holeFree : rows.HoleFree := by
    simp only [rows, Value.HoleFree, Value.throughout_map, Value.throughout_array,
      Value.IsHoleFree, List.forall_mem_cons, List.not_mem_nil, IsEmpty.forall_iff, implies_true,
      and_true, true_and]
    refine ⟨?_, ?_, by simp, ?_, ⟨by simp, ?_, ?_⟩, ⟨by simp, ?_⟩, ?_⟩
    all_goals exact (Value.throughout_leaf rfl).2 trivial
  have placed : ∀ inner count, Value.OccursUnder inner count rows → inner ≠ .nil → count ≤ 64 :=
    fun inner count occurs notNil =>
      Nat.le_of_lt_succ (Value.room_le_iff.1 (by decide) inner count occurs notNil)
  obtain ⟨set, others, self, _⟩ := reads_setGlobal plain "rows" formed
  have norm : rows.norm = .map [("1", .string "x"),
      ("rows", .array [.integer 1, .array [.number 0.5], .map []])] := by
    simp only [rows, Value.norm, Value.normEntries, Value.normItems, Value.isNil, half,
      Bool.false_eq_true, if_false, if_true]
  have away : ¬inst.LeadsBack "hp" := by
    intro back
    rw [LeadsBack, hp] at back
    cases back
  exact ⟨inst, eq_ok_of_mem_toOption built, plain, formed, set,
    ((others "hp" (by decide)).eq away).symm, norm ▸ self holeFree placed⟩

/-- A global that holds the table of the globals leads back to it without end. When a value that
does not leave is put in front of it, that value is found first. -/
theorem ne_reads_setGlobal_of_loop :
    ∃ inst, (build .empty "lamp" "loop = _G\nassert = nil").1 = .ok inst ∧ inst.IsPlain
      ∧ ∃ before after, inst.reads "loop" = .error before
        ∧ (inst.setting "aa" (.array [.nil, .integer 1])).reads "loop" = .error after
        ∧ before.code ≠ after.code := by
  let exported (inst : Instance) : Except Error Value :=
    Script.exportViewed inst.script.world.orderedView (Script.nestingLimit + 1)
      (inst.script.world.globalNamed "loop")
  have ran : ∃ inst ∈ (build .empty "lamp" "loop = _G\nassert = nil").1.toOption,
      let set := inst.setting "aa" (.array [.nil, .integer 1])
      (inst.script.world.table World.globals).metatable? = none
        ∧ (set.script.world.table World.globals).metatable? = none
        ∧ ∃ before ∈ errorOf? (exported inst), ∃ after ∈ errorOf? (exported set),
          before.code ≠ after.code := by
    decide +kernel
  obtain ⟨inst, built, plain, plain_set, before, found, after, found_after, differ⟩ := ran
  refine ⟨inst, eq_ok_of_mem_toOption built, plain, before, after, ?_, ?_, differ⟩
  · rw [reads_eq_exportViewed plain]
    exact eq_error_of_mem_errorOf? found
  · rw [reads_eq_exportViewed plain_set]
    exact eq_error_of_mem_errorOf? found_after

end ScriptHost.Instance
