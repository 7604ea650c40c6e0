import ScriptHost.Proofs.Script.Crossing
import ScriptHost.Script.Run

/-!
# Globals of a script

Reading and setting globals from the host, when the table of the globals has no metatable. Then no
function of the script runs.

* `World.PlainGlobals` : the table of the globals has no metatable.
* `World.globalNamed`, `World.withGlobal` : the value of a global, and a world after it is set.
* `Interpreter.global_spec`, `Interpreter.setGlobal_spec` : what the host does to globals.
* `World.Stored` : a global is the image of a value of the host, until it is set again.
-/

namespace ScriptHost.Script

namespace World

/-! ## The globals of a world -/

/-- The table of the globals has no metatable, so that reading and setting them runs nothing. -/
def PlainGlobals (world : World) : Prop := (world.table globals).metatable? = none

/-- A metatable of the globals, if there is one, does not say where a global is looked for that is
not there, so that reading them runs nothing. -/
def PlainReads (world : World) : Prop :=
  ∀ id, (world.table globals).metatable? = some id →
    (world.table id).get (.ofString "__index") = .nil

/-- The value of a global. -/
def globalNamed (world : World) (name : String) : Value :=
  (world.table globals).get (.ofString name)

/-- The world after a value of the host has entered it and a global is set to that. -/
def withGlobal (world : World) (name : String) (value : ScriptHost.Value) : World :=
  ((importValue value).run world).2.setIn globals (.ofString name)
    ((importValue value).run world).1

theorem PlainGlobals.of_alike {world other : World} (h : PlainGlobals world)
    (alike : Alike world other) : PlainGlobals other := by
  obtain ⟨limit, same⟩ := alike globals
  unfold PlainGlobals
  rw [same]
  exact h

theorem PlainGlobals.plainReads {world : World} (h : PlainGlobals world) : PlainReads world := by
  intro id metatable
  rw [h] at metatable
  cases metatable

theorem PlainReads.of_alike {world other : World} (h : PlainReads world)
    (alike : Alike world other) : PlainReads other := by
  intro id metatable
  obtain ⟨_, same_globals⟩ := alike globals
  obtain ⟨_, same_metatable⟩ := alike id
  rw [same_globals] at metatable
  rw [same_metatable]
  exact h id metatable

theorem globalNamed_of_alike {world other : World} (alike : Alike world other) (name : String) :
    other.globalNamed name = world.globalNamed name := by
  obtain ⟨limit, same⟩ := alike globals
  unfold globalNamed
  rw [same]
  rfl

/-- What the host did is no part of the tables. -/
theorem alike_withoutEffects (world : World) : Alike world world.withoutEffects :=
  fun id => .refl (world.table id)

variable {world : World}

theorem PlainGlobals.withGlobal (h : PlainGlobals world) (name : String)
    (value : ScriptHost.Value) : PlainGlobals (world.withGlobal name value) := by
  unfold PlainGlobals World.withGlobal
  rw [metatable?_setIn, (image_importValue value world).2.table_eq globals world.rooted]
  exact h

/-- Setting a global leaves the others alone. -/
theorem globalNamed_withGlobal (world : World) (name : String) (value : ScriptHost.Value)
    (other : String) :
    (world.withGlobal name value).globalNamed other
      = if name = other then ((importValue value).run world).1 else world.globalNamed other := by
  obtain ⟨image, grown⟩ := image_importValue value world
  have there : globals < ((importValue value).run world).2.tables.size :=
    Nat.lt_of_lt_of_le world.rooted grown.size_le
  have key : (Value.ofString name).Within ((importValue value).run world).2.tables.size := trivial
  unfold globalNamed withGlobal
  rw [table_setIn there key image.within, if_pos rfl, Table.get_set,
    grown.table_eq globals world.rooted]
  by_cases same : name = other
  · rw [if_pos same, if_pos (by rw [same])]
  · have keys : (Value.ofString name).asKey ≠ (Value.ofString other).asKey :=
      fun h => same (ofString_injective h)
    rw [if_neg same, if_neg keys]

/-! ## Stored values -/

/-- A global is the image of a value of the host, apart from the table of the globals. -/
def Stored (world : World) (name : String) (value : ScriptHost.Value) : Prop :=
  Image world 1 value (world.globalNamed name)

/-- An image that the table of the globals has no part in stays when a global is set. -/
theorem image_withGlobal {low : Nat} (positive : 0 < low) {stored : ScriptHost.Value}
    {image : Value} (h : Image world low stored image) (name : String)
    (value : ScriptHost.Value) : Image (world.withGlobal name value) 1 stored image := by
  have grown := (image_importValue value world).2
  -- The value that enters is made of new tables, and only the table of the globals is changed.
  refine h.congr positive fun id ge there => ?_
  have other : globals ≠ id := Nat.ne_of_lt (Nat.lt_of_lt_of_le positive ge)
  unfold withGlobal
  rw [size_setIn, table_setIn_of_ne other]
  exact ⟨Nat.lt_of_lt_of_le there grown.size_le, grown.table_eq id there⟩

/-- A global that is set to a value is stored. -/
theorem stored_withGlobal (world : World) (name : String) (value : ScriptHost.Value) :
    Stored (world.withGlobal name value) name value := by
  obtain ⟨image, grown⟩ := image_importValue value world
  unfold Stored
  rw [globalNamed_withGlobal, if_pos rfl]
  refine image.congr (Nat.succ_le_of_lt world.rooted) fun id ge there => ?_
  have other : globals ≠ id := Nat.ne_of_lt (Nat.lt_of_lt_of_le world.rooted ge)
  unfold withGlobal
  rw [size_setIn, table_setIn_of_ne other]
  exact ⟨there, rfl⟩

/-- A stored value stays stored when another global is set. -/
theorem Stored.withGlobal {name other : String} {value set : ScriptHost.Value}
    (h : Stored world name value) (different : other ≠ name) :
    Stored (world.withGlobal other set) name value := by
  unfold Stored
  rw [globalNamed_withGlobal, if_neg different]
  exact image_withGlobal Nat.one_pos h other set

theorem Stored.withoutEffects {name : String} {value : ScriptHost.Value}
    (h : Stored world name value) : Stored world.withoutEffects name value :=
  Image.of_extends h ⟨Nat.le_refl _, fun _ _ => rfl⟩

/-- A stored value leaves the script as its normal form. -/
theorem Stored.export? {name : String} {value : ScriptHost.Value} (h : Stored world name value)
    (dense : ScriptHost.Value.Throughout ScriptHost.Value.IsDense value)
    (ordered : ScriptHost.Value.Ordered value) (fits : value.room ≤ nestingLimit + 1) :
    Script.export? world (world.globalNamed name) = .ok value.norm :=
  exportWithin_image dense ordered (Nat.succ_pos _) fits h

end World

/-! ## Reading and setting -/

/-- Reading a value of a table itself remembers where the length is looked for at most. -/
theorem run_rawGet (world : World) (id : Nat) (key : Value) :
    ∃ after, (rawGet id key).run world = .ok ((world.table id).get key) after
      ∧ World.Alike world after ∧ after.tables.size = world.tables.size := by
  refine ⟨_, rfl, ?_⟩
  split
  · exact ⟨World.alike_touchIn world id key, Array.size_modify ..⟩
  · exact ⟨.refl world, rfl⟩

/-- What no metatable has under a name is nil. -/
theorem run_metafield {world : World} {id : Nat} {name : String}
    (absent : ∀ metatable, (world.table id).metatable? = some metatable →
      (world.table metatable).get (.ofString name) = .nil) :
    (metafield (.table id) name).run world = .ok .nil world := by
  unfold metafield
  simp only [EStateM.run_bind, EStateM.run_get]
  cases given : (world.table id).metatable? with
  | none => rfl
  | some metatable =>
    show EStateM.Result.ok ((world.table metatable).get (.ofString name)) world = _
    rw [absent metatable given]

/-- Reading a global gives its value. -/
theorem run_readGlobal {world : World} (plain : world.PlainReads) (host : HostFunctions)
    (name : String) :
    ∃ after, (readGlobal host name).run world = .ok (world.globalNamed name) after
      ∧ World.Alike world after ∧ after.tables.size = world.tables.size := by
  obtain ⟨after, read, alike, size⟩ := run_rawGet world World.globals (.ofString name)
  refine ⟨after, ?_, alike, size⟩
  have field := run_metafield (plain.of_alike alike)
  show (indexWithin (hostScene host) (1999 + 1) (.table World.globals) (.ofString name)).run world
    = .ok ((world.table World.globals).get (.ofString name)) after
  rw [indexWithin]
  simp only [EStateM.run_bind, read]
  by_cases isNil : (world.table World.globals).get (.ofString name) = .nil
  · rw [isNil] at read ⊢
    simp only [ne_eq, not_true_eq_false, if_false, EStateM.run_bind, field]
    rfl
  · simp only [isNil, ne_eq, not_false_eq_true, if_true]
    rfl

/-- Setting a global lets the value enter and sets the global to it. -/
theorem run_writeGlobal {world : World} (plain : world.PlainGlobals) (host : HostFunctions)
    (name : String) (value : ScriptHost.Value) :
    (writeGlobal host name value).run world = .ok () (world.withGlobal name value) := by
  have grown := (image_importValue value world).2
  -- The value enters before the metatable is looked at.
  have plain_after : ((((importValue value).run world).2.table World.globals).metatable?).isNone
      = true := by
    rw [grown.table_eq World.globals world.rooted, plain]
    rfl
  show (assignWithin (hostScene host) (1999 + 1) (.table World.globals) (.ofString name)
    ((importValue value).run world).1).run ((importValue value).run world).2 = _
  rw [assignWithin]
  simp only [EStateM.run_bind, look, EStateM.run_get, EStateM.run_pure, plain_after, if_true]
  rfl

namespace Interpreter

variable {script : Interpreter}

/-- Looking for a function among the globals gives the one that the global holds, and leaves the
tables alike. -/
theorem function?_spec (plain : script.world.PlainReads) (name : String) :
    ∃ after effects, script.function? name
        = (if (script.world.globalNamed name).isFunction then some (script.world.globalNamed name)
            else none, { script with world := after }, effects)
      ∧ World.Alike script.world after ∧ after.tables.size = script.world.tables.size := by
  obtain ⟨after, run, alike, size⟩ := run_readGlobal plain script.host name
  refine ⟨after.withoutEffects, after.effects.reverse, ?_,
    alike.trans (World.alike_withoutEffects after), size⟩
  unfold function? compute
  rw [run]

/-- Reading a global gives what its value is for the host. -/
theorem global_spec (plain : script.world.PlainGlobals) (name : String) :
    ∃ after effects, script.global name
        = (⟨export? script.world (script.world.globalNamed name), effects⟩,
          { script with world := after })
      ∧ World.Alike script.world after := by
  obtain ⟨after, run, alike, _⟩ := run_readGlobal plain.plainReads script.host name
  have still : World.Alike script.world after.withoutEffects :=
    alike.trans (World.alike_withoutEffects after)
  refine ⟨after.withoutEffects, after.effects.reverse, ?_, still⟩
  unfold global perform compute
  rw [run]
  show ((⟨export? after.withoutEffects (script.world.globalNamed name), _⟩ : Outcome _), _) = _
  rw [export?_of_alike still]

/-- Setting a global never fails. -/
theorem setGlobal_spec (plain : script.world.PlainGlobals) (name : String)
    (value : ScriptHost.Value) :
    ∃ effects, script.setGlobal name value
      = (⟨.ok (), effects⟩,
        { script with world := (script.world.withGlobal name value).withoutEffects }) := by
  refine ⟨(script.world.withGlobal name value).effects.reverse, ?_⟩
  unfold setGlobal perform compute
  rw [run_writeGlobal plain]

end Interpreter

end ScriptHost.Script
