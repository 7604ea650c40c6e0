import ScriptHost.Proofs.Script.Globals
import ScriptHost.Proofs.Snapshot.Codec
import ScriptHost.Proofs.Tags.Variables

/-!
# Capturing and restoring globals

What a capture takes from an instance whose table of globals has no metatable, and what a restore
leaves in one.

* `Instance.capturedOf` : what is captured of one global, by the world of the script alone.
* `Instance.yields_capture` : a capture takes that of every marked global.
* `Instance.nodup_capture` : a capture of any instance takes no two variables of one name.
* `Instance.stored_restoreVariables` : after a restore, a global holds the value that the snapshot
  has under its name, whatever else is in the snapshot.
-/

namespace ScriptHost

/-- What a reload keeps: a reference, or a value other than nil without floating point numbers and
references in which at most 63 arrays and maps lie inside each other. -/
def Value.IsKept (value : Value) : Prop :=
  (∃ reference, value = .host reference)
    ∨ value ≠ .nil ∧ value.Throughout (fun inner => ¬inner.IsFloat ∧ ¬inner.IsHost)
      ∧ value.levels ≤ 63

namespace Instance

open Script (World)

/-! ## Plain instances -/

/-- The table of the globals has no metatable. -/
def IsPlain (inst : Instance) : Prop := inst.script.world.PlainGlobals

/-- Two states of an instance between which its globals were looked at only. -/
def Alike (inst other : Instance) : Prop := World.Alike inst.script.world other.script.world

variable {inst : Instance}

theorem Alike.isPlain {other : Instance} (h : Alike inst other) (plain : inst.IsPlain) :
    other.IsPlain := World.PlainGlobals.of_alike plain h

/-! ## Results and states -/

variable {α β : Type}

/-- From an instance, an action gives a result and leads to a state with the property. -/
def Action.Yields (action : Action α) (inst : Instance) (property : α → Instance → Prop) : Prop :=
  property (action.run inst).1 (action.run inst).2

theorem Action.Yields.mono {action : Action α} {property other : α → Instance → Prop}
    (h : action.Yields inst property) (k : ∀ a i, property a i → other a i) :
    action.Yields inst other := k _ _ h

theorem yields_pure {a : α} {property : α → Instance → Prop} (h : property a inst) :
    (pure a : Action α).Yields inst property := h

theorem yields_get {property : Instance → Instance → Prop} (h : property inst inst) :
    (get : Action Instance).Yields inst property := h

/-- Of two actions in a row, the second starts where the first ends. -/
theorem yields_bind {action : Action α} {next : α → Action β} {property : β → Instance → Prop}
    (h : action.Yields inst fun a i => (next a).Yields i property) :
    (action >>= next).Yields inst property := h

theorem yields_note {event : Event} {property : Unit → Instance → Prop}
    (h : property () { inst with journal := event :: inst.journal }) :
    (note event).Yields inst property := h

/-- Reading a global of a plain instance gives what its value is for the host. -/
theorem yields_global (plain : inst.IsPlain) (name : String) :
    (global name).Yields inst fun result after =>
      result = Script.export? inst.script.world (inst.script.world.globalNamed name)
        ∧ Alike inst after := by
  obtain ⟨after, effects, read, alike⟩ := Script.Interpreter.global_spec plain name
  show (inst.script.global name).1.result = _
    ∧ World.Alike inst.script.world (inst.script.global name).2.world
  rw [read]
  exact ⟨rfl, alike⟩

/-- Setting a global of a plain instance goes well. -/
theorem yields_setGlobal (plain : inst.IsPlain) (name : String) (value : Value) :
    (setGlobal name value).Yields inst fun result after =>
      result = .ok ()
        ∧ after.script.world = (inst.script.world.withGlobal name value).withoutEffects := by
  obtain ⟨effects, set⟩ := Script.Interpreter.setGlobal_spec plain name value
  show (inst.script.setGlobal name value).1.result = _
    ∧ (inst.script.setGlobal name value).2.world = _
  rw [set]
  exact ⟨rfl, rfl⟩

/-! ## Capture -/

/-- What is captured of a global: nothing when it is nil or cannot be read or encoded. -/
def capturedOf (world : World) (name : String) : Option CapturedVariable :=
  match Script.export? world (world.globalNamed name) with
  | .error _ => none
  | .ok .nil => none
  | .ok (.host reference) => some (.native name reference)
  | .ok value => (EncodedVariable.encode name value).toOption.map .encoded

theorem capturedOf_of_alike {other : Instance} (h : Alike inst other) (name : String) :
    capturedOf other.script.world name = capturedOf inst.script.world name := by
  unfold capturedOf
  rw [World.globalNamed_of_alike h, Script.export?_of_alike h]

/-- What is captured of a global has its name. -/
theorem name_of_capturedOf {world : World} {name : String} {captured : CapturedVariable}
    (h : capturedOf world name = some captured) : captured.name = name := by
  unfold capturedOf at h
  split at h
  · cases h
  · cases h
  · cases h
    rfl
  · next value _ _ _ =>
    cases encoding : EncodedVariable.encode name value with
    | error reason =>
      rw [encoding] at h
      cases h
    | ok encoded =>
      rw [encoding] at h
      obtain ⟨form, _, rfl⟩ := EncodedVariable.encode_eq_ok encoding
      cases h
      rfl

/-- A value that has left the script and that a reload keeps is captured as it is. -/
theorem exists_capturedOf {world : World} {name : String} {value : Value}
    (held : Script.export? world (world.globalNamed name) = .ok value) (kept : value.IsKept) :
    ∃ captured, capturedOf world name = some captured ∧ captured.value = .ok value := by
  unfold capturedOf
  rw [held]
  obtain ⟨reference, rfl⟩ | ⟨notNil, kinds, levels⟩ := kept
  · exact ⟨.native name reference, rfl, rfl⟩
  · have ordered : value.Ordered := (Script.normal_exportWithin held).1.ordered
    have floatFree : value.Throughout fun inner => ¬inner.IsFloat := kinds.imp fun _ k => k.1
    have encodable : value.Throughout fun inner => ¬inner.IsHost ∧ ¬inner.IsNonFinite :=
      kinds.imp fun _ k => ⟨k.2, fun nonFinite => k.1 nonFinite.isFloat⟩
    obtain ⟨encoded, encoding⟩ :=
      (EncodedVariable.exists_encode_iff name value).2 ⟨notNil, encodable⟩
    -- The value has at most 63 levels, and each of them takes two of the 127 that are read.
    have shallow : value.payloadNesting ≤ Json.nestingLimit :=
      Nat.le_trans value.payloadNesting_le (Nat.le_trans (Nat.mul_le_mul_left 2 levels) (by decide))
    have decoded := EncodedVariable.decode_encode_of_floatFree ordered floatFree encoding
    rw [if_pos shallow] at decoded
    refine ⟨.encoded encoded, ?_, decoded⟩
    cases value with
    | nil => exact absurd rfl notNil
    | host reference => exact absurd trivial kinds.self.2
    | _ =>
      dsimp only
      rw [encoding]
      rfl

theorem yields_captureVariable? (plain : inst.IsPlain) (name : String) :
    (captureVariable? name).Yields inst fun captured? after =>
      captured? = capturedOf inst.script.world name ∧ Alike inst after := by
  refine yields_bind (yields_get (yields_bind ((yields_global plain name).mono ?_)))
  rintro result after ⟨held, alike⟩
  unfold capturedOf
  rw [← held]
  cases result with
  | error reason => exact ⟨rfl, alike⟩
  | ok value =>
    cases value with
    | nil => exact yields_pure ⟨rfl, alike⟩
    | host reference => exact yields_pure ⟨rfl, alike⟩
    | _ =>
      dsimp only
      split
      · next encoded encoding =>
        rw [encoding]
        exact yields_pure ⟨rfl, alike⟩
      · next reason encoding =>
        rw [encoding]
        exact yields_bind (yields_note (yields_pure ⟨rfl, alike⟩))

theorem yields_captureEach (plain : inst.IsPlain) (names : List String) :
    (captureEach names).Yields inst fun snapshot after =>
      snapshot = names.filterMap (capturedOf inst.script.world) ∧ Alike inst after := by
  induction names generalizing inst with
  | nil => exact yields_pure ⟨rfl, .refl _⟩
  | cons name names ih =>
    refine yields_bind ((yields_captureVariable? plain name).mono ?_)
    rintro first? after ⟨rfl, alike⟩
    refine yields_bind ((ih (alike.isPlain plain)).mono ?_)
    rintro rest last ⟨rfl, alike_rest⟩
    refine yields_pure ⟨?_, alike.trans alike_rest⟩
    have same : capturedOf after.script.world = capturedOf inst.script.world :=
      funext fun other => capturedOf_of_alike alike other
    rw [same, List.filterMap_cons]
    cases capturedOf inst.script.world name <;> rfl

/-- A capture takes what there is of every marked global, in order. -/
theorem yields_capture (plain : inst.IsPlain) :
    capture.Yields inst fun snapshot _ =>
      snapshot = (serializedVariables inst.tags.tags).filterMap
        (capturedOf inst.script.world) := by
  refine yields_bind (yields_bind (yields_get ((yields_captureEach plain _).mono ?_)))
  rintro snapshot after ⟨rfl, _⟩
  exact yields_bind (yields_get (yields_bind (yields_note (yields_pure rfl))))

/-! ## What is captured of any instance -/

/-- The value of a global has left the script. -/
theorem yields_global_exported (inst : Instance) (name : String) :
    (global name).Yields inst fun result _ => ∀ value, result = .ok value →
      ∃ world source, Script.export? world source = .ok value := by
  intro value h
  change (inst.script.global name).1.result = .ok value at h
  unfold Script.Interpreter.global Script.Interpreter.perform at h
  split at h
  · next source after _ _ => exact ⟨after.world, source, h⟩
  · cases h

/-- What is captured under a name is a reference, or the encoded form of a value that has left the
script, whatever the script does when the global is read. -/
theorem yields_captured (inst : Instance) (name : String) :
    (captureVariable? name).Yields inst fun captured? _ => ∀ captured ∈ captured?,
      (∃ reference, captured = .native name reference)
        ∨ ∃ world source value encoded, Script.export? world source = .ok value
          ∧ EncodedVariable.encode name value = .ok encoded ∧ captured = .encoded encoded := by
  refine yields_bind (yields_get (yields_bind ((yields_global_exported inst name).mono ?_)))
  intro result after left
  split
  · refine yields_bind (yields_note (yields_pure ?_))
    intro captured member
    cases member
  · refine yields_pure ?_
    intro captured member
    cases member
  · refine yields_pure ?_
    intro captured member
    cases member
    exact .inl ⟨_, rfl⟩
  · next value _ _ =>
    split
    · next encoded encoding =>
      refine yields_pure ?_
      intro captured member
      cases member
      obtain ⟨world, source, left⟩ := left value rfl
      exact .inr ⟨world, source, value, encoded, left, encoding, rfl⟩
    · refine yields_bind (yields_note (yields_pure ?_))
      intro captured member
      cases member

theorem name_of_captureVariable? (inst : Instance) (name : String) :
    (captureVariable? name).Yields inst fun captured? _ =>
      ∀ captured ∈ captured?, captured.name = name := by
  refine (yields_captured inst name).mono ?_
  intro captured? after cases_of captured member
  rcases cases_of captured member with ⟨reference, rfl⟩ | ⟨_, _, value, encoded, _, encoding, rfl⟩
  · rfl
  · obtain ⟨form, _, parts⟩ := EncodedVariable.encode_eq_ok encoding
    show encoded.name = name
    rw [parts]

/-- The variables that are captured have the names of the globals, in the same order, less those of
which nothing is captured. -/
theorem names_of_captureEach (inst : Instance) (names : List String) :
    (captureEach names).Yields inst fun snapshot _ =>
      (snapshot.map CapturedVariable.name).Sublist names := by
  induction names generalizing inst with
  | nil => exact yields_pure (List.Sublist.refl [])
  | cons name names ih =>
    refine yields_bind ((name_of_captureVariable? inst name).mono ?_)
    intro first? after first
    refine yields_bind ((ih after).mono ?_)
    intro rest last others
    refine yields_pure ?_
    cases first? with
    | none => exact others.cons name
    | some captured =>
      have named : captured.name = name := first captured rfl
      rw [Option.toList_some, List.singleton_append, List.map_cons, named]
      exact others.cons_cons name

/-- A capture takes no two variables of one name, whatever the script does when its globals are
read. -/
theorem nodup_capture (inst : Instance) :
    ((capture.run inst).1.map CapturedVariable.name).Nodup := by
  have names : capture.Yields inst fun snapshot _ =>
      (snapshot.map CapturedVariable.name).Sublist (serializedVariables inst.tags.tags) := by
    refine yields_bind (yields_bind (yields_get ((names_of_captureEach inst _).mono ?_)))
    intro snapshot after sublist
    exact yields_bind (yields_get (yields_bind (yields_note (yields_pure sublist))))
  exact (firstMentions_serializedVariables _).nodup.sublist names

/-! ## Restore -/

/-- A world after a captured variable is set in it; one that cannot be decoded changes nothing. -/
def restoredInto (world : World) (captured : CapturedVariable) : World :=
  match captured.value with
  | .error _ => world
  | .ok value => (world.withGlobal captured.name value).withoutEffects

theorem plainGlobals_restoredInto {world : World} (plain : world.PlainGlobals)
    (captured : CapturedVariable) : (restoredInto world captured).PlainGlobals := by
  unfold restoredInto
  split
  · exact plain
  · exact plain.withGlobal captured.name _

/-- A global that is stored stays stored when a variable of another name is set, or when its own
value is. -/
theorem stored_restoredInto {world : World} {name : String} {value : Value}
    {captured : CapturedVariable} (agree : captured.name = name → captured.value = .ok value)
    (stored : world.Stored name value ∨ captured.name = name) :
    (restoredInto world captured).Stored name value := by
  unfold restoredInto
  by_cases same : captured.name = name
  · rw [agree same, ← same]
    exact (World.stored_withGlobal world captured.name value).withoutEffects
  · have kept : world.Stored name value := stored.resolve_right same
    split
    · exact kept
    · exact (kept.withGlobal same).withoutEffects

theorem yields_restoreVariable (plain : inst.IsPlain) (captured : CapturedVariable) :
    (restoreVariable captured).Yields inst fun _ after =>
      after.script.world = restoredInto inst.script.world captured := by
  refine yields_bind (yields_get ?_)
  unfold restoredInto
  cases captured.value with
  | error reason => exact yields_bind (yields_note (yields_pure rfl))
  | ok value =>
    refine yields_bind ((yields_setGlobal plain captured.name value).mono ?_)
    rintro _ after ⟨rfl, world⟩
    exact yields_pure world

/-- After a restore, a global holds the value that the snapshot has under its name, whatever else
is in the snapshot. -/
theorem stored_restoreVariables {snapshot : Snapshot} {name : String} {value : Value}
    (plain : inst.IsPlain)
    (agree : ∀ captured ∈ snapshot, captured.name = name → captured.value = .ok value)
    (stored : inst.script.world.Stored name value
      ∨ ∃ captured ∈ snapshot, captured.name = name) :
    (restoreVariables snapshot).Yields inst fun _ after =>
      after.IsPlain ∧ after.script.world.Stored name value := by
  induction snapshot generalizing inst with
  | nil =>
    refine yields_pure ⟨plain, stored.resolve_right ?_⟩
    rintro ⟨captured, member, _⟩
    cases member
  | cons captured rest ih =>
    refine yields_bind ((yields_restoreVariable plain captured).mono ?_)
    intro _ after world
    have plain_after : after.IsPlain := by
      unfold IsPlain
      rw [world]
      exact plainGlobals_restoredInto plain captured
    have agree_first := agree captured List.mem_cons_self
    have agree_rest : ∀ other ∈ rest, other.name = name → other.value = .ok value :=
      fun other member => agree other (List.mem_cons_of_mem _ member)
    -- The variables behind may set the global again, but only to the same value.
    have stored_after : after.script.world.Stored name value
        ∨ ∃ other ∈ rest, other.name = name := by
      rw [world]
      obtain kept | ⟨other, member, same⟩ := stored
      · exact .inl (stored_restoredInto agree_first (.inl kept))
      · obtain rfl | later := List.mem_cons.1 member
        · exact .inl (stored_restoredInto agree_first (.inr same))
        · exact .inr ⟨other, later, same⟩
    refine yields_bind ((ih plain_after agree_rest stored_after).mono ?_)
    intro _ last kept
    exact yields_pure kept

/-- What a capture of some globals holds under a name is the value of that global. -/
theorem stored_restoreVariables_captured {world : World} {names : List String} {name : String}
    {value : Value} (plain : inst.IsPlain) (marked : name ∈ names)
    (held : Script.export? world (world.globalNamed name) = .ok value) (kept : value.IsKept) :
    (restoreVariables (names.filterMap (capturedOf world))).Yields inst fun _ after =>
      after.IsPlain ∧ after.script.world.Stored name value := by
  obtain ⟨captured, taken, decoded⟩ := exists_capturedOf held kept
  refine stored_restoreVariables plain ?_ (.inr ⟨captured, ?_, name_of_capturedOf taken⟩)
  · intro other member same
    obtain ⟨origin, _, taken_other⟩ := List.mem_filterMap.1 member
    -- A variable is captured under its own name, so all that have this name are captured alike.
    have names_eq : origin = name := (name_of_capturedOf taken_other).symm.trans same
    rw [names_eq, taken] at taken_other
    cases taken_other
    exact decoded
  · exact List.mem_filterMap.2 ⟨name, marked, taken⟩

/-- A stored value that a reload keeps is read as it was. -/
theorem yields_global_of_stored (plain : inst.IsPlain) {name : String} {value : Value}
    (stored : inst.script.world.Stored name value) (normal : value.Normal)
    (kept : value.IsKept) :
    (global name).Yields inst fun result _ => result = .ok value := by
  refine (yields_global plain name).mono ?_
  rintro result _ ⟨rfl, _⟩
  have dense : value.Throughout Value.IsDense := normal.imp fun _ k => k.isDense
  obtain ⟨reference, rfl⟩ | ⟨_, kinds, levels⟩ := kept
  · exact stored.export? dense normal.ordered (Nat.succ_le_succ (Nat.zero_le _))
  · have fits : value.room ≤ Script.nestingLimit + 1 :=
      Nat.le_trans value.room_le (Nat.succ_le_succ (Nat.le_trans levels (by decide)))
    rw [stored.export? dense normal.ordered fits,
      Value.norm_of_normal normal (kinds.imp fun _ k => k.1)]

end Instance

end ScriptHost
