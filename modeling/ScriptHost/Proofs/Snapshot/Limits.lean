import ScriptHost.Proofs.Instance.Capture
import ScriptHost.Proofs.Json.Numbers

/-!
# Captured values that are lost

A value may leave a script with up to 64 levels of tables around its parts, but its payload takes
two levels of JSON for each of them, and no more than 127 are read. The values that take all levels
are therefore captured, and then lost.

* `Value.payloadNesting_le_iff` : which values have a payload that is nested too deeply.
* `EncodedVariable.decode_of_export?` : which encoded values that have left a script are decoded.
* `Instance.decode_of_capture_exact` : which captured variables can be restored.
-/

namespace ScriptHost

namespace Value

/-! ## Nesting of payloads -/

/-- There is no nil inside a normal value that is not nil itself. -/
theorem Normal.throughout_ne_nil {value : Value} (normal : Normal value) (notNil : value ≠ nil) :
    Throughout (fun inner => inner ≠ nil) value := by
  induction value using tree_induction with
  | ofLeaf value leaf => exact (throughout_leaf leaf).2 notNil
  | ofArray items ih =>
    obtain ⟨⟨_, proper, _⟩, inner⟩ := throughout_array.1 normal
    refine throughout_array.2 ⟨notNil, fun item m => ih item m (inner item m) ?_⟩
    rintro rfl
    exact proper m
  | ofMap entries ih =>
    obtain ⟨⟨_, proper⟩, inner⟩ := throughout_map.1 normal
    exact throughout_map.2
      ⟨notNil, fun entry m => ih entry m (inner entry m) (proper entry m)⟩

/-- Every level that a value takes when it leaves a script is two levels of its tagged form, and
the last of them may be one. -/
theorem taggedNesting_bounds {value : Value} (normal : Normal value) (notNil : value ≠ nil) :
    taggedNesting value ≤ 2 * room value ∧ 2 * room value ≤ taggedNesting value + 1 := by
  unfold room
  rw [mul_height]
  constructor
  -- Arrays and maps count twice on both sides, so only the leaves can differ.
  · rw [← Nat.add_zero (height _ _ value)]
    refine height_le_add ((normal.throughout_ne_nil notNil).imp fun inner h => ?_)
    have proper : ¬inner.isNil = true := fun isNil => h (isNil_iff.1 isNil)
    rw [if_neg proper]
    decide
  · refine height_le_add fun inner _ => ?_
    dsimp only
    split <;> omega

/-- The payload of a value that has left a script can be read unless the value takes all levels. -/
theorem payloadNesting_le_iff {value : Value} (normal : Normal value) (notNil : value ≠ nil) :
    payloadNesting value ≤ Json.nestingLimit ↔ room value ≤ Script.nestingLimit := by
  obtain ⟨upper, lower⟩ := taggedNesting_bounds normal notNil
  have levels : Json.nestingLimit = 127 := rfl
  have tables : Script.nestingLimit = 64 := rfl
  cases value with
  | nil => exact absurd rfl notNil
  | array items =>
    rw [taggedNesting_array] at upper lower
    rw [payloadNesting]
    omega
  | map entries =>
    rw [taggedNesting_map] at upper lower
    rw [payloadNesting]
    omega
  | _ => exact iff_of_true (Nat.zero_le _) (show 1 ≤ 64 by decide)

/-! ## Reading numbers -/

theorem isSome_rereadItems? {items : List Value}
    (h : ∀ item ∈ items, (reread? item).isSome = true) : (rereadItems? items).isSome = true := by
  induction items with
  | nil => rfl
  | cons item items ih =>
    obtain ⟨first, first_eq⟩ := Option.isSome_iff_exists.1 (h item List.mem_cons_self)
    have rest := ih fun other m => h other (List.mem_cons_of_mem item m)
    rw [rereadItems?, first_eq, Option.bind_some, Option.isSome_map]
    exact rest

theorem isSome_rereadEntries? {entries : Entries Value}
    (h : ∀ entry ∈ entries, (reread? entry.2).isSome = true) :
    (rereadEntries? entries).isSome = true := by
  induction entries with
  | nil => rfl
  | cons entry entries ih =>
    obtain ⟨first, first_eq⟩ := Option.isSome_iff_exists.1 (h entry List.mem_cons_self)
    have rest := ih fun other m => h other (List.mem_cons_of_mem entry m)
    rw [rereadEntries?, first_eq, Option.bind_some, Option.isSome_map]
    exact rest

/-- What is written of a value without references, NaNs and infinities can be read. -/
theorem isSome_reread? {value : Value}
    (kinds : Throughout (fun inner => ¬IsHost inner ∧ ¬IsNonFinite inner) value) :
    (reread? value).isSome = true := by
  induction value using tree_induction with
  | ofLeaf value leaf =>
    cases value with
    | array items => cases leaf
    | map entries => cases leaf
    | number x =>
      rw [reread?, Option.isSome_map]
      exact Json.isSome_real?_numberDocument (by simpa [IsNonFinite] using kinds.self.2)
    | nan negative => exact absurd trivial kinds.self.2
    | host reference => exact absurd trivial kinds.self.1
    | _ => rfl
  | ofArray items ih =>
    rw [reread?, Option.isSome_map]
    exact isSome_rereadItems? fun item m => ih item m ((throughout_array.1 kinds).2 item m)
  | ofMap entries ih =>
    rw [reread?, Option.isSome_map]
    exact isSome_rereadEntries? fun entry m => ih entry m ((throughout_map.1 kinds).2 entry m)

end Value

/-! ## Decoding -/

namespace EncodedVariable

/-- A value that has left a script and was encoded is decoded unless it takes all levels that a
value may have. Otherwise decoding fails. -/
theorem decode_of_export? {world : Script.World} {source : Script.Value} {name : String}
    {value : Value} {encoded : EncodedVariable} (left : Script.export? world source = .ok value)
    (encoding : encode name value = .ok encoded) :
    if value.room ≤ Script.nestingLimit then ∃ read, encoded.decode = .ok read
    else encoded.decode = .error (.notDecoded name) := by
  obtain ⟨notNil, kinds⟩ := (exists_encode_iff name value).1 ⟨encoded, encoding⟩
  have normal : value.Normal := (Script.normal_exportWithin left).1
  obtain ⟨read, read_eq⟩ := Option.isSome_iff_exists.1 (Value.isSome_reread? kinds)
  have decoded := decode_encode normal.ordered encoding
  rw [read_eq] at decoded
  have limit := Value.payloadNesting_le_iff normal notNil
  split
  · next fits =>
    rw [if_pos (limit.2 fits)] at decoded
    exact ⟨read, decoded⟩
  · next deep =>
    rw [if_neg (fun h => deep (limit.1 h))] at decoded
    exact decoded

end EncodedVariable

/-! ## Captured variables -/

namespace Instance

open Script (World)

/-- What is captured as text is the encoded form of a value that has left a script under the name of
the variable. -/
def IsEncoded (captured : CapturedVariable) : Prop :=
  ∀ entry, captured = .encoded entry → ∃ world source value,
    Script.export? world source = .ok value ∧ EncodedVariable.encode entry.name value = .ok entry

theorem isEncoded_captureVariable? (inst : Instance) (name : String) :
    (captureVariable? name).Yields inst fun captured? _ =>
      ∀ captured ∈ captured?, IsEncoded captured := by
  refine (yields_captured inst name).mono ?_
  intro captured? after cases_of captured member entry same
  rcases cases_of captured member with
    ⟨reference, rfl⟩ | ⟨world, source, value, encoded, left, encoding, rfl⟩
  · cases same
  · cases same
    obtain ⟨form, _, parts⟩ := EncodedVariable.encode_eq_ok encoding
    have named : entry.name = name := by rw [parts]
    exact ⟨world, source, value, left, named ▸ encoding⟩

theorem isEncoded_captureEach (inst : Instance) (names : List String) :
    (captureEach names).Yields inst fun snapshot _ =>
      ∀ captured ∈ snapshot, IsEncoded captured := by
  induction names generalizing inst with
  | nil =>
    refine yields_pure ?_
    intro captured m
    cases m
  | cons name names ih =>
    refine yields_bind ((isEncoded_captureVariable? inst name).mono ?_)
    intro first? after first
    refine yields_bind ((ih after).mono ?_)
    intro rest last others
    refine yields_pure ?_
    intro captured m
    obtain m | m := List.mem_append.1 m
    · exact first captured (Option.mem_toList.1 m)
    · exact others captured m

theorem isEncoded_of_captured {inst : Instance} {captured : CapturedVariable}
    (member : captured ∈ (captureVariables.run inst).1) : IsEncoded captured := by
  have each : captureVariables.Yields inst fun snapshot _ =>
      ∀ captured ∈ snapshot, IsEncoded captured :=
    yields_bind (yields_get (isEncoded_captureEach inst (serializedVariables inst.tags.tags)))
  exact each captured member

/-- A captured variable that cannot be decoded is dropped. -/
theorem yields_restoreVariable_of_error {captured : CapturedVariable} {reason : Error}
    (undecoded : captured.value = .error reason) (inst : Instance) :
    (restoreVariable captured).Yields inst fun restored _ => restored = false := by
  refine yields_bind (yields_get ?_)
  rw [undecoded]
  exact yields_bind (yields_note (yields_pure rfl))

/-- Not all that is captured can be restored: a value that has left a script and was encoded is
decoded exactly if it takes 64 levels at most, which leaves out the values with 64 tables around one
of their parts. Every variable that a capture encodes is of this kind, so those with such a value
are dropped by every restore. -/
theorem decode_of_capture_exact (entry : EncodedVariable) :
    (∀ (world : World) (source : Script.Value) (name : String) (value : Value),
      Script.export? world source = .ok value → EncodedVariable.encode name value = .ok entry →
        if value.room ≤ 64 then ∃ read, entry.decode = .ok read
        else entry.decode = .error (.notDecoded name))
    ∧ ∀ inst : Instance, .encoded entry ∈ (captureVariables.run inst).1 →
      ∃ world source value, Script.export? world source = .ok value
        ∧ EncodedVariable.encode entry.name value = .ok entry
        ∧ if value.room ≤ 64 then ∃ read, entry.decode = .ok read
          else ∀ later, ((restoreVariable (.encoded entry)).run later).1 = false := by
  constructor
  · intro world source name value left encoding
    exact EncodedVariable.decode_of_export? left encoding
  · intro inst member
    obtain ⟨world, source, value, left, encoding⟩ := isEncoded_of_captured member entry rfl
    refine ⟨world, source, value, left, encoding, ?_⟩
    have decoded := EncodedVariable.decode_of_export? left encoding
    split
    · next fits => exact (if_pos fits).mp decoded
    · next deep =>
      exact yields_restoreVariable_of_error ((if_neg deep).mp decoded)

end Instance

/-! ## A value that is lost -/

namespace Value

/-- An integer in so many arrays. -/
def nested : Nat → Value
  | 0 => .integer 1
  | count + 1 => .array [nested count]

theorem throughout_nested {property : Value → Prop} (leaf : property (.integer 1))
    (array : ∀ count, property (.array [nested count])) (count : Nat) :
    Throughout property (nested count) := by
  induction count with
  | zero => exact (throughout_leaf rfl).2 leaf
  | succ count ih =>
    refine throughout_array.2 ⟨array count, ?_⟩
    intro item m
    rw [List.mem_singleton.1 m]
    exact ih

theorem room_nested (count : Nat) : room (nested count) = count + 1 := by
  induction count with
  | zero => rfl
  | succ count ih =>
    show 1 + max (room (nested count)) 0 = count + 1 + 1
    omega

theorem nested_ne_nil (count : Nat) : nested count ≠ nil := by
  cases count <;> simp [nested]

theorem normal_nested (count : Nat) : Normal (nested count) := by
  refine throughout_nested trivial (fun inner => ?_) count
  refine ⟨List.cons_ne_nil _ _, ?_, show 1 < Nat.pow 2 63 by decide⟩
  intro m
  exact nested_ne_nil inner (List.mem_singleton.1 m).symm

end Value

namespace Instance

open Script (World)

/-- An integer in 64 arrays leaves a script and is encoded, but it is not decoded. -/
theorem not_decoded_of_nested :
    ∃ world source encoded, Script.export? world source = .ok (Value.nested 64)
      ∧ EncodedVariable.encode "t" (Value.nested 64) = .ok encoded
      ∧ encoded.decode = .error (.notDecoded "t") := by
  have normal := Value.normal_nested 64
  have notNil := Value.nested_ne_nil 64
  have kinds : (Value.nested 64).Throughout fun inner => ¬inner.IsHost ∧ ¬inner.IsNonFinite :=
    Value.throughout_nested ⟨id, id⟩ (fun _ => ⟨id, id⟩) 64
  have floatFree : (Value.nested 64).Throughout fun inner => ¬inner.IsFloat :=
    Value.throughout_nested id (fun _ => id) 64
  have room : (Value.nested 64).room = 65 := Value.room_nested 64
  -- From here on nothing unfolds the value.
  generalize Value.nested 64 = value at normal notNil kinds floatFree room ⊢
  have dense : value.Throughout Value.IsDense := normal.imp fun _ k => k.isDense
  obtain ⟨image, _⟩ := Script.image_importValue value World.initial
  have left := Script.exportWithin_image dense normal.ordered (Nat.succ_pos Script.nestingLimit)
    (Nat.le_of_eq room) image
  rw [Value.norm_of_normal normal floatFree] at left
  obtain ⟨encoded, encoding⟩ :=
    (EncodedVariable.exists_encode_iff "t" value).2 ⟨notNil, kinds⟩
  have lost := (decode_of_capture_exact encoded).1 _ _ _ _ left encoding
  rw [room, if_neg (by decide)] at lost
  exact ⟨_, _, encoded, left, encoding, lost⟩

end Instance

end ScriptHost
