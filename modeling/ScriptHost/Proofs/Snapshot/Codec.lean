import ScriptHost.Proofs.Value.Tagged
import ScriptHost.Snapshot

/-!
# Encoded variables are read back

* `EncodedVariable.exists_encode_iff` : the values that have an encoded form.
* `EncodedVariable.decode_encode` : what an encoded value is decoded as.
* `EncodedVariable.decode_encode_of_floatFree` : values without floating point numbers are decoded
  as they were, up to a depth.
-/

namespace ScriptHost

open Json

namespace Value

/-! ## Encoding -/

theorem allFiniteItems_eq_all (items : List Value) :
    allFiniteItems items = items.all allFinite := by
  induction items with
  | nil => rfl
  | cons item items ih => rw [allFiniteItems, ih, List.all_cons]

theorem allFiniteEntries_eq_all (entries : Entries Value) :
    allFiniteEntries entries = entries.all fun entry => allFinite entry.2 := by
  induction entries with
  | nil => rfl
  | cons entry entries ih => rw [allFiniteEntries, ih, List.all_cons]

/-- Every number is finite when neither a NaN nor an infinity lies inside the value. -/
theorem allFinite_iff (value : Value) :
    value.allFinite = true ↔ Throughout (fun inner => ¬IsNonFinite inner) value := by
  induction value using tree_induction with
  | ofLeaf value leaf =>
    rw [throughout_leaf leaf]
    cases value with
    | array items => cases leaf
    | map entries => cases leaf
    | _ => simp [allFinite, IsNonFinite]
  | ofArray items ih =>
    rw [throughout_array, allFinite, allFiniteItems_eq_all, List.all_eq_true]
    simp only [IsNonFinite, not_false_eq_true, true_and]
    exact forall₂_congr ih
  | ofMap entries ih =>
    rw [throughout_map, allFinite, allFiniteEntries_eq_all, List.all_eq_true]
    simp only [IsNonFinite, not_false_eq_true, true_and]
    exact forall₂_congr ih

/-- A value has a payload when it is not nil and there is no reference inside it. -/
theorem exists_payload_iff (value : Value) :
    (∃ form, value.payload = .ok form)
      ↔ value ≠ nil ∧ Throughout (fun inner => ¬IsHost inner) value := by
  rw [← isSome_tagged?_iff]
  cases value with
  | array items =>
    rw [payload, tagged?]
    cases taggedItems? items <;> simp
  | map entries =>
    rw [payload, tagged?]
    cases taggedEntries? entries <;> simp
  | _ => simp [payload, tagged?]

/-! ## Decoding -/

/-- The payload of a value is read as that, if it is not nested too deeply. -/
theorem ofPayload?_payload {value : Value} (ordered : Ordered value) {form : Json}
    (form_eq : value.payload = .ok form) :
    ofPayload? value.descriptor form.document
      = some (if payloadNesting value ≤ nestingLimit then reread? value else none) := by
  cases value with
  | array items =>
    rw [payload] at form_eq
    split at form_eq
    · next forms forms_eq =>
      cases form_eq
      exact congrArg some (ofTaggedItems?_tagged ordered forms_eq nestingLimit)
    · cases form_eq
  | map entries =>
    rw [payload] at form_eq
    split at form_eq
    · next forms forms_eq =>
      cases form_eq
      exact congrArg some (ofTaggedEntries?_tagged ordered forms_eq nestingLimit)
    · cases form_eq
  | integer value =>
    cases form_eq
    show some (((integerDocument value.toInt).word?).map integer) = _
    rw [word?_integerDocument]
    rfl
  | nil => cases form_eq
  | host reference => cases form_eq
  | _ =>
    cases form_eq
    rfl

/-- The descriptor of a value with a payload is known. -/
theorem isDescriptor_descriptor {value : Value} {form : Json} (form_eq : value.payload = .ok form) :
    isDescriptor value.descriptor = true := by
  cases value with
  | nil => cases form_eq
  | host reference => cases form_eq
  | _ => rfl

end Value

namespace EncodedVariable

open Value

/-- The values that have an encoded form: not nil, without references, NaNs and infinities. -/
theorem exists_encode_iff (name : String) (value : Value) :
    (∃ encoded, encode name value = .ok encoded)
      ↔ value ≠ .nil ∧ Throughout (fun inner => ¬IsHost inner ∧ ¬IsNonFinite inner) value := by
  have both : Throughout (fun inner => ¬IsHost inner ∧ ¬IsNonFinite inner) value
      ↔ Throughout (fun inner => ¬IsHost inner) value
        ∧ Throughout (fun inner => ¬IsNonFinite inner) value :=
    ⟨fun h => ⟨h.imp fun _ k => k.1, h.imp fun _ k => k.2⟩,
      fun h inner occurs => ⟨h.1 inner occurs, h.2 inner occurs⟩⟩
  rw [both, ← and_assoc, ← exists_payload_iff, ← allFinite_iff]
  unfold encode
  cases value.allFinite with
  | false => simp
  | true => cases value.payload <;> simp

/-- The parts of the encoded form of a value. -/
theorem encode_eq_ok {name : String} {value : Value} {encoded : EncodedVariable}
    (h : encode name value = .ok encoded) :
    ∃ form, value.payload = .ok form ∧ encoded = ⟨name, value.descriptor, form.compact⟩ := by
  unfold encode at h
  split at h
  · cases h
  · split at h
    · next form form_eq =>
      cases h
      exact ⟨form, form_eq, rfl⟩
    · cases h

/-- What an encoded value is decoded as: its written form, if that is not nested too deeply and all
numbers in it can be read. -/
theorem decode_encode {name : String} {value : Value} (ordered : Ordered value)
    {encoded : EncodedVariable} (h : encode name value = .ok encoded) :
    encoded.decode
      = match if payloadNesting value ≤ nestingLimit then reread? value else none with
        | some read => .ok read
        | none => .error (.notDecoded name) := by
  obtain ⟨form, form_eq, rfl⟩ := encode_eq_ok h
  have known : isDescriptor value.descriptor = true := isDescriptor_descriptor form_eq
  unfold decode
  dsimp only
  rw [known, parse?_compact]
  simp only [Option.bind_some, ofPayload?_payload ordered form_eq]
  rfl

/-- A value without floating point numbers is decoded as it was, if it is not nested too deeply. -/
theorem decode_encode_of_floatFree {name : String} {value : Value} (ordered : Ordered value)
    (floatFree : Throughout (fun inner => ¬IsFloat inner) value) {encoded : EncodedVariable}
    (h : encode name value = .ok encoded) :
    encoded.decode
      = if payloadNesting value ≤ nestingLimit then .ok value else .error (.notDecoded name) := by
  have possible := (exists_encode_iff name value).1 ⟨encoded, h⟩
  rw [decode_encode ordered h, reread?_of_floatFree floatFree (possible.2.imp fun _ k => k.1)]
  by_cases fits : payloadNesting value ≤ nestingLimit
  · rw [if_pos fits, if_pos fits]
  · rw [if_neg fits, if_neg fits]

/-- The codec is exact: the values with an encoded form are those that are not nil or a reference
and hold no reference, NaN or infinity, and one without floating point numbers is decoded as it was
as long as its payload has at most 127 levels of arrays and objects. The maps of a value that a host
can hold are always ordered by key. -/
theorem exact_codec (name : String) (value : Value) :
    ((∃ encoded, encode name value = .ok encoded)
      ↔ value ≠ .nil ∧ (∀ reference, value ≠ .host reference)
        ∧ Throughout (fun inner => ¬IsHost inner ∧ ¬IsNonFinite inner) value)
    ∧ (Ordered value → Throughout (fun inner => ¬IsFloat inner) value →
      ∀ encoded, encode name value = .ok encoded →
        encoded.decode
          = if payloadNesting value ≤ 127 then .ok value else .error (.notDecoded name)) := by
  constructor
  · rw [exists_encode_iff]
    constructor
    · rintro ⟨notNil, inside⟩
      refine ⟨notNil, ?_, inside⟩
      rintro reference rfl
      exact inside.self.1 trivial
    · rintro ⟨notNil, _, inside⟩
      exact ⟨notNil, inside⟩
  · intro ordered floatFree encoded h
    exact decode_encode_of_floatFree ordered floatFree h

/-- A map of a negative integer and a nil is decoded as it was. -/
theorem exact_codec_of_map :
    let value : Value := .map [("count", .integer (-1)), ("target", .nil)]
    ∃ encoded, encode "state" value = .ok encoded ∧ encoded.decode = .ok value := by
  intro value
  have inside {property : Value → Prop} (whole : property value)
      (count : property (.integer (-1))) (target : property .nil) :
      Throughout property value := by
    refine throughout_map.2 ⟨whole, ?_⟩
    rw [List.forall_mem_cons, List.forall_mem_singleton]
    exact ⟨(throughout_leaf rfl).2 count, (throughout_leaf rfl).2 target⟩
  have ascending : Entries.Ascending [("count", Value.integer (-1)), ("target", Value.nil)] :=
    .cons (List.forall_mem_singleton.2 (by decide)) (List.pairwise_singleton _ _)
  have kinds : Throughout (fun inner => ¬IsHost inner ∧ ¬IsNonFinite inner) value :=
    inside ⟨id, id⟩ ⟨id, id⟩ ⟨id, id⟩
  obtain ⟨possible, exact⟩ := exact_codec "state" value
  obtain ⟨encoded, h⟩ := possible.2 ⟨nofun, nofun, kinds⟩
  exact ⟨encoded, h, exact (inside ascending trivial trivial) (inside id id id) encoded h⟩

end EncodedVariable

end ScriptHost
