import ScriptHost.Proofs.Entries
import ScriptHost.Proofs.Snapshot.Codec

/-!
# Encoded variables in other spellings

A payload may be spelled in many ways, of which the encoder uses one. Whatever the spelling, the
value that is read has its maps in order, holds no reference, and is nested no deeper in its tagged
form than the payload that it was read from. It can therefore be encoded again, and what comes of
that is a normal form.

* `Value.Readable` : the values that tagged forms of some depth are read as.
* `Value.readable_ofTagged?` : what is read is such a value.
* `EncodedVariable.encode_of_decode` : what is decoded is encoded again, to a normal form.
-/

namespace ScriptHost

open Json

namespace Value

/-! ## What is read -/

/-- A value that can be read from a tagged form with at most `depth` levels. -/
structure Readable (depth : Nat) (value : Value) : Prop where
  ordered : Ordered value
  no_host : Throughout (fun inner => ¬IsHost inner) value
  nesting_le : taggedNesting value ≤ depth

/-- What a reader makes of a list, it makes of one of the list's items. -/
theorem exists_of_mem_mapM {α β : Type} {read : α → Option β} {sources : List α} {values : List β}
    (h : sources.mapM read = some values) {value : β} (m : value ∈ values) :
    ∃ source ∈ sources, read source = some value := by
  induction sources generalizing values with
  | nil =>
    cases h
    cases m
  | cons first sources ih =>
    rw [List.mapM_cons] at h
    obtain ⟨read_first, first_eq, h⟩ := Option.bind_eq_some_iff.1 h
    obtain ⟨rest, rest_eq, h⟩ := Option.bind_eq_some_iff.1 h
    cases h
    rcases List.mem_cons.1 m with rfl | m
    · exact ⟨first, List.mem_cons_self, first_eq⟩
    · obtain ⟨source, m, read_eq⟩ := ih rest_eq m
      exact ⟨source, List.mem_cons_of_mem first m, read_eq⟩

/-- The entries of a map are in order, and each value is read from a member. -/
theorem ascending_entries? {α : Type} {read : Document → Option α}
    {members : List (Option String × Document)} {entries : Entries α}
    (h : entries? read members = some entries) :
    Entries.Ascending entries
      ∧ ∀ entry ∈ entries, ∃ member ∈ members, read member.2 = some entry.2 := by
  obtain ⟨pairs, pairs_eq, h⟩ := Option.bind_eq_some_iff.1 h
  cases h
  refine ⟨Entries.ascending_ofList pairs, fun entry m => ?_⟩
  obtain ⟨member, inside, read_eq⟩ := exists_of_mem_mapM pairs_eq (Entries.mem_of_mem_ofList m)
  obtain ⟨key, _, read_eq⟩ := Option.bind_eq_some_iff.1 read_eq
  obtain ⟨value, value_eq, read_eq⟩ := Option.bind_eq_some_iff.1 read_eq
  cases read_eq
  exact ⟨member, inside, value_eq⟩

theorem readable_leaf {value : Value} (leaf : value.isLeaf = true) (no_host : ¬IsHost value)
    (depth : Nat) : Readable (depth + 1) value := by
  refine ⟨(throughout_leaf leaf).2 ?_, (throughout_leaf leaf).2 no_host, ?_⟩
  · cases value with
    | map entries => cases leaf
    | _ => trivial
  · rw [taggedNesting, height_leaf leaf]
    omega

/-- An array takes two levels, the object with its kind and the list of its items. -/
theorem readable_array {depth : Nat} {items : List Value}
    (h : ∀ item ∈ items, Readable depth item) : Readable (depth + 2) (array items) := by
  refine ⟨throughout_array.2 ⟨trivial, fun item m => (h item m).ordered⟩,
    throughout_array.2 ⟨id, fun item m => (h item m).no_host⟩, ?_⟩
  have deepest : deepestItem items ≤ depth :=
    heightOfItems_le_iff.2 fun item m => (h item m).nesting_le
  rw [taggedNesting_array]
  omega

theorem readable_map {depth : Nat} {entries : Entries Value} (sorted : Entries.Ascending entries)
    (h : ∀ entry ∈ entries, Readable depth entry.2) : Readable (depth + 2) (map entries) := by
  refine ⟨throughout_map.2 ⟨sorted, fun entry m => (h entry m).ordered⟩,
    throughout_map.2 ⟨id, fun entry m => (h entry m).no_host⟩, ?_⟩
  have deepest : deepestEntry entries ≤ depth :=
    heightOfEntries_le_iff.2 fun entry m => (h entry m).nesting_le
  rw [taggedNesting_map]
  omega

/-- A tagged form is read as a leaf, or as an array or map of what is read two levels below. -/
theorem ofTagged?_cases {heldBack : Bool} {depth : Nat} {document : Document} {value : Value}
    (h : ofTagged? heldBack (depth + 1) document = some value) :
    (value.isLeaf = true ∧ ¬IsHost value)
      ∨ ∃ below heldBelow, depth = below + 1
        ∧ ((∃ sources items, List.mapM (ofTagged? heldBelow below) sources = some items
              ∧ value = array items)
          ∨ ∃ members entries, entries? (ofTagged? heldBelow below) members = some entries
              ∧ value = map entries) := by
  rw [ofTagged?] at h
  obtain ⟨form, _, h⟩ := Option.bind_eq_some_iff.1 h
  -- One case for every pair of a kind and a payload of its shape.
  split at h
  · cases h
    exact .inl ⟨rfl, id⟩
  · cases h
    exact .inl ⟨rfl, id⟩
  · obtain ⟨_, _, rfl⟩ := Option.map_eq_some_iff.1 h
    exact .inl ⟨rfl, id⟩
  · obtain ⟨_, _, rfl⟩ := Option.map_eq_some_iff.1 h
    exact .inl ⟨rfl, id⟩
  · obtain ⟨_, _, rfl⟩ := Option.map_eq_some_iff.1 h
    exact .inl ⟨rfl, id⟩
  · obtain ⟨_, _, rfl⟩ := Option.map_eq_some_iff.1 h
    exact .inl ⟨rfl, id⟩
  · cases depth with
    | zero => cases h
    | succ below =>
      obtain ⟨items, read, rfl⟩ := Option.map_eq_some_iff.1 h
      exact .inr ⟨below, form.heldBack, rfl, .inl ⟨_, items, read, rfl⟩⟩
  · cases depth with
    | zero => cases h
    | succ below =>
      obtain ⟨entries, read, rfl⟩ := Option.map_eq_some_iff.1 h
      exact .inr ⟨below, form.heldBack, rfl, .inr ⟨_, entries, read, rfl⟩⟩
  · cases h

/-- Whatever the spelling of a tagged form, what is read from it is no deeper than it may be. -/
theorem readable_ofTagged? {heldBack : Bool} {depth : Nat} {document : Document} {value : Value}
    (h : ofTagged? heldBack depth document = some value) : Readable depth value := by
  induction depth using Nat.strong_induction_on generalizing heldBack document value with
  | _ depth ih =>
  cases depth with
  | zero => cases h
  | succ depth =>
    obtain ⟨leaf, no_host⟩ | ⟨below, heldBelow, rfl, arrays | maps⟩ := ofTagged?_cases h
    · exact readable_leaf leaf no_host depth
    · obtain ⟨sources, items, read, rfl⟩ := arrays
      refine readable_array fun item m => ?_
      obtain ⟨source, _, read⟩ := exists_of_mem_mapM read m
      exact ih below (by omega) read
    · obtain ⟨members, entries, read, rfl⟩ := maps
      obtain ⟨sorted, values⟩ := ascending_entries? read
      refine readable_map sorted fun entry m => ?_
      obtain ⟨member, _, read⟩ := values entry m
      exact ih below (by omega) read

/-! ## Payloads -/

/-- A list of tagged forms is one level above the items. -/
theorem readable_ofTaggedItems? {depth : Nat} {document : Document} {items : List Value}
    (h : ofTaggedItems? depth document = some items) : Readable (depth + 1) (array items) := by
  unfold ofTaggedItems? at h
  split at h
  case h_2 => cases h
  case h_1 sources =>
  cases depth with
  | zero => cases h
  | succ depth =>
    refine readable_array fun item m => ?_
    obtain ⟨source, _, read⟩ := exists_of_mem_mapM h m
    exact readable_ofTagged? read

theorem readable_ofTaggedEntries? {depth : Nat} {document : Document} {entries : Entries Value}
    (h : ofTaggedEntries? depth document = some entries) : Readable (depth + 1) (map entries) := by
  unfold ofTaggedEntries? at h
  split at h
  case h_2 => cases h
  case h_1 members =>
  cases depth with
  | zero => cases h
  | succ depth =>
    obtain ⟨sorted, values⟩ := ascending_entries? h
    refine readable_map sorted fun entry m => ?_
    obtain ⟨member, _, read⟩ := values entry m
    exact readable_ofTagged? read

/-- The payload of a value has a level less than its tagged form. -/
theorem Readable.payloadNesting_le {depth : Nat} {value : Value}
    (h : Readable (depth + 1) value) : payloadNesting value ≤ depth := by
  have nesting := h.nesting_le
  cases value with
  | array items =>
    rw [taggedNesting_array] at nesting
    rw [payloadNesting]
    omega
  | map entries =>
    rw [taggedNesting_map] at nesting
    rw [payloadNesting]
    omega
  | _ => exact Nat.zero_le depth

/-- What is read of a payload is no nil, and has the type that it was read by. -/
theorem readable_ofPayload? {typeDescriptor : String} {document : Document} {value : Value}
    (h : ofPayload? typeDescriptor document = some (some value)) :
    Readable (nestingLimit + 1) value ∧ value ≠ nil ∧ value.descriptor = typeDescriptor := by
  unfold ofPayload? at h
  split at h
  case h_7 => cases h
  all_goals
    obtain ⟨content, content_eq, rfl⟩ := Option.map_eq_some_iff.1 (Option.some.inj h)
    refine ⟨?_, nofun, rfl⟩
  · exact readable_leaf rfl id _
  · exact readable_leaf rfl id _
  · exact readable_leaf rfl id _
  · exact readable_leaf rfl id _
  · exact readable_ofTaggedItems? content_eq
  · exact readable_ofTaggedEntries? content_eq

end Value

namespace EncodedVariable

open Value

/-- What is decoded is read from the payload by the type descriptor. -/
theorem exists_document_of_decode {encoded : EncodedVariable} {value : Value}
    (decoded : encoded.decode = .ok value) :
    ∃ document, ofPayload? encoded.typeDescriptor document = some (some value) := by
  unfold decode at decoded
  split at decoded
  · cases decoded
  · split at decoded
    case h_2 => cases decoded
    case h_1 read read_eq =>
    cases decoded
    obtain ⟨document, _, join_eq⟩ := Option.bind_eq_some_iff.1 read_eq
    exact ⟨document, Option.join_eq_some_iff.1 join_eq⟩

/-- Decoding normalises: whatever the spelling of the payload, a value without floating point
numbers that is decoded is encoded again, under the same name and with the same type. This is
decoded as the same value, and is what that is encoded as. -/
theorem encode_of_decode {encoded : EncodedVariable} {value : Value}
    (decoded : encoded.decode = .ok value)
    (floatFree : Throughout (fun inner => ¬IsFloat inner) value) :
    ∃ again, encode encoded.name value = .ok again
      ∧ again.name = encoded.name ∧ again.typeDescriptor = encoded.typeDescriptor
      ∧ again.decode = .ok value
      ∧ (again.decode >>= encode again.name) = .ok again := by
  obtain ⟨document, read⟩ := exists_document_of_decode decoded
  obtain ⟨readable, notNil, descriptor⟩ := readable_ofPayload? read
  have kinds : Throughout (fun inner => ¬IsHost inner ∧ ¬IsNonFinite inner) value :=
    fun inner occurs => ⟨readable.no_host inner occurs,
      fun nonFinite => floatFree inner occurs nonFinite.isFloat⟩
  obtain ⟨again, encoding⟩ := (exists_encode_iff encoded.name value).2 ⟨notNil, kinds⟩
  obtain ⟨form, _, again_eq⟩ := encode_eq_ok encoding
  have name_eq : again.name = encoded.name := by rw [again_eq]
  have decoding := decode_encode_of_floatFree readable.ordered floatFree encoding
  rw [if_pos readable.payloadNesting_le] at decoding
  refine ⟨again, encoding, name_eq, by rw [again_eq, ← descriptor], decoding, ?_⟩
  rw [decoding, name_eq]
  exact encoding

/-- An integer whose tagged form is a list of its kind and its number, and a boolean whose kind
stands behind its value and a key that counts for nothing. -/
theorem encode_of_decode_of_spellings :
    let encoded : EncodedVariable := ⟨"state", "lua.array",
      " [[\"integer\", -1], \x7b\"value\": true, \"unit\": 5, \"type\": \"boolean\"\x7d]"⟩
    let value : Value := .array [.integer (-1), .boolean true]
    encoded.decode = .ok value ∧ value.Throughout (fun inner => ¬inner.IsFloat)
      ∧ ∃ again, encode "state" value = .ok again ∧ again.decode = .ok value
        ∧ (again.decode >>= encode again.name) = .ok again := by
  intro encoded value
  let listed : Document := .array [.string (some "integer"), .number true ⟨['1'], [], none⟩]
  let headed : Document := .object [(some "value", .boolean true),
    (some "unit", .number false ⟨['5'], [], none⟩), (some "type", .string (some "boolean"))]
  have scanned : Token.scan? encoded.payload.toList
      = some (Document.array [listed, headed]).tokens := by
    decide +kernel
  have parsed : Document.parse? encoded.payload = some (.array [listed, headed]) := by
    rw [Document.parse?, scanned]
    rfl
  have word : (Document.number true ⟨['1'], [], none⟩).word? = some (-1) := by decide +kernel
  have first : ofTagged? false (125 + 1) listed = some (.integer (-1)) := by
    rw [ofTagged?]
    show ((Document.number true ⟨['1'], [], none⟩).word?).map Value.integer = _
    rw [word]
    rfl
  have second : ofTagged? false (125 + 1) headed = some (.boolean true) := by
    rw [ofTagged?, tagged]
    rfl
  have items : [listed, headed].mapM (ofTagged? false 126)
      = some [.integer (-1), .boolean true] := by
    rw [List.mapM_cons, first, List.mapM_cons, second]
    rfl
  have read : ofPayload? "lua.array" (.array [listed, headed]) = some (some value) := by
    show some (([listed, headed].mapM (ofTagged? false 126)).map Value.array) = _
    rw [items]
    rfl
  have decoded : encoded.decode = .ok value := by
    rw [decode, parsed, Option.bind_some, read]
    rfl
  have floatFree : value.Throughout (fun inner => ¬inner.IsFloat) := by
    refine throughout_array.2 ⟨id, ?_⟩
    rw [List.forall_mem_cons, List.forall_mem_singleton]
    exact ⟨(throughout_leaf rfl).2 id, (throughout_leaf rfl).2 id⟩
  obtain ⟨again, encoding, _, _, exact, normal⟩ := encode_of_decode decoded floatFree
  exact ⟨decoded, floatFree, again, encoding, exact, normal⟩

end EncodedVariable

end ScriptHost
