import ScriptHost.Proofs.Entries
import ScriptHost.Proofs.Value.Structure
import ScriptHost.Value.Json

/-!
# Values seen as plain JSON

The plain view forgets references, and numbers that are not finite, and nothing else. The other way
round, a JSON value is found again when each of its integers fits into sixty-four bits with a sign.

* `Json.nesting_induction` : a property of scalars that arrays and objects pass on holds of all JSON
  values.
* `Json.LiesIn`, `Json.HoldsInside` : what lies inside a JSON value, and what holds of all of it.
* `Json.IsProper` : the numbers that a JSON value can hold.
* `Value.ofJson_json_iff`, `Value.json_ofJson_iff` : the values that are found again, both ways.
* `Value.plain_view_exact` : the same, for the JSON values that there are.
-/

namespace ScriptHost

/-! ## JSON values as trees -/

namespace Json

/-- Whether a JSON value holds no other values. -/
def isScalar : Json → Bool
  | array _ | object _ => false
  | null | boolean _ | integer _ | real _ | string _ => true

/-- A property of scalars that arrays and objects pass on holds of all JSON values. -/
theorem nesting_induction {P : Json → Prop} (ofScalar : ∀ value, isScalar value = true → P value)
    (ofArray : ∀ items, (∀ item ∈ items, P item) → P (array items))
    (ofObject : ∀ members : List (String × Json), (∀ member ∈ members, P member.2) →
      P (object members)) :
    ∀ value, P value
  | .array items => ofArray items fun item _ => nesting_induction ofScalar ofArray ofObject item
  | .object members =>
    ofObject members fun member _ => nesting_induction ofScalar ofArray ofObject member.2
  | .null => ofScalar _ rfl
  | .boolean _ => ofScalar _ rfl
  | .integer _ => ofScalar _ rfl
  | .real _ => ofScalar _ rfl
  | .string _ => ofScalar _ rfl
termination_by value => sizeOf value
decreasing_by
  · have smaller := List.sizeOf_lt_of_mem ‹item ∈ items›
    simp only [array.sizeOf_spec]
    omega
  · have smaller := List.sizeOf_lt_of_mem ‹member ∈ members›
    obtain ⟨key, value⟩ := member
    simp only [Prod.mk.sizeOf_spec] at smaller
    simp only [object.sizeOf_spec]
    omega

/-- `inner` is the JSON value itself, or lies in one of its items or members. -/
inductive LiesIn (inner : Json) : Json → Prop
  | here : LiesIn inner inner
  | item {items : List Json} {item : Json} :
      item ∈ items → LiesIn inner item → LiesIn inner (array items)
  | member {members : List (String × Json)} {member : String × Json} :
      member ∈ members → LiesIn inner member.2 → LiesIn inner (object members)

/-- The property holds of the JSON value and of all that lies inside it. -/
def HoldsInside (property : Json → Prop) (value : Json) : Prop :=
  ∀ inner, LiesIn inner value → property inner

variable {property : Json → Prop}

theorem HoldsInside.self {value : Json} (h : HoldsInside property value) : property value :=
  h value .here

theorem holdsInside_scalar {value : Json} (scalar : value.isScalar = true) :
    HoldsInside property value ↔ property value := by
  constructor
  · exact HoldsInside.self
  · intro h inner lies
    cases lies with
    | here => exact h
    | item => cases scalar
    | member => cases scalar

theorem holdsInside_array {items : List Json} :
    HoldsInside property (array items)
      ↔ property (array items) ∧ ∀ item ∈ items, HoldsInside property item := by
  constructor
  · intro h
    exact ⟨h.self, fun item m inner lies => h inner (.item m lies)⟩
  · rintro ⟨self, items⟩ inner lies
    cases lies with
    | here => exact self
    | item m lies => exact items _ m inner lies

theorem holdsInside_object {members : List (String × Json)} :
    HoldsInside property (object members)
      ↔ property (object members) ∧ ∀ member ∈ members, HoldsInside property member.2 := by
  constructor
  · intro h
    exact ⟨h.self, fun member m inner lies => h inner (.member m lies)⟩
  · rintro ⟨self, members⟩ inner lies
    cases lies with
    | here => exact self
    | member m lies => exact members _ m inner lies

/-! ## Numbers -/

/-- The numbers that a JSON value can hold: integers of sixty-four bits, with or without a sign, and
finite floating point numbers. -/
def IsProper : Json → Prop
  | integer value => Int64.minValue.toInt ≤ value ∧ value < Decimal.Literal.wordLimit
  | real value => value.isFinite = true
  | _ => True

/-- The numbers that a value can hold, too: integers of sixty-four bits with a sign, and finite
floating point numbers. -/
def IsShared : Json → Prop
  | integer value => Int64.minValue.toInt ≤ value ∧ value ≤ Int64.maxValue.toInt
  | real value => value.isFinite = true
  | _ => True

/-- Of the numbers that a JSON value can hold, those are shared that are no integers beyond the
greatest one of a value. -/
theorem holdsInside_isShared_iff {value : Json} (proper : HoldsInside IsProper value) :
    HoldsInside IsShared value
      ↔ ∀ number, LiesIn (integer number) value → number ≤ Int64.maxValue.toInt := by
  constructor
  · intro shared number lies
    exact (shared _ lies).2
  · intro small inner lies
    have here := proper inner lies
    cases inner with
    | integer number => exact ⟨here.1, small number lies⟩
    | real number => exact here
    | _ => trivial

end Json

/-! ## The plain view -/

namespace Value

theorem jsonItems_eq_map (items : List Value) : jsonItems items = items.map json := by
  induction items with
  | nil => rfl
  | cons item items ih => rw [jsonItems, ih, List.map_cons]

theorem jsonEntries_eq_map (entries : Entries Value) :
    jsonEntries entries = entries.map fun entry => (entry.1, entry.2.json) := by
  induction entries with
  | nil => rfl
  | cons entry entries ih => rw [jsonEntries, ih, List.map_cons]

theorem ofJsonItems_eq_map (items : List Json) : ofJsonItems items = items.map ofJson := by
  induction items with
  | nil => rfl
  | cons item items ih => rw [ofJsonItems, ih, List.map_cons]

theorem ofJsonMembers_eq_map (members : List (String × Json)) :
    ofJsonMembers members = members.map fun member => (member.1, ofJson member.2) := by
  induction members with
  | nil => rfl
  | cons member members ih => rw [ofJsonMembers, ih, List.map_cons]

/-- The integers of a value stay integers. -/
theorem ofJson_integer (value : Int64) : ofJson (.integer value.toInt) = integer value := by
  rw [ofJson, if_pos ⟨value.minValue_le_toInt, value.toInt_le⟩, Int64.ofInt_toInt]

/-- An integer is found again when a value can hold it. Beyond that it becomes a floating point
number, which is shown as one. -/
theorem json_ofJson_integer_iff (number : Int) :
    (ofJson (.integer number)).json = .integer number
      ↔ Int64.minValue.toInt ≤ number ∧ number ≤ Int64.maxValue.toInt := by
  rw [ofJson]
  split
  case isTrue fits =>
    have same : (Int64.ofInt number).toInt = number :=
      Int64.toInt_ofInt_of_le fits.1 (Int.lt_add_one_of_le fits.2)
    rw [json, same]
    exact iff_of_true rfl fits
  case isFalse beyond =>
    refine iff_of_false ?_ beyond
    rw [json]
    split <;> nofun

/-- The values that are found again from their plain view: those without references, NaNs and
infinities. -/
theorem ofJson_json_iff (value : Value) :
    ofJson value.json = value
      ↔ Throughout (fun inner => ¬IsHost inner ∧ ¬IsNonFinite inner) value := by
  induction value using tree_induction with
  | ofLeaf value leaf =>
    rw [throughout_leaf leaf]
    cases value with
    | array items => cases leaf
    | map entries => cases leaf
    | integer value => simp [json, ofJson_integer, IsHost, IsNonFinite]
    | number x => cases finite : x.isFinite <;> simp [json, ofJson, IsHost, IsNonFinite, finite]
    | _ => simp [json, ofJson, IsHost, IsNonFinite]
  | ofArray items ih =>
    have inner : ofJson (array items).json = array ((items.map json).map ofJson) := by
      rw [json, ofJson, jsonItems_eq_map, ofJsonItems_eq_map]
    rw [inner, array.injEq, List.map_map, map_eq_self_iff, throughout_array]
    simp only [IsHost, IsNonFinite, not_false_eq_true, true_and]
    exact forall₂_congr ih
  | ofMap entries ih =>
    have inner : ofJson (map entries).json
        = map (entries.map fun entry => (entry.1, ofJson entry.2.json)) := by
      rw [json, ofJson, jsonEntries_eq_map, ofJsonMembers_eq_map, List.map_map]
      rfl
    rw [inner, map.injEq, map_eq_self_iff, throughout_map]
    simp only [IsHost, IsNonFinite, not_false_eq_true, true_and, Prod.ext_iff]
    exact forall₂_congr ih

/-- The JSON values that are found again from the value they stand for: those whose numbers a value
can hold. -/
theorem json_ofJson_iff (value : Json) :
    (ofJson value).json = value ↔ Json.HoldsInside Json.IsShared value := by
  induction value using Json.nesting_induction with
  | ofScalar value scalar =>
    rw [Json.holdsInside_scalar scalar]
    cases value with
    | array items => cases scalar
    | object members => cases scalar
    | integer number => exact json_ofJson_integer_iff number
    | real x => cases finite : x.isFinite <;> simp [json, ofJson, Json.IsShared, finite]
    | _ => simp [json, ofJson, Json.IsShared]
  | ofArray items ih =>
    have inner : (ofJson (.array items)).json = .array ((items.map ofJson).map json) := by
      rw [ofJson, json, ofJsonItems_eq_map, jsonItems_eq_map]
    rw [inner, Json.array.injEq, List.map_map, map_eq_self_iff, Json.holdsInside_array]
    simp only [Json.IsShared, true_and]
    exact forall₂_congr ih
  | ofObject members ih =>
    have inner : (ofJson (.object members)).json
        = .object (members.map fun member => (member.1, (ofJson member.2).json)) := by
      rw [ofJson, json, ofJsonMembers_eq_map, jsonEntries_eq_map, List.map_map]
      rfl
    rw [inner, Json.object.injEq, map_eq_self_iff, Json.holdsInside_object]
    simp only [Json.IsShared, true_and, Prod.ext_iff]
    exact forall₂_congr ih

/-- The plain view is faithful. A value is found again from its view, with its integers and its
floating point numbers as they were, if and only if it holds no reference, no NaN and no infinity;
and a JSON value is the view of the value it stands for if and only if none of its integers is
beyond the greatest one of sixty-four bits with a sign. -/
theorem plain_view_exact (value : Value) {document : Json}
    (proper : Json.HoldsInside Json.IsProper document) :
    (ofJson value.json = value
        ↔ Throughout (fun inner => ¬IsHost inner ∧ ¬IsNonFinite inner) value)
      ∧ ((ofJson document).json = document
        ↔ ∀ number, Json.LiesIn (.integer number) document →
            number ≤ Int64.maxValue.toInt) := by
  refine ⟨ofJson_json_iff value, ?_⟩
  rw [json_ofJson_iff, Json.holdsInside_isShared_iff proper]

/-- Two and two point nought stay apart in both directions, and the greatest integer stays. -/
theorem plain_view_exact_of_pair :
    let value : Value := .map [("", .array [.integer 2, .number 2.0])]
    let document : Json := .object [("a", .integer 9223372036854775807), ("b", .real 2.0)]
    ofJson value.json = value ∧ (ofJson document).json = document := by
  intro value document
  have inside {property : Json → Prop} (whole : property document)
      (greatest : property (.integer 9223372036854775807)) (two : property (.real 2.0)) :
      Json.HoldsInside property document := by
    refine Json.holdsInside_object.2 ⟨whole, ?_⟩
    rw [List.forall_mem_cons, List.forall_mem_singleton]
    exact ⟨(Json.holdsInside_scalar rfl).2 greatest, (Json.holdsInside_scalar rfl).2 two⟩
  have finite : (2.0 : Float).isFinite = true := by decide
  have proper : Json.HoldsInside Json.IsProper document :=
    inside trivial ⟨by decide, by decide⟩ finite
  have shared : Json.HoldsInside Json.IsShared document :=
    inside trivial ⟨by decide, by decide⟩ finite
  have kinds : Throughout (fun inner => ¬IsHost inner ∧ ¬IsNonFinite inner) value := by
    refine throughout_map.2 ⟨⟨id, id⟩, ?_⟩
    rw [List.forall_mem_singleton]
    refine throughout_array.2 ⟨⟨id, id⟩, ?_⟩
    rw [List.forall_mem_cons, List.forall_mem_singleton]
    refine ⟨(throughout_leaf rfl).2 ⟨id, id⟩, (throughout_leaf rfl).2 ⟨id, ?_⟩⟩
    exact fun infinite => Bool.false_ne_true (infinite.symm.trans finite)
  obtain ⟨values, documents⟩ := plain_view_exact value proper
  exact ⟨values.2 kinds, documents.2 ((Json.holdsInside_isShared_iff proper).1 shared)⟩

end Value

end ScriptHost
