import ScriptHost.Value.Tagged

/-!
# Values as trees

Values are trees of arrays and maps. What holds of every value inside another is proved from the
leaves up.

* `Value.tree_induction` : a property of leaves that arrays and maps pass on holds of all values.
* `Value.Occurs`, `Value.Throughout` : what lies inside a value, and what holds of all of it.
* `Value.taggedNesting`, `Value.payloadNesting` : how deep the written forms of a value are nested.
-/

namespace ScriptHost.Value

/-! ## Induction -/

/-- Whether a value holds no other values. -/
def isLeaf : Value → Bool
  | array _ | map _ => false
  | nil | boolean _ | integer _ | number _ | nan _ | string _ | host _ => true

/-- A property of leaves that arrays and maps pass on holds of all values. -/
theorem tree_induction {P : Value → Prop} (ofLeaf : ∀ value, isLeaf value = true → P value)
    (ofArray : ∀ items, (∀ item ∈ items, P item) → P (array items))
    (ofMap : ∀ entries : Entries Value, (∀ entry ∈ entries, P entry.2) → P (map entries)) :
    ∀ value, P value
  | .array items => ofArray items fun item _ => tree_induction ofLeaf ofArray ofMap item
  | .map entries => ofMap entries fun entry _ => tree_induction ofLeaf ofArray ofMap entry.2
  | .nil => ofLeaf _ rfl
  | .boolean _ => ofLeaf _ rfl
  | .integer _ => ofLeaf _ rfl
  | .number _ => ofLeaf _ rfl
  | .nan _ => ofLeaf _ rfl
  | .string _ => ofLeaf _ rfl
  | .host _ => ofLeaf _ rfl
termination_by value => sizeOf value
decreasing_by
  · have smaller := List.sizeOf_lt_of_mem ‹item ∈ items›
    simp only [array.sizeOf_spec]
    omega
  · have smaller := List.sizeOf_lt_of_mem ‹entry ∈ entries›
    obtain ⟨key, value⟩ := entry
    simp only [Prod.mk.sizeOf_spec] at smaller
    simp only [map.sizeOf_spec]
    omega

/-! ## What lies inside a value -/

/-- `inner` is the value itself, or lies in one of its items or entries. -/
inductive Occurs (inner : Value) : Value → Prop
  | here : Occurs inner inner
  | item {items : List Value} {item : Value} :
      item ∈ items → Occurs inner item → Occurs inner (array items)
  | entry {entries : List (String × Value)} {entry : String × Value} :
      entry ∈ entries → Occurs inner entry.2 → Occurs inner (map entries)

/-- The property holds of the value and of all that lies inside it. -/
def Throughout (property : Value → Prop) (value : Value) : Prop :=
  ∀ inner, Occurs inner value → property inner

variable {property other : Value → Prop}

theorem Throughout.self {value : Value} (h : Throughout property value) : property value :=
  h value .here

theorem throughout_leaf {value : Value} (leaf : value.isLeaf = true) :
    Throughout property value ↔ property value := by
  constructor
  · exact Throughout.self
  · intro h inner occurs
    cases occurs with
    | here => exact h
    | item => cases leaf
    | entry => cases leaf

theorem throughout_array {items : List Value} :
    Throughout property (array items)
      ↔ property (array items) ∧ ∀ item ∈ items, Throughout property item := by
  constructor
  · intro h
    exact ⟨h.self, fun item m inner occurs => h inner (.item m occurs)⟩
  · rintro ⟨self, items⟩ inner occurs
    cases occurs with
    | here => exact self
    | item m occurs => exact items _ m inner occurs

theorem throughout_map {entries : Entries Value} :
    Throughout property (map entries)
      ↔ property (map entries) ∧ ∀ entry ∈ entries, Throughout property entry.2 := by
  constructor
  · intro h
    exact ⟨h.self, fun entry m inner occurs => h inner (.entry m occurs)⟩
  · rintro ⟨self, entries⟩ inner occurs
    cases occurs with
    | here => exact self
    | entry m occurs => exact entries _ m inner occurs

theorem Throughout.imp {value : Value} (h : Throughout property value)
    (k : ∀ inner, property inner → other inner) : Throughout other value :=
  fun inner occurs => k inner (h inner occurs)

/-! ## Kinds of values -/

/-- A reference to an object of the host. -/
def IsHost : Value → Prop
  | host _ => True
  | _ => False

/-- A floating point number. -/
def IsFloat : Value → Prop
  | number _ => True
  | nan _ => True
  | _ => False

/-- A floating point number that is a NaN or an infinity. -/
def IsNonFinite : Value → Prop
  | number x => x.isFinite = false
  | nan _ => True
  | _ => False

theorem IsNonFinite.isFloat {value : Value} (h : IsNonFinite value) : IsFloat value := by
  cases value with
  | number x => trivial
  | nan negative => trivial
  | _ => exact h.elim

/-- A map has its keys in ascending order. -/
def IsSorted : Value → Prop
  | map entries => Entries.Ascending entries
  | _ => True

/-- All maps in a value have their keys in ascending order, as maps of the host always have. -/
def Ordered (value : Value) : Prop := Throughout IsSorted value

/-! ## Nesting -/

mutual

/-- How high a value is as a tree: a leaf has a height of its own, and an array or map is a step
higher than the highest of what it holds. -/
def height (leaf : Value → Nat) (step : Nat) : Value → Nat
  | array items => step + heightOfItems leaf step items
  | map entries => step + heightOfEntries leaf step entries
  | value => leaf value

/-- The height of the highest item. -/
def heightOfItems (leaf : Value → Nat) (step : Nat) : List Value → Nat
  | [] => 0
  | item :: items => max (height leaf step item) (heightOfItems leaf step items)

/-- The height of the highest entry. -/
def heightOfEntries (leaf : Value → Nat) (step : Nat) : List (String × Value) → Nat
  | [] => 0
  | (_, value) :: entries => max (height leaf step value) (heightOfEntries leaf step entries)

end

section

variable {leaf lower : Value → Nat} {step : Nat}

theorem height_leaf {value : Value} (isLeaf : value.isLeaf = true) :
    height leaf step value = leaf value := by
  cases value with
  | array items => cases isLeaf
  | map entries => cases isLeaf
  | _ => rfl

theorem heightOfItems_le_iff {items : List Value} {bound : Nat} :
    heightOfItems leaf step items ≤ bound ↔ ∀ item ∈ items, height leaf step item ≤ bound := by
  induction items with
  | nil => simp [heightOfItems]
  | cons item items ih => rw [heightOfItems, Nat.max_le, ih, List.forall_mem_cons]

theorem heightOfEntries_le_iff {entries : Entries Value} {bound : Nat} :
    heightOfEntries leaf step entries ≤ bound
      ↔ ∀ entry ∈ entries, height leaf step entry.2 ≤ bound := by
  induction entries with
  | nil => simp [heightOfEntries]
  | cons entry entries ih => rw [heightOfEntries, Nat.max_le, ih, List.forall_mem_cons]

/-- The height of an item is at most that of the highest. -/
theorem height_le_heightOfItems {items : List Value} {item : Value} (m : item ∈ items) :
    height leaf step item ≤ heightOfItems leaf step items :=
  heightOfItems_le_iff.1 (Nat.le_refl _) item m

/-- The height of an entry is at most that of the highest. -/
theorem height_le_heightOfEntries {entries : Entries Value} {entry : String × Value}
    (m : entry ∈ entries) : height leaf step entry.2 ≤ heightOfEntries leaf step entries :=
  heightOfEntries_le_iff.1 (Nat.le_refl _) entry m

/-- When no leaf is higher by more than `extra`, then no tree is. -/
theorem height_le_add {extra : Nat} {value : Value}
    (h : Throughout (fun inner => leaf inner ≤ lower inner + extra) value) :
    height leaf step value ≤ height lower step value + extra := by
  induction value using tree_induction with
  | ofLeaf value isLeaf =>
    rw [height_leaf isLeaf, height_leaf isLeaf]
    exact h.self
  | ofArray items ih =>
    have inner : heightOfItems leaf step items ≤ heightOfItems lower step items + extra :=
      heightOfItems_le_iff.2 fun item m =>
        Nat.le_trans (ih item m ((throughout_array.1 h).2 item m))
          (Nat.add_le_add_right (height_le_heightOfItems m) extra)
    rw [height, height]
    omega
  | ofMap entries ih =>
    have inner : heightOfEntries leaf step entries ≤ heightOfEntries lower step entries + extra :=
      heightOfEntries_le_iff.2 fun entry m =>
        Nat.le_trans (ih entry m ((throughout_map.1 h).2 entry m))
          (Nat.add_le_add_right (height_le_heightOfEntries m) extra)
    rw [height, height]
    omega

mutual

/-- With leaves and steps that are higher by a factor, trees are higher by that factor. -/
theorem mul_height (factor : Nat) : ∀ value,
    factor * height leaf step value
      = height (fun inner => factor * leaf inner) (factor * step) value
  | .array items => by rw [height, height, Nat.mul_add, mul_heightOfItems]
  | .map entries => by rw [height, height, Nat.mul_add, mul_heightOfEntries]
  | .nil => rfl
  | .boolean _ => rfl
  | .integer _ => rfl
  | .number _ => rfl
  | .nan _ => rfl
  | .string _ => rfl
  | .host _ => rfl

theorem mul_heightOfItems (factor : Nat) : ∀ items,
    factor * heightOfItems leaf step items
      = heightOfItems (fun inner => factor * leaf inner) (factor * step) items
  | [] => rfl
  | item :: items => by
    rw [heightOfItems, heightOfItems, ← mul_height, ← mul_heightOfItems, Nat.mul_max_mul_left]

theorem mul_heightOfEntries (factor : Nat) : ∀ entries,
    factor * heightOfEntries leaf step entries
      = heightOfEntries (fun inner => factor * leaf inner) (factor * step) entries
  | [] => rfl
  | (_, value) :: entries => by
    rw [heightOfEntries, heightOfEntries, ← mul_height, ← mul_heightOfEntries,
      Nat.mul_max_mul_left]

end

end

/-- How many arrays and maps are nested in each other. -/
def levels (value : Value) : Nat := height (fun _ => 0) 1 value

/-- How many levels a value takes when it leaves a script: nil takes none, as it is lost inside a
table, another leaf takes one, and arrays and maps take one more than what they hold. -/
def room (value : Value) : Nat := height (fun inner => if inner.isNil then 0 else 1) 1 value

theorem room_array_le_iff {items : List Value} {depth : Nat} :
    room (array items) ≤ depth + 1 ↔ ∀ item ∈ items, room item ≤ depth := by
  have step : room (array items)
      = 1 + heightOfItems (fun inner => if inner.isNil then 0 else 1) 1 items := rfl
  rw [step, Nat.add_comm, Nat.add_le_add_iff_right]
  exact heightOfItems_le_iff

theorem room_map_le_iff {entries : Entries Value} {depth : Nat} :
    room (map entries) ≤ depth + 1 ↔ ∀ entry ∈ entries, room entry.2 ≤ depth := by
  have step : room (map entries)
      = 1 + heightOfEntries (fun inner => if inner.isNil then 0 else 1) 1 entries := rfl
  rw [step, Nat.add_comm, Nat.add_le_add_iff_right]
  exact heightOfEntries_le_iff

/-- A value takes a level unless it is nil. -/
theorem room_pos {value : Value} (h : value ≠ nil) : 0 < room value := by
  cases value with
  | nil => exact absurd rfl h
  | array items =>
    show 0 < 1 + heightOfItems _ 1 items
    omega
  | map entries =>
    show 0 < 1 + heightOfEntries _ 1 entries
    omega
  | _ => exact Nat.one_pos

/-- How deep arrays and objects are nested in the tagged form of a value: the form of each value is
an object, and those of arrays and maps hold an array or object. -/
def taggedNesting (value : Value) : Nat := height (fun _ => 1) 2 value

/-- The deepest nesting in the tagged forms of some items. -/
def deepestItem (items : List Value) : Nat := heightOfItems (fun _ => 1) 2 items

/-- The deepest nesting in the tagged forms of some entries. -/
def deepestEntry (entries : Entries Value) : Nat := heightOfEntries (fun _ => 1) 2 entries

/-- How deep arrays and objects are nested in the payload of a value, which has the tagged forms of
the items or entries but no tag of its own. -/
def payloadNesting : Value → Nat
  | array items => 1 + deepestItem items
  | map entries => 1 + deepestEntry entries
  | _ => 0

theorem taggedNesting_array (items : List Value) :
    taggedNesting (array items) = 2 + deepestItem items := rfl

theorem taggedNesting_map (entries : Entries Value) :
    taggedNesting (map entries) = 2 + deepestEntry entries := rfl

theorem deepestItem_cons (item : Value) (items : List Value) :
    deepestItem (item :: items) = max (taggedNesting item) (deepestItem items) := rfl

theorem deepestEntry_cons (entry : String × Value) (entries : Entries Value) :
    deepestEntry (entry :: entries) = max (taggedNesting entry.2) (deepestEntry entries) := rfl

/-- The values of an array or map take one level behind the last array or map. -/
theorem room_le (value : Value) : room value ≤ levels value + 1 := by
  refine height_le_add fun inner _ => ?_
  show (if inner.isNil = true then 0 else 1) ≤ 0 + 1
  split <;> omega

/-- Every level of arrays and maps takes two levels in the tagged form, and a leaf takes one. -/
theorem taggedNesting_le (value : Value) : taggedNesting value ≤ 2 * levels value + 1 := by
  rw [levels, mul_height]
  exact height_le_add fun _ _ => Nat.le_refl _

theorem payloadNesting_le (value : Value) : payloadNesting value ≤ 2 * levels value := by
  have tagged := taggedNesting_le value
  cases value with
  | array items =>
    rw [taggedNesting_array] at tagged
    rw [payloadNesting]
    omega
  | map entries =>
    rw [taggedNesting_map] at tagged
    rw [payloadNesting]
    omega
  | _ => exact Nat.zero_le _

end ScriptHost.Value
