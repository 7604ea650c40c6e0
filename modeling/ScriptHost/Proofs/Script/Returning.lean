import ScriptHost.Proofs.Script.Paths
import ScriptHost.Proofs.Value.Placement

/-!
# Values that come back

Which values of the host that have entered a script leave it again.

* `exists_exportWithin_of_item`, `exists_exportWithin_of_pair` : what comes back comes back with all
  that is in it.
* `holeFree_of_exportWithin` : a table with a hole between its values does not leave.
* `exportWithin_image_eq_ok_iff` : the values that come back are those without holes that are not
  nested too deeply, and they come back as their normal forms.
-/

namespace ScriptHost.Script

open Table

variable {world : World} {low depth : Nat}

/-! ## Images one by one -/

/-- Items have images when each of them has one. -/
theorem itemImages_iff {items : List ScriptHost.Value} {values : List Value} :
    ItemImages world low items values ↔ List.Forall₂ (Image world low) items values := by
  induction items generalizing values with
  | nil =>
    rw [List.forall₂_nil_left_iff]
    exact Iff.rfl
  | cons item items ih =>
    rw [List.forall₂_cons_left_iff]
    constructor
    · rintro ⟨first, rest, rfl, image, images⟩
      exact ⟨first, rest, image, ih.1 images, rfl⟩
    · rintro ⟨first, rest, image, images, rfl⟩
      exact ⟨first, rest, rfl, image, ih.2 images⟩

/-- Every entry of a map has an image under its key. -/
theorem EntryImages.exists_of_mem {entries : List (String × ScriptHost.Value)}
    {pairs : List (Value × Value)} (images : EntryImages world low entries pairs)
    {entry : String × ScriptHost.Value} (m : entry ∈ entries) :
    ∃ image, (Value.ofString entry.1, image) ∈ pairs ∧ Image world low entry.2 image := by
  induction entries generalizing pairs with
  | nil => cases m
  | cons first entries ih =>
    obtain ⟨image, rest, rfl, isImage, images⟩ := images
    rcases List.mem_cons.1 m with rfl | m
    · exact ⟨image, List.mem_cons_self, isImage⟩
    · obtain ⟨inner, there, isInner⟩ := ih images m
      exact ⟨inner, List.mem_cons_of_mem _ there, isInner⟩

/-! ## What is in a value that comes back -/

/-- When a table of pairs leaves, each of its values leaves. -/
theorem exists_exportWithin_of_pair {id : Nat} {pairs : List (Value × Value)}
    (table_eq : world.table id = .ofPairs pairs) (distinct : Distinct pairs)
    {out : ScriptHost.Value} (left : exportWithin world (depth + 1) (.table id) = .ok out)
    {pair : Value × Value} (m : pair ∈ pairs) (proper : pair.2 ≠ .nil) :
    ∃ part, exportWithin world depth pair.2 = .ok part := by
  have there : pair ∈ (world.table id).entries := by
    rw [table_eq, (entries_ofPairs distinct).mem_iff]
    exact List.mem_filter.2 ⟨m, by simpa using proper⟩
  exact exists_exportWithin_of_entry left there

/-- Only a table that is a sequence leaves with an item in it. -/
theorem exists_sequence?_of_exportWithin {id j : Nat} {value : Value} {out : ScriptHost.Value}
    (left : exportWithin world (depth + 1) (.table id) = .ok out)
    (m : (position j, value) ∈ (world.table id).entries) :
    ∃ values, (world.table id).sequence? = some values := by
  rw [exportWithin] at left
  split at left
  · next values sequence => exact ⟨values, sequence⟩
  · obtain ⟨pairs, inner, _⟩ := map_eq_ok_iff.1 left
    -- The position would have to be a text.
    obtain ⟨pair, _, key, _⟩ := mem_left_of_forall₂ (exportEntries_eq_ok_iff.1 inner) m
    cases key

/-- A table of items leaves only if there are nils behind the others at most. -/
theorem holeFree_of_exportWithin {id : Nat} {values : List Value}
    (table_eq : world.table id = .ofPairs (itemPairs 0 values))
    (bounded : values.length < Nat.pow 2 63) {out : ScriptHost.Value}
    (left : exportWithin world (depth + 1) (.table id) = .ok out) :
    values.Pairwise fun first later => first = .nil → later = .nil := by
  have distinct := distinct_itemPairs bounded
  have entry (k : Nat) (lt : k < values.length) :
      (position k, values[k]) ∈ (world.table id).entries ↔ values[k] ≠ .nil := by
    have pair : (position k, values[k]) ∈ itemPairs 0 values :=
      mem_itemPairs.2 ⟨k, lt, by rw [Nat.zero_add]⟩
    rw [table_eq, (entries_ofPairs distinct).mem_iff, List.mem_filter]
    simp [pair]
  refine List.pairwise_iff_getElem.2 fun i j lt_i lt_j before isNil => ?_
  by_contra proper
  have later := (entry j lt_j).2 proper
  -- The later item makes the table a sequence, which has all positions before that of the item.
  obtain ⟨items, sequence⟩ := exists_sequence?_of_exportWithin left later
  obtain ⟨_, itemsProper, itemsBounded⟩ := of_sequence? sequence
  have whole := entries_of_sequence? sequence
  obtain ⟨k, lt_k, same⟩ := mem_itemPairs.1 (whole.mem_iff.1 later)
  rw [Nat.zero_add] at same
  have k_eq : j = k := position_injective (by omega) (by omega) (Prod.mk.inj same).1
  have lt : i < items.length := by omega
  have earlier : (position i, items[i]) ∈ (world.table id).entries :=
    whole.mem_iff.2 (mem_itemPairs.2 ⟨i, lt, by rw [Nat.zero_add]⟩)
  have value_eq : items[i] = values[i] := by
    have found := (mem_entries.1 earlier).2
    have expected : (world.table id).find (position i) = values[i] := by
      have pair : (position i, values[i]) ∈ itemPairs 0 values :=
        mem_itemPairs.2 ⟨i, lt_i, by rw [Nat.zero_add]⟩
      rw [table_eq, find_ofPairs distinct, (lookup?_eq_some_iff distinct.nodup).2 pair]
      rfl
    exact found.symm.trans expected
  rw [isNil] at value_eq
  exact itemsProper (value_eq ▸ List.getElem_mem lt)

/-! ## Values that come back -/

theorem holeFree_items {items : List ScriptHost.Value} {values : List Value}
    (images : List.Forall₂ (Image world low) items values)
    (h : values.Pairwise fun first later => first = .nil → later = .nil) :
    items.Pairwise fun first later => first = .nil → later = .nil := by
  induction images with
  | nil => exact .nil
  | @cons item image items values isImage images ih =>
    obtain ⟨behind, rest⟩ := List.pairwise_cons.1 h
    refine List.pairwise_cons.2 ⟨fun later m isNil => ?_, ih rest⟩
    obtain ⟨other, there, isOther⟩ := mem_left_of_forall₂ images m
    exact isOther.eq_nil_iff.1 (behind other there (isImage.eq_nil_iff.2 isNil))

/-- A value comes back only if it has no holes and is not nested too deeply. -/
theorem of_exportWithin_image {value : ScriptHost.Value} (formed : value.WellFormed)
    {image : Value} (h : Image world low value image) {out : ScriptHost.Value}
    (left : exportWithin world depth image = .ok out) :
    value.HoleFree ∧ value.room ≤ depth := by
  obtain ⟨depth, rfl⟩ : ∃ fewer, depth = fewer + 1 := by
    cases depth with
    | zero => cases left
    | succ depth => exact ⟨depth, rfl⟩
  induction value using ScriptHost.Value.tree_induction generalizing depth image out with
  | ofLeaf value leaf =>
    refine ⟨(ScriptHost.Value.throughout_leaf leaf).2 ?_, ?_⟩
    · cases value with
      | array items => cases leaf
      | _ => trivial
    · rw [ScriptHost.Value.room, ScriptHost.Value.height_leaf leaf]
      split <;> omega
  | ofArray items ih =>
    obtain ⟨bounded, formed⟩ := ScriptHost.Value.throughout_array.1 formed
    obtain ⟨id, values, rfl, _, _, table_eq, images⟩ := h
    have images := itemImages_iff.1 images
    rw [ScriptHost.Value.IsWellFormed, images.length_eq] at bounded
    have inner : ∀ item ∈ items, item.HoleFree ∧ item.room ≤ depth := by
      intro item m
      by_cases isNil : item = .nil
      -- A nil has no entry in the table, and takes no level.
      · exact isNil ▸ ⟨ScriptHost.Value.holeFree_nil, Nat.zero_le depth⟩
      · obtain ⟨image, there, isImage⟩ := mem_left_of_forall₂ images m
        obtain ⟨j, lt, rfl⟩ := List.mem_iff_getElem.1 there
        obtain ⟨part, part_left⟩ := exists_exportWithin_of_pair table_eq
          (distinct_itemPairs bounded) left (mem_itemPairs.2 ⟨j, lt, rfl⟩)
          fun none => isNil (isImage.eq_nil_iff.1 none)
        cases depth with
        | zero => cases part_left
        | succ depth => exact ih item m (formed item m) isImage depth part_left
    have holeFree := holeFree_items images (holeFree_of_exportWithin table_eq bounded left)
    exact ⟨ScriptHost.Value.throughout_array.2 ⟨holeFree, fun item m => (inner item m).1⟩,
      ScriptHost.Value.room_array_le_iff.2 fun item m => (inner item m).2⟩
  | ofMap entries ih =>
    obtain ⟨sorted, formed⟩ := ScriptHost.Value.throughout_map.1 formed
    obtain ⟨id, pairs, rfl, _, _, table_eq, images⟩ := h
    have distinct := (distinct_entryImages images sorted).1
    have inner : ∀ entry ∈ entries, entry.2.HoleFree ∧ entry.2.room ≤ depth := by
      intro entry m
      by_cases isNil : entry.2 = .nil
      · exact isNil ▸ ⟨ScriptHost.Value.holeFree_nil, Nat.zero_le depth⟩
      · obtain ⟨image, there, isImage⟩ := images.exists_of_mem m
        obtain ⟨part, part_left⟩ := exists_exportWithin_of_pair table_eq distinct left there
          fun none => isNil (isImage.eq_nil_iff.1 none)
        cases depth with
        | zero => cases part_left
        | succ depth => exact ih entry m (formed entry m) isImage depth part_left
    exact ⟨ScriptHost.Value.throughout_map.2 ⟨trivial, fun entry m => (inner entry m).1⟩,
      ScriptHost.Value.room_map_le_iff.2 fun entry m => (inner entry m).2⟩

/-- The values that come back are those without holes that are not nested too deeply, and they come
back as their normal forms. -/
theorem exportWithin_image_eq_ok_iff {value : ScriptHost.Value} (formed : value.WellFormed)
    (positive : 0 < depth) {image : Value} (h : Image world low value image)
    {out : ScriptHost.Value} :
    exportWithin world depth image = .ok out
      ↔ (value.HoleFree ∧ value.room ≤ depth) ∧ out = value.norm := by
  have back (holeFree : value.HoleFree) (fits : value.room ≤ depth) :
      exportWithin world depth image = .ok value.norm :=
    exportWithin_image (formed.dense holeFree) formed.ordered positive fits h
  constructor
  · intro left
    obtain ⟨holeFree, fits⟩ := of_exportWithin_image formed h left
    have same := left.symm.trans (back holeFree fits)
    exact ⟨⟨holeFree, fits⟩, Except.ok.inj same⟩
  · rintro ⟨⟨holeFree, fits⟩, rfl⟩
    exact back holeFree fits

end ScriptHost.Script
