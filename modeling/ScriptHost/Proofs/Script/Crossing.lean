import Mathlib.Data.List.Perm.Basic
import ScriptHost.Proofs.Entries
import ScriptHost.Proofs.Script.Images

/-!
# Values that leave a script

* `exportWithin_of_alike` : where the length of a table is looked for does not count.
* `exportWithin_image` : the image of a value leaves as the normal form of the value.
* `normal_exportWithin` : what leaves a script is normal, and not nested deeper than the limit.
-/

namespace ScriptHost.Script

open Table

/-! ## Items and entries -/

/-- A computation that may fail in two steps has a result when both steps have one. -/
theorem bind_eq_ok_iff {α β : Type} {first : Except Error α} {next : α → Except Error β} {b : β} :
    (first >>= next) = .ok b ↔ ∃ a, first = .ok a ∧ next a = .ok b := by
  cases first with
  | error error => simp [Bind.bind, Except.bind]
  | ok a => simp [Bind.bind, Except.bind]

theorem map_eq_ok_iff {α β : Type} {f : α → β} {result : Except Error α} {b : β} :
    result.map f = .ok b ↔ ∃ a, result = .ok a ∧ f a = b := by
  cases result with
  | error error => simp [Except.map]
  | ok a => simp [Except.map]

theorem exportItems_eq_ok_iff {exportOne : Value → Except Error ScriptHost.Value}
    {items : List Value} {out : List ScriptHost.Value} :
    exportItems exportOne items = .ok out
      ↔ List.Forall₂ (fun item value => exportOne item = .ok value) items out := by
  induction items generalizing out with
  | nil =>
    rw [List.forall₂_nil_left_iff]
    exact ⟨fun h => (Except.ok.inj h).symm, fun h => congrArg Except.ok h.symm⟩
  | cons item items ih =>
    simp only [exportItems, bind_eq_ok_iff, Except.ok.injEq, List.forall₂_cons_left_iff, ih]
    constructor
    · rintro ⟨value, first, values, rest, rfl⟩
      exact ⟨value, values, first, rest, rfl⟩
    · rintro ⟨value, values, first, rest, rfl⟩
      exact ⟨value, first, values, rest, rfl⟩

theorem exportEntries_eq_ok_iff {exportOne : Value → Except Error ScriptHost.Value}
    {entries : List (Value × Value)} {out : List (String × ScriptHost.Value)} :
    exportEntries exportOne entries = .ok out
      ↔ List.Forall₂ (fun entry pair => keyText entry.1 = .ok pair.1
          ∧ exportOne entry.2 = .ok pair.2) entries out := by
  induction entries generalizing out with
  | nil =>
    rw [List.forall₂_nil_left_iff]
    exact ⟨fun h => (Except.ok.inj h).symm, fun h => congrArg Except.ok h.symm⟩
  | cons entry entries ih =>
    simp only [exportEntries, bind_eq_ok_iff, Except.ok.injEq, List.forall₂_cons_left_iff, ih]
    constructor
    · rintro ⟨key, text, value, first, values, rest, rfl⟩
      exact ⟨(key, value), values, ⟨text, first⟩, rest, rfl⟩
    · rintro ⟨pair, values, ⟨text, first⟩, rest, rfl⟩
      exact ⟨pair.1, text, pair.2, first, values, rest, rfl⟩

/-! ## Where lengths are looked for -/

/-- Where the length of a table is looked for does not count. -/
theorem exportWithin_of_alike {world other : World} (alike : World.Alike world other)
    (depth : Nat) : exportWithin other depth = exportWithin world depth := by
  induction depth with
  | zero => rfl
  | succ depth ih =>
    funext value
    cases value with
    | table id =>
      obtain ⟨limit, same⟩ := alike id
      have entries : (other.table id).entries = (world.table id).entries := by
        rw [same]
        rfl
      have sequence : (other.table id).sequence? = (world.table id).sequence? := by
        rw [same]
        rfl
      rw [exportWithin, exportWithin, ih, entries, sequence]
    | _ => rfl

theorem export?_of_alike {world other : World} (alike : World.Alike world other) (value : Value) :
    export? other value = export? world value := by
  unfold export?
  rw [exportWithin_of_alike alike]

/-! ## Images leave -/

variable {world : World} {low : Nat}

/-- Only nil has the image nil. -/
theorem Image.eq_nil_iff {value : ScriptHost.Value} {image : Value}
    (h : Image world low value image) : image = .nil ↔ value = .nil := by
  cases value with
  | nil => exact iff_of_true h rfl
  | array items =>
    obtain ⟨id, _, rfl, _⟩ := h
    simp
  | map entries =>
    obtain ⟨id, _, rfl, _⟩ := h
    simp
  | number x =>
    rw [show image = Value.ofFloat x false from h]
    unfold Value.ofFloat
    split <;> simp
  | host reference =>
    obtain ⟨serial, rfl⟩ := h
    simp
  | _ =>
    cases h
    simp [Value.ofString]

theorem ItemImages.append {front back : List ScriptHost.Value} {values : List Value}
    (h : ItemImages world low (front ++ back) values) :
    ∃ first rest, values = first ++ rest ∧ ItemImages world low front first
      ∧ ItemImages world low back rest := by
  induction front generalizing values with
  | nil => exact ⟨[], values, rfl, rfl, h⟩
  | cons item front ih =>
    obtain ⟨image, others, rfl, isImage, images⟩ := h
    obtain ⟨first, rest, rfl, frontImages, backImages⟩ := ih images
    exact ⟨image :: first, rest, rfl, ⟨image, first, rfl, isImage, frontImages⟩, backImages⟩

theorem ItemImages.of_replicate {count : Nat} {values : List Value}
    (h : ItemImages world low (List.replicate count .nil) values) :
    values = List.replicate count .nil := by
  induction count generalizing values with
  | zero => exact h
  | succ count ih =>
    obtain ⟨image, others, rfl, isImage, images⟩ := h
    rw [show image = Value.nil from isImage, ih images]
    rfl

theorem ItemImages.length_eq {items : List ScriptHost.Value} {values : List Value}
    (h : ItemImages world low items values) : values.length = items.length := by
  induction items generalizing values with
  | nil =>
    rw [show values = [] from h]
    rfl
  | cons item items ih =>
    obtain ⟨first, rest, rfl, _, images⟩ := h
    rw [List.length_cons, ih images, List.length_cons]

/-- The images of items that are not nil are not nil. -/
theorem ItemImages.nil_not_mem {items : List ScriptHost.Value} {values : List Value}
    (h : ItemImages world low items values) (proper : .nil ∉ items) : .nil ∉ values := by
  induction items generalizing values with
  | nil =>
    rw [show values = [] from h]
    exact List.not_mem_nil
  | cons item items ih =>
    obtain ⟨first, rest, rfl, image, images⟩ := h
    rw [List.mem_cons, not_or] at proper ⊢
    refine ⟨fun isNil => proper.1 ?_, ih images proper.2⟩
    exact (image.eq_nil_iff.1 isNil.symm).symm

/-- The images of items leave one by one. -/
theorem exportItems_images {depth : Nat} {items : List ScriptHost.Value} {values : List Value}
    (images : ItemImages world low items values)
    (h : ∀ item ∈ items, ∀ image, Image world low item image →
      exportWithin world depth image = .ok item.norm) :
    exportItems (exportWithin world depth) values = .ok (items.map ScriptHost.Value.norm) := by
  induction items generalizing values with
  | nil =>
    rw [show values = [] from images]
    rfl
  | cons item items ih =>
    obtain ⟨first, rest, rfl, image, images⟩ := images
    have others := ih images fun other m => h other (List.mem_cons_of_mem item m)
    simp only [exportItems, h item List.mem_cons_self first image, others, Bind.bind, Except.bind,
      List.map_cons]

/-- The images of entries leave one by one; those that are nil are not there any more. -/
theorem exportEntries_images {depth : Nat} {entries : List (String × ScriptHost.Value)}
    {pairs : List (Value × Value)} (images : EntryImages world low entries pairs)
    (h : ∀ entry ∈ entries, entry.2 ≠ .nil → ∀ image, Image world low entry.2 image →
      exportWithin world depth image = .ok entry.2.norm) :
    exportEntries (exportWithin world depth) (pairs.filter fun pair => pair.2 ≠ .nil)
      = .ok (ScriptHost.Value.normEntries entries) := by
  induction entries generalizing pairs with
  | nil =>
    rw [show pairs = [] from images]
    rfl
  | cons entry entries ih =>
    obtain ⟨first, rest, rfl, image, images⟩ := images
    have others := ih images fun other m => h other (List.mem_cons_of_mem entry m)
    rw [ScriptHost.Value.normEntries]
    by_cases isNil : entry.2 = .nil
    · rw [if_pos (ScriptHost.Value.isNil_iff.2 isNil), List.filter_cons, if_neg]
      · exact others
      · simp [image.eq_nil_iff.2 isNil]
    · rw [if_neg fun h => isNil (ScriptHost.Value.isNil_iff.1 h), List.filter_cons, if_pos]
      · have left := h entry List.mem_cons_self isNil first image
        simp only [exportEntries, Value.ofString, keyText, textOf, Text.Utf8.decode_toUTF8, left,
          others, Bind.bind, Except.bind]
      · simpa using fun h => isNil (image.eq_nil_iff.1 h)

/-- Different texts are different strings of a script. -/
theorem ofString_injective {a b : String} (h : Value.ofString a = Value.ofString b) : a = b :=
  String.toByteArray_inj.1 (Value.string.inj h)

/-- The keys of a map are there as strings. -/
theorem keys_entryImages {entries : List (String × ScriptHost.Value)}
    {pairs : List (Value × Value)} (images : EntryImages world low entries pairs) :
    pairs.map Prod.fst = entries.map fun entry => Value.ofString entry.1 := by
  induction entries generalizing pairs with
  | nil =>
    rw [show pairs = [] from images]
    rfl
  | cons entry entries ih =>
    obtain ⟨first, rest, rfl, _, images⟩ := images
    rw [List.map_cons, List.map_cons, ih images]

/-- The keys of the images of a map are different, as those of the map are. -/
theorem distinct_entryImages {entries : Entries ScriptHost.Value} {pairs : List (Value × Value)}
    (images : EntryImages world low entries pairs) (sorted : Entries.Ascending entries) :
    Distinct pairs ∧ ∀ pair ∈ pairs, ∃ bytes, pair.1 = .string bytes := by
  have keys := keys_entryImages images
  have strings : ∀ pair ∈ pairs, ∃ bytes, pair.1 = .string bytes := by
    intro pair m
    have key : pair.1 ∈ entries.map fun entry => Value.ofString entry.1 :=
      keys ▸ List.mem_map_of_mem m
    obtain ⟨entry, _, same⟩ := List.mem_map.1 key
    exact ⟨entry.1.toUTF8, same.symm⟩
  refine ⟨⟨?_, ?_⟩, strings⟩
  · rw [keys]
    refine List.pairwise_map.2 (sorted.imp fun {a b} lt same => ?_)
    rw [ofString_injective same] at lt
    exact String.lt_irrefl _ lt
  · intro pair m
    obtain ⟨bytes, same⟩ := strings pair m
    rw [same]
    rfl

/-- The order of entries does not count when they leave. -/
theorem exportEntries_of_perm {exportOne : Value → Except Error ScriptHost.Value}
    {entries others : List (Value × Value)} {out : Entries ScriptHost.Value}
    (perm : others.Perm entries) (sorted : Entries.Ascending out)
    (h : exportEntries exportOne entries = .ok out) :
    ((exportEntries exportOne others).map fun pairs => .map (Entries.ofList pairs))
      = .ok (ScriptHost.Value.map out) := by
  obtain ⟨pairs, images, same⟩ := List.perm_comp_forall₂ perm (exportEntries_eq_ok_iff.1 h)
  rw [exportEntries_eq_ok_iff.2 images]
  show Except.ok (ScriptHost.Value.map (Entries.ofList pairs)) = _
  rw [Entries.ofList_of_perm sorted same]

/-- A table of nils has no entries. -/
theorem entries_of_nils {count : Nat} (bounded : count < Nat.pow 2 63) :
    (ofPairs (itemPairs 0 (List.replicate count .nil))).entries = [] := by
  have distinct : Distinct (itemPairs 0 (List.replicate count .nil)) :=
    distinct_itemPairs (by rwa [List.length_replicate])
  have perm := entries_ofPairs distinct
  have lost := filter_itemPairs List.not_mem_nil count
  rw [List.nil_append] at lost
  rw [lost] at perm
  exact perm.eq_nil

/-- A table without entries is a map without entries. -/
theorem exportWithin_of_entries_eq_nil {depth id : Nat} (h : (world.table id).entries = []) :
    exportWithin world (depth + 1) (.table id) = .ok (.map []) := by
  have absent : (world.table id).find (position 0) = .nil := by
    by_contra ne
    have there := mem_entries.2 ⟨ne, rfl⟩
    rw [h] at there
    cases there
  rw [exportWithin, sequence?_eq_none absent, h]
  rfl

/-- The table of the items of an array leaves as what is left of the array. -/
theorem exportWithin_array {depth id : Nat} {items : List ScriptHost.Value} {values : List Value}
    (table_eq : world.table id = .ofPairs (itemPairs 0 values))
    (images : ItemImages world low items values)
    (dense : ScriptHost.Value.IsDense (.array items))
    (h : ∀ item ∈ items, item ≠ .nil → ∀ image, Image world low item image →
      exportWithin world depth image = .ok item.norm) :
    exportWithin world (depth + 1) (.table id) = .ok (ScriptHost.Value.array items).norm := by
  have length := images.length_eq
  obtain ⟨bounded, front, count, rfl, proper⟩ := dense
  obtain ⟨first, rest, rfl, frontImages, lost⟩ := images.append
  rw [← length] at bounded
  rw [lost.of_replicate] at table_eq bounded
  rw [ScriptHost.Value.norm, ScriptHost.Value.normItems_append proper]
  -- An array of nils only, or of nothing, leaves as a map, since its table has no entries.
  cases front with
  | nil =>
    rw [show first = [] from frontImages] at table_eq bounded
    rw [List.nil_append, List.length_replicate] at bounded
    refine exportWithin_of_entries_eq_nil ?_
    rw [table_eq]
    exact entries_of_nils bounded
  | cons item front =>
    have nonempty : first ≠ [] := by
      obtain ⟨image, others, rfl, _⟩ := frontImages
      exact List.cons_ne_nil image others
    have sequence := sequence?_ofItems nonempty (frontImages.nil_not_mem proper) count bounded
    have left := exportItems_images frontImages fun other m =>
      h other (List.mem_append_left _ m) fun isNil => proper (isNil ▸ m)
    rw [exportWithin, table_eq, sequence]
    show (exportItems (exportWithin world depth) first).map _ = _
    rw [left]
    rfl

/-- The table of the entries of a map leaves as what is left of the map. -/
theorem exportWithin_map {depth id : Nat} {entries : Entries ScriptHost.Value}
    {pairs : List (Value × Value)} (table_eq : world.table id = .ofPairs pairs)
    (images : EntryImages world low entries pairs) (sorted : Entries.Ascending entries)
    (h : ∀ entry ∈ entries, entry.2 ≠ .nil → ∀ image, Image world low entry.2 image →
      exportWithin world depth image = .ok entry.2.norm) :
    exportWithin world (depth + 1) (.table id) = .ok (ScriptHost.Value.map entries).norm := by
  obtain ⟨distinct, strings⟩ := distinct_entryImages images sorted
  -- All keys are strings, so that the table is not taken for an array.
  have absent : (ofPairs pairs).find (position 0) = .nil := by
    rw [find_ofPairs distinct, lookup?_eq_none]
    · rfl
    · intro pair m same
      obtain ⟨bytes, string⟩ := strings pair m
      rw [string] at same
      cases same
  rw [exportWithin, table_eq, sequence?_eq_none absent, ScriptHost.Value.norm]
  exact exportEntries_of_perm (entries_ofPairs distinct)
    (ScriptHost.Value.ascending_normEntries sorted) (exportEntries_images images h)

/-- The image of a value leaves as the normal form of the value, if it is dense and not nested too
deeply. -/
theorem exportWithin_image {value : ScriptHost.Value}
    (dense : ScriptHost.Value.Throughout ScriptHost.Value.IsDense value)
    (ordered : ScriptHost.Value.Ordered value) {depth : Nat} (positive : 0 < depth)
    (fits : value.room ≤ depth) {image : Value} (h : Image world low value image) :
    exportWithin world depth image = .ok value.norm := by
  -- The depth is spent along the tree, and a nil inside an array needs none: it is never reached.
  induction value using ScriptHost.Value.tree_induction generalizing depth image with
  | ofLeaf value leaf =>
    obtain ⟨depth, rfl⟩ := Nat.exists_eq_succ_of_ne_zero (Nat.ne_of_gt positive)
    cases value with
    | array items => cases leaf
    | map entries => cases leaf
    | number x =>
      rw [show image = Value.ofFloat x false from h, ScriptHost.Value.norm]
      unfold Value.ofFloat ScriptHost.Value.ofFloat
      split <;> rfl
    | string text =>
      cases h
      simp only [exportWithin, Value.ofString, textOf, Text.Utf8.decode_toUTF8]
      rfl
    | host reference =>
      obtain ⟨serial, rfl⟩ := h
      rfl
    | _ =>
      cases h
      rfl
  | ofArray items ih =>
    obtain ⟨depth, rfl⟩ := Nat.exists_eq_succ_of_ne_zero (Nat.ne_of_gt positive)
    obtain ⟨id, values, rfl, _, _, table_eq, images⟩ := h
    refine exportWithin_array table_eq images dense.self fun item m notNil image isImage => ?_
    have item_fits := ScriptHost.Value.room_array_le_iff.1 fits item m
    exact ih item m ((ScriptHost.Value.throughout_array.1 dense).2 item m)
      ((ScriptHost.Value.throughout_array.1 ordered).2 item m)
      (Nat.lt_of_lt_of_le (ScriptHost.Value.room_pos notNil) item_fits) item_fits isImage
  | ofMap entries ih =>
    obtain ⟨depth, rfl⟩ := Nat.exists_eq_succ_of_ne_zero (Nat.ne_of_gt positive)
    obtain ⟨id, pairs, rfl, _, _, table_eq, images⟩ := h
    obtain ⟨sorted, inner⟩ := ScriptHost.Value.throughout_map.1 ordered
    refine exportWithin_map table_eq images sorted fun entry m notNil image isImage => ?_
    have entry_fits := ScriptHost.Value.room_map_le_iff.1 fits entry m
    exact ih entry m ((ScriptHost.Value.throughout_map.1 dense).2 entry m) (inner entry m)
      (Nat.lt_of_lt_of_le (ScriptHost.Value.room_pos notNil) entry_fits) entry_fits isImage

/-! ## What leaves is normal -/

theorem mem_left_of_forall₂ {α β : Type} {R : α → β → Prop} {as : List α} {bs : List β}
    (h : List.Forall₂ R as bs) {a : α} (m : a ∈ as) : ∃ b ∈ bs, R a b := by
  induction h with
  | nil => cases m
  | cons first _ ih =>
    rcases List.mem_cons.1 m with rfl | m
    · exact ⟨_, List.mem_cons_self, first⟩
    · obtain ⟨b, k, related⟩ := ih m
      exact ⟨b, List.mem_cons_of_mem _ k, related⟩

theorem mem_right_of_forall₂ {α β : Type} {R : α → β → Prop} {as : List α} {bs : List β}
    (h : List.Forall₂ R as bs) {b : β} (m : b ∈ bs) : ∃ a ∈ as, R a b := by
  induction h with
  | nil => cases m
  | cons first _ ih =>
    rcases List.mem_cons.1 m with rfl | m
    · exact ⟨_, List.mem_cons_self, first⟩
    · obtain ⟨a, k, related⟩ := ih m
      exact ⟨a, List.mem_cons_of_mem _ k, related⟩

/-- Only nil leaves as nil. -/
theorem eq_nil_of_exportWithin {depth : Nat} {value : Value}
    (h : exportWithin world depth value = .ok .nil) : value = .nil := by
  cases depth with
  | zero => cases h
  | succ depth =>
    cases value with
    | nil => rfl
    | string bytes =>
      obtain ⟨_, _, same⟩ := map_eq_ok_iff.1 h
      cases same
    | table id =>
      rw [exportWithin] at h
      split at h
      all_goals
        obtain ⟨_, _, same⟩ := map_eq_ok_iff.1 h
        cases same
    | _ => cases h

/-- A value with nothing in it is normal, and takes the one level that is always there. -/
theorem normal_leaf {depth : Nat} (out : ScriptHost.Value) (isLeaf : out.isLeaf = true)
    (normal : ScriptHost.Value.IsNormal out) : out.Normal ∧ out.room ≤ depth + 1 := by
  refine ⟨(ScriptHost.Value.throughout_leaf isLeaf).2 normal, ?_⟩
  rw [ScriptHost.Value.room, ScriptHost.Value.height_leaf isLeaf]
  split <;> omega

/-- The items of a table leave it as a normal array, if each of them leaves it as a normal value. -/
theorem normal_exportItems {table : Table} {items : List Value} {depth : Nat}
    (sequence : table.sequence? = some items)
    (ih : ∀ {item value}, exportWithin world depth item = .ok value →
      value.Normal ∧ value.room ≤ depth)
    {values : List ScriptHost.Value}
    (left : exportItems (exportWithin world depth) items = .ok values) :
    (ScriptHost.Value.array values).Normal
      ∧ (ScriptHost.Value.array values).room ≤ depth + 1 := by
  obtain ⟨nonempty, proper, bounded⟩ := of_sequence? sequence
  have images := exportItems_eq_ok_iff.1 left
  have inner : ∀ value ∈ values, value.Normal ∧ value.room ≤ depth := by
    intro value m
    obtain ⟨item, _, left⟩ := mem_right_of_forall₂ images m
    exact ih left
  have notEmpty : values ≠ [] := by
    rintro rfl
    exact nonempty (List.forall₂_nil_right_iff.1 images)
  have nilFree : .nil ∉ values := by
    intro m
    obtain ⟨item, there, left⟩ := mem_right_of_forall₂ images m
    exact proper (eq_nil_of_exportWithin left ▸ there)
  constructor
  · exact ScriptHost.Value.throughout_array.2
      ⟨⟨notEmpty, nilFree, images.length_eq ▸ bounded⟩, fun value m => (inner value m).1⟩
  · exact ScriptHost.Value.room_array_le_iff.2 fun value m => (inner value m).2

/-- The entries of a table leave it as a normal map, if each of their values leaves it as a normal
value. -/
theorem normal_exportEntries {table : Table} {depth : Nat}
    (ih : ∀ {item value}, exportWithin world depth item = .ok value →
      value.Normal ∧ value.room ≤ depth)
    {pairs : List (String × ScriptHost.Value)}
    (left : exportEntries (exportWithin world depth) table.entries = .ok pairs) :
    (ScriptHost.Value.map (Entries.ofList pairs)).Normal
      ∧ (ScriptHost.Value.map (Entries.ofList pairs)).room ≤ depth + 1 := by
  have images := exportEntries_eq_ok_iff.1 left
  have inner : ∀ pair ∈ Entries.ofList pairs,
      pair.2 ≠ .nil ∧ pair.2.Normal ∧ pair.2.room ≤ depth := by
    intro pair m
    obtain ⟨entry, there, _, left⟩ :=
      mem_right_of_forall₂ images (Entries.mem_of_mem_ofList m)
    refine ⟨?_, ih left⟩
    intro isNil
    rw [isNil] at left
    exact (mem_entries.1 there).1 (eq_nil_of_exportWithin left)
  constructor
  · exact ScriptHost.Value.throughout_map.2
      ⟨⟨Entries.ascending_ofList pairs, fun pair m => (inner pair m).1⟩,
        fun pair m => (inner pair m).2.1⟩
  · exact ScriptHost.Value.room_map_le_iff.2 fun pair m => (inner pair m).2.2

/-- What leaves a script is normal, and not nested deeper than the limit. -/
theorem normal_exportWithin {depth : Nat} {value : Value} {out : ScriptHost.Value}
    (h : exportWithin world depth value = .ok out) : out.Normal ∧ out.room ≤ depth := by
  induction depth generalizing value out with
  | zero => cases h
  | succ depth ih =>
    cases value with
    | table id =>
      rw [exportWithin] at h
      split at h
      · next items sequence =>
        obtain ⟨values, left, rfl⟩ := map_eq_ok_iff.1 h
        exact normal_exportItems sequence ih left
      · obtain ⟨pairs, left, rfl⟩ := map_eq_ok_iff.1 h
        exact normal_exportEntries ih left
    | string bytes =>
      obtain ⟨text, _, rfl⟩ := map_eq_ok_iff.1 h
      exact normal_leaf _ rfl trivial
    | nil => cases h; exact normal_leaf _ rfl trivial
    | boolean b => cases h; exact normal_leaf _ rfl trivial
    | integer n => cases h; exact normal_leaf _ rfl trivial
    | number x => cases h; exact normal_leaf _ rfl trivial
    | nan negative => cases h; exact normal_leaf _ rfl trivial
    | host reference serial => cases h; exact normal_leaf _ rfl trivial
    | _ => cases h

end ScriptHost.Script
