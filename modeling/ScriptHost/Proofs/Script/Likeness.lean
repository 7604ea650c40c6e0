import ScriptHost.Proofs.Script.Globals
import ScriptHost.Proofs.Script.Replacing

/-!
# Images of one value leave alike

When a value of the host enters two worlds, or one world twice, then its images are made of different
tables. They leave the script alike all the same: with one result, or with one error.

* `Like` : two values, of two worlds, that leave alike at any depth.
* `like_tables` : tables that are made of like values leave alike.
* `like_images` : the images of one value leave alike.
-/

namespace ScriptHost.Script

open Table

/-- Two values of two worlds that leave alike; nil is like nil only. -/
structure Like (world other : World) (value twin : Value) : Prop where
  nil_iff : value = .nil ↔ twin = .nil
  export_eq : ∀ depth, exportWithin world depth value = exportWithin other depth twin

variable {world other : World}

/-- A value that is no table leaves every world alike. -/
theorem like_refl {value : Value} (noTable : ∀ id, value ≠ .table id) :
    Like world other value value := by
  refine ⟨Iff.rfl, fun depth => ?_⟩
  cases depth with
  | zero => rfl
  | succ depth =>
    cases value with
    | table id => exact absurd rfl (noTable id)
    | _ => rfl

/-! ## Tables of like values -/

/-- Pairs with the number of each value in its place; nil stays as it is. -/
def numbered (i : Nat) : List (Value × Value) → List (Value × Value)
  | [] => []
  | (key, value) :: pairs =>
    (key, if value = .nil then .nil else .table i) :: numbered (i + 1) pairs

/-- The value with a number, and nil for nil. -/
def withNumber (values : List Value) : Value → Value
  | .nil => .nil
  | .table i => if values[i]?.getD .stream = .nil then .stream else values[i]?.getD .stream
  | _ => .stream

theorem keepsNil_withNumber (values : List Value) : KeepsNil (withNumber values) := by
  intro value
  cases value with
  | nil => exact iff_of_true rfl rfl
  | table i =>
    refine iff_of_false ?_ nofun
    show ¬(if values[i]?.getD .stream = .nil then .stream else values[i]?.getD .stream) = .nil
    by_cases isNil : values[i]?.getD .stream = .nil
    · rw [if_pos isNil]
      exact nofun
    · rwa [if_neg isNil]
  | _ => exact iff_of_false nofun nofun

/-- The values are found again by their numbers. -/
theorem map_numbered {values : List Value} {i : Nat} {pairs : List (Value × Value)}
    (from_i : values.drop i = pairs.map Prod.snd) :
    (numbered i pairs).map (Prod.map id (withNumber values)) = pairs := by
  induction pairs generalizing i with
  | nil => rfl
  | cons pair pairs ih =>
    obtain ⟨key, value⟩ := pair
    have here : values[i]? = some value := by
      rw [← List.head?_drop, from_i]
      rfl
    have behind : values.drop (i + 1) = pairs.map Prod.snd := by
      rw [← List.tail_drop, from_i]
      rfl
    rw [numbered, List.map_cons, ih behind]
    by_cases isNil : value = .nil
    · rw [if_pos isNil, isNil]
      rfl
    · rw [if_neg isNil]
      show (key, withNumber values (.table i)) :: pairs = _
      rw [withNumber, here, Option.getD_some, if_neg isNil]

/-- Like values have the same numbers. -/
theorem numbered_eq {pairs twins : List (Value × Value)} (i : Nat)
    (like : List.Forall₂ (fun pair twin => pair.1 = twin.1 ∧ Like world other pair.2 twin.2)
      pairs twins) : numbered i pairs = numbered i twins := by
  induction like generalizing i with
  | nil => rfl
  | cons first _ ih =>
    rw [numbered, numbered, ih, first.1]
    simp only [first.2.nil_iff]

theorem like_withNumber {values twins : List Value}
    (like : List.Forall₂ (Like world other) values twins) (mark : Value) :
    Like world other (withNumber values mark) (withNumber twins mark) := by
  have stream : Like world other .stream .stream := like_refl nofun
  cases mark with
  | nil => exact like_refl nofun
  | table i =>
    have at_i : Like world other (values[i]?.getD .stream) (twins[i]?.getD .stream) := by
      induction like generalizing i with
      | nil => exact stream
      | cons first _ ih =>
        cases i with
        | zero => exact first
        | succ i => exact ih i
    unfold withNumber
    simp only [at_i.nil_iff]
    split
    · exact stream
    · exact at_i
  | _ => exact stream

theorem exportItems_like {f g : Value → Value}
    (like : ∀ value, Like world other (f value) (g value)) (depth : Nat)
    (items : List Value) :
    exportItems (exportWithin world depth) (items.map f)
      = exportItems (exportWithin other depth) (items.map g) := by
  induction items with
  | nil => rfl
  | cons item items ih =>
    simp only [List.map_cons, exportItems, ih, (like item).export_eq depth]

theorem exportEntries_like {f g : Value → Value}
    (like : ∀ value, Like world other (f value) (g value)) (depth : Nat)
    (entries : List (Value × Value)) :
    exportEntries (exportWithin world depth) (entries.map (Prod.map id f))
      = exportEntries (exportWithin other depth) (entries.map (Prod.map id g)) := by
  induction entries with
  | nil => rfl
  | cons entry entries ih =>
    simp only [List.map_cons, Prod.map, exportEntries, ih, (like entry.2).export_eq depth, id]

/-- Two tables that are one table with like values in it leave alike. -/
theorem like_replaced (table : Table) {f g : Value → Value}
    (like : ∀ value, Like world other (f value) (g value))
    (keeps_f : KeepsNil f) (keeps_g : KeepsNil g) {id twin : Nat}
    (table_eq : world.table id = table.replace keeps_f)
    (twin_eq : other.table twin = table.replace keeps_g) :
    Like world other (.table id) (.table twin) := by
  refine ⟨iff_of_false nofun nofun, fun depth => ?_⟩
  cases depth with
  | zero => rfl
  | succ depth =>
    rw [exportWithin, exportWithin, table_eq, twin_eq, sequence?_replace, sequence?_replace,
      entries_replace, entries_replace, exportEntries_like like]
    cases table.sequence? with
    | none => rfl
    | some items =>
      show (exportItems _ (items.map f)).map _ = _
      rw [exportItems_like like]
      rfl

/-- Tables that are made of like values under the same keys leave alike. -/
theorem like_tables {pairs twins : List (Value × Value)} {id twin : Nat}
    (table_eq : world.table id = .ofPairs pairs) (twin_eq : other.table twin = .ofPairs twins)
    (like : List.Forall₂ (fun pair twin => pair.1 = twin.1 ∧ Like world other pair.2 twin.2)
      pairs twins) :
    Like world other (.table id) (.table twin) := by
  have values : List.Forall₂ (Like world other) (pairs.map Prod.snd) (twins.map Prod.snd) := by
    rw [List.forall₂_map_left_iff, List.forall₂_map_right_iff]
    exact like.imp fun _ _ h => h.2
  -- Both tables are that of the numbers, with the values in their places.
  refine like_replaced (.ofPairs (numbered 0 pairs)) (like_withNumber values)
    (keepsNil_withNumber _) (keepsNil_withNumber _) ?_ ?_
  · rw [replace_ofPairs, map_numbered rfl]
    exact table_eq
  · rw [numbered_eq 0 like, replace_ofPairs, map_numbered rfl]
    exact twin_eq

/-! ## Images of one value -/

variable {low bound : Nat}

theorem like_itemImages {items : List ScriptHost.Value} {values twins : List Value} (i : Nat)
    (images : ItemImages world low items values) (others : ItemImages other bound items twins)
    (h : ∀ item ∈ items, ∀ image twin, Image world low item image → Image other bound item twin →
      Like world other image twin) :
    List.Forall₂ (fun pair twin => pair.1 = twin.1 ∧ Like world other pair.2 twin.2)
      (itemPairs i values) (itemPairs i twins) := by
  induction items generalizing values twins i with
  | nil =>
    cases images
    cases others
    exact .nil
  | cons item items ih =>
    obtain ⟨first, rest, rfl, image, images⟩ := images
    obtain ⟨first', rest', rfl, image', others⟩ := others
    refine .cons ⟨rfl, h item List.mem_cons_self first first' image image'⟩ ?_
    exact ih (i + 1) images others fun other m => h other (List.mem_cons_of_mem item m)

theorem like_entryImages {entries : List (String × ScriptHost.Value)}
    {pairs twins : List (Value × Value)} (images : EntryImages world low entries pairs)
    (others : EntryImages other bound entries twins)
    (h : ∀ entry ∈ entries, ∀ image twin, Image world low entry.2 image →
      Image other bound entry.2 twin → Like world other image twin) :
    List.Forall₂ (fun pair twin => pair.1 = twin.1 ∧ Like world other pair.2 twin.2)
      pairs twins := by
  induction entries generalizing pairs twins with
  | nil =>
    cases images
    cases others
    exact .nil
  | cons entry entries ih =>
    obtain ⟨first, rest, rfl, image, images⟩ := images
    obtain ⟨first', rest', rfl, image', others⟩ := others
    refine .cons ⟨rfl, h entry List.mem_cons_self first first' image image'⟩ ?_
    exact ih images others fun other m => h other (List.mem_cons_of_mem entry m)

/-- The images of one value leave alike. -/
theorem like_images {value : ScriptHost.Value} {image twin : Value}
    (isImage : Image world low value image) (isTwin : Image other bound value twin) :
    Like world other image twin := by
  induction value using ScriptHost.Value.tree_induction generalizing image twin with
  | ofLeaf value leaf =>
    cases value with
    | array items => cases leaf
    | map entries => cases leaf
    | number x =>
      rw [show image = Value.ofFloat x false from isImage,
        show twin = Value.ofFloat x false from isTwin]
      refine like_refl fun id => ?_
      unfold Value.ofFloat
      split <;> exact nofun
    | host reference =>
      obtain ⟨serial, rfl⟩ := isImage
      obtain ⟨serial', rfl⟩ := isTwin
      refine ⟨iff_of_false nofun nofun, fun depth => ?_⟩
      cases depth <;> rfl
    | _ =>
      cases isImage
      cases isTwin
      exact like_refl nofun
  | ofArray items ih =>
    obtain ⟨id, values, rfl, _, _, table_eq, images⟩ := isImage
    obtain ⟨id', twins, rfl, _, _, twin_eq, others⟩ := isTwin
    exact like_tables table_eq twin_eq
      (like_itemImages 0 images others fun item m _ _ first second => ih item m first second)
  | ofMap entries ih =>
    obtain ⟨id, pairs, rfl, _, _, table_eq, images⟩ := isImage
    obtain ⟨id', twins, rfl, _, _, twin_eq, others⟩ := isTwin
    exact like_tables table_eq twin_eq
      (like_entryImages images others fun entry m _ _ first second => ih entry m first second)

/-- A value that is stored in two worlds is read alike in both. -/
theorem World.Stored.export?_eq {name : String} {value : ScriptHost.Value}
    (h : world.Stored name value) (k : other.Stored name value) :
    Script.export? world (world.globalNamed name)
      = Script.export? other (other.globalNamed name) :=
  (like_images h k).export_eq _

end ScriptHost.Script
