import ScriptHost.Proofs.Script.Worlds
import ScriptHost.Proofs.Value.Normal
import ScriptHost.Script.Exchange

/-!
# Values of the host inside a script

A value of the host that has entered a script is there as an image: leaves as themselves, and each
array and map as a table of its own.

* `Image` : a value of a script is the image of a value of the host.
* `Image.congr`, `Image.of_extends` : images stay when other tables change.
* `image_importValue` : a value that enters becomes an image, made of new tables.
-/

namespace ScriptHost.Script

open Table

/-! ## Images -/

mutual

/-- A value of a script is the image of a value of the host, made of tables from `low` on. -/
def Image (world : World) (low : Nat) : ScriptHost.Value → Value → Prop
  | .nil, value => value = .nil
  | .boolean b, value => value = .boolean b
  | .integer n, value => value = .integer n
  | .number x, value => value = .ofFloat x false
  | .nan negative, value => value = .nan negative
  | .string text, value => value = .ofString text
  | .host reference, value => ∃ serial, value = .host reference serial
  | .array items, value => ∃ id values, value = .table id ∧ low ≤ id ∧ id < world.tables.size
      ∧ world.table id = .ofPairs (itemPairs 0 values) ∧ ItemImages world low items values
  | .map entries, value => ∃ id pairs, value = .table id ∧ low ≤ id ∧ id < world.tables.size
      ∧ world.table id = .ofPairs pairs ∧ EntryImages world low entries pairs

/-- The images of some items. -/
def ItemImages (world : World) (low : Nat) : List ScriptHost.Value → List Value → Prop
  | [], values => values = []
  | item :: items, values => ∃ first rest, values = first :: rest
      ∧ Image world low item first ∧ ItemImages world low items rest

/-- The images of some entries, with the keys as strings of the script. -/
def EntryImages (world : World) (low : Nat) :
    List (String × ScriptHost.Value) → List (Value × Value) → Prop
  | [], pairs => pairs = []
  | (key, value) :: entries, pairs => ∃ first rest, pairs = (.ofString key, first) :: rest
      ∧ Image world low value first ∧ EntryImages world low entries rest

end

variable {world other : World} {low : Nat}

/-- The image of a value refers to tables that are there only. -/
theorem Image.within {value : ScriptHost.Value} {image : Value} (h : Image world low value image) :
    image.Within world.tables.size := by
  cases value with
  | array items =>
    obtain ⟨id, _, rfl, _, there, _⟩ := h
    exact there
  | map entries =>
    obtain ⟨id, _, rfl, _, there, _⟩ := h
    exact there
  | number x =>
    rw [show image = Value.ofFloat x false from h]
    unfold Value.ofFloat
    split <;> trivial
  | host reference =>
    obtain ⟨serial, rfl⟩ := h
    trivial
  | _ =>
    cases h
    trivial

mutual

/-- An image stays when the tables that it is made of stay. -/
theorem Image.congr {bound : Nat} (le : bound ≤ low)
    (same : ∀ id, low ≤ id → id < world.tables.size →
      id < other.tables.size ∧ other.table id = world.table id) :
    ∀ {value : ScriptHost.Value} {image : Value}, Image world low value image →
      Image other bound value image
  | .nil, _, h => h
  | .boolean _, _, h => h
  | .integer _, _, h => h
  | .number _, _, h => h
  | .nan _, _, h => h
  | .string _, _, h => h
  | .host _, _, h => h
  | .array items, image, h => by
    obtain ⟨id, values, image_eq, ge, there, table_eq, images⟩ := h
    obtain ⟨stays, same_table⟩ := same id ge there
    exact ⟨id, values, image_eq, Nat.le_trans le ge, stays, same_table.trans table_eq,
      ItemImages.congr le same images⟩
  | .map entries, image, h => by
    obtain ⟨id, pairs, image_eq, ge, there, table_eq, images⟩ := h
    obtain ⟨stays, same_table⟩ := same id ge there
    exact ⟨id, pairs, image_eq, Nat.le_trans le ge, stays, same_table.trans table_eq,
      EntryImages.congr le same images⟩

theorem ItemImages.congr {bound : Nat} (le : bound ≤ low)
    (same : ∀ id, low ≤ id → id < world.tables.size →
      id < other.tables.size ∧ other.table id = world.table id) :
    ∀ {items : List ScriptHost.Value} {values : List Value}, ItemImages world low items values →
      ItemImages other bound items values
  | [], _, h => h
  | item :: items, values, h => by
    obtain ⟨first, rest, values_eq, image, images⟩ := h
    exact ⟨first, rest, values_eq, image.congr le same, ItemImages.congr le same images⟩

theorem EntryImages.congr {bound : Nat} (le : bound ≤ low)
    (same : ∀ id, low ≤ id → id < world.tables.size →
      id < other.tables.size ∧ other.table id = world.table id) :
    ∀ {entries : List (String × ScriptHost.Value)} {pairs : List (Value × Value)},
      EntryImages world low entries pairs → EntryImages other bound entries pairs
  | [], _, h => h
  | (key, value) :: entries, pairs, h => by
    obtain ⟨first, rest, pairs_eq, image, images⟩ := h
    exact ⟨first, rest, pairs_eq, image.congr le same, EntryImages.congr le same images⟩

end

/-- An image stays when further tables are made. -/
theorem Image.of_extends {value : ScriptHost.Value} {image : Value}
    (h : Image world low value image) (grown : World.Extends world other) :
    Image other low value image :=
  h.congr (Nat.le_refl low) fun id _ there =>
    ⟨Nat.lt_of_lt_of_le there grown.size_le, grown.table_eq id there⟩

theorem ItemImages.of_extends {items : List ScriptHost.Value} {values : List Value}
    (h : ItemImages world low items values) (grown : World.Extends world other) :
    ItemImages other low items values :=
  h.congr (Nat.le_refl low) fun id _ there =>
    ⟨Nat.lt_of_lt_of_le there grown.size_le, grown.table_eq id there⟩

theorem EntryImages.of_extends {entries : List (String × ScriptHost.Value)}
    {pairs : List (Value × Value)} (h : EntryImages world low entries pairs)
    (grown : World.Extends world other) : EntryImages other low entries pairs :=
  h.congr (Nat.le_refl low) fun id _ there =>
    ⟨Nat.lt_of_lt_of_le there grown.size_le, grown.table_eq id there⟩

/-- The images of items refer to tables that are there only. -/
theorem ItemImages.within {items : List ScriptHost.Value} {values : List Value} {i : Nat}
    (h : ItemImages world low items values) :
    ∀ pair ∈ itemPairs i values, pair.1.Within world.tables.size
      ∧ pair.2.Within world.tables.size := by
  induction items generalizing values i with
  | nil =>
    cases h
    intro pair m
    cases m
  | cons item items ih =>
    obtain ⟨first, rest, rfl, image, images⟩ := h
    intro pair m
    rcases List.mem_cons.1 m with rfl | m
    · exact ⟨trivial, image.within⟩
    · exact ih images pair m

/-- The images of entries refer to tables that are there only. -/
theorem EntryImages.within {entries : List (String × ScriptHost.Value)}
    {pairs : List (Value × Value)} (h : EntryImages world low entries pairs) :
    ∀ pair ∈ pairs, pair.1.Within world.tables.size ∧ pair.2.Within world.tables.size := by
  induction entries generalizing pairs with
  | nil =>
    cases h
    intro pair m
    cases m
  | cons entry entries ih =>
    obtain ⟨first, rest, rfl, image, images⟩ := h
    intro pair m
    rcases List.mem_cons.1 m with rfl | m
    · exact ⟨trivial, image.within⟩
    · exact ih images pair m

/-! ## Making a table -/

/-- Sets values in a table that is there. -/
theorem table_setAll (world : World) {id : Nat} {pairs : List (Value × Value)}
    (there : id < world.tables.size)
    (within : ∀ pair ∈ pairs, pair.1.Within world.tables.size
      ∧ pair.2.Within world.tables.size) :
    ((setAll id pairs).run world).2.tables.size = world.tables.size
      ∧ ∀ other, ((setAll id pairs).run world).2.table other
        = if id = other then
            pairs.foldl (fun table pair => table.set pair.1 pair.2) (world.table id)
          else world.table other := by
  induction pairs generalizing world with
  | nil =>
    refine ⟨rfl, fun other => ?_⟩
    split
    · next same => exact same ▸ rfl
    · rfl
  | cons pair pairs ih =>
    have size := World.size_setIn world id pair.1 pair.2
    obtain ⟨key, value⟩ := within pair List.mem_cons_self
    obtain ⟨size_after, table_after⟩ := ih (world.setIn id pair.1 pair.2)
      (size ▸ there) fun other m => size ▸ within other (List.mem_cons_of_mem pair m)
    refine ⟨size_after.trans size, fun other => ?_⟩
    refine (table_after other).trans ?_
    rw [World.table_setIn there key value, World.table_setIn there key value, if_pos rfl]
    split
    · rfl
    · rfl

/-- A table of some pairs is made behind all others. -/
theorem makeTableOf_spec (world : World) {pairs : List (Value × Value)}
    (within : ∀ pair ∈ pairs, pair.1.Within world.tables.size
      ∧ pair.2.Within world.tables.size) :
    ∃ after, (makeTableOf pairs).run world = (.table world.tables.size, after)
      ∧ World.Extends world after ∧ world.tables.size < after.tables.size
      ∧ after.table world.tables.size = .ofPairs pairs := by
  have size := World.size_newTable world
  have there : world.tables.size < world.newTable.tables.size := by omega
  obtain ⟨size_after, table_after⟩ := table_setAll world.newTable there fun pair m =>
    ⟨(within pair m).1.mono (Nat.le_of_lt there), (within pair m).2.mono (Nat.le_of_lt there)⟩
  refine ⟨_, rfl, ⟨?_, ?_⟩, ?_, ?_⟩
  · show _ ≤ ((setAll world.tables.size pairs).run world.newTable).2.tables.size
    omega
  · intro id lt
    refine (table_after id).trans ?_
    rw [if_neg (by omega), World.table_newTable]
  · show _ < ((setAll world.tables.size pairs).run world.newTable).2.tables.size
    omega
  · refine (table_after _).trans ?_
    rw [if_pos rfl, World.table_newTable, World.table_of_size_le (Nat.le_refl _)]
    rfl

/-! ## Entering -/

mutual

/-- A value that enters a script becomes an image, made of new tables. -/
theorem image_importValue : ∀ (value : ScriptHost.Value) (world : World),
    Image ((importValue value).run world).2 world.tables.size value
        ((importValue value).run world).1
      ∧ World.Extends world ((importValue value).run world).2
  | .nil, world => ⟨rfl, .refl world⟩
  | .boolean _, world => ⟨rfl, .refl world⟩
  | .integer _, world => ⟨rfl, .refl world⟩
  | .number _, world => ⟨rfl, .refl world⟩
  | .nan _, world => ⟨rfl, .refl world⟩
  | .string _, world => ⟨rfl, .refl world⟩
  | .host _, world => ⟨⟨world.serial, rfl⟩, ⟨Nat.le_refl _, fun _ _ => rfl⟩⟩
  | .array items, world => by
    obtain ⟨values, pairs_eq, images, grown⟩ := images_importItems items 0 world
    obtain ⟨after, made, further, larger, table_eq⟩ :=
      makeTableOf_spec ((importItems 0 items).run world).2 images.within
    -- The table of the array is made last, so the images of its items are in older tables.
    have run : (importValue (.array items)).run world
        = (.table ((importItems 0 items).run world).2.tables.size, after) := by
      show (makeTableOf ((importItems 0 items).run world).1).run
        ((importItems 0 items).run world).2 = _
      rw [pairs_eq, made]
    rw [run]
    refine ⟨⟨_, values, rfl, grown.size_le, larger, table_eq, ?_⟩, grown.trans further⟩
    exact images.of_extends further
  | .map entries, world => by
    obtain ⟨images, grown⟩ := images_importEntries entries world
    obtain ⟨after, made, further, larger, table_eq⟩ :=
      makeTableOf_spec ((importEntries entries).run world).2 images.within
    have run : (importValue (.map entries)).run world
        = (.table ((importEntries entries).run world).2.tables.size, after) := made
    rw [run]
    refine ⟨⟨_, _, rfl, grown.size_le, larger, table_eq, ?_⟩, grown.trans further⟩
    exact images.of_extends further

/-- The items of an array that enters become images, with their positions. -/
theorem images_importItems : ∀ (items : List ScriptHost.Value) (i : Nat) (world : World),
    ∃ values, ((importItems i items).run world).1 = itemPairs i values
      ∧ ItemImages ((importItems i items).run world).2 world.tables.size items values
      ∧ World.Extends world ((importItems i items).run world).2
  | [], i, world => ⟨[], rfl, rfl, .refl world⟩
  | item :: items, i, world => by
    obtain ⟨image, grown⟩ := image_importValue item world
    obtain ⟨values, pairs_eq, images, further⟩ :=
      images_importItems items (i + 1) ((importValue item).run world).2
    refine ⟨((importValue item).run world).1 :: values, ?_, ?_, grown.trans further⟩
    · show (position i, _)
        :: ((importItems (i + 1) items).run ((importValue item).run world).2).1 = _
      rw [pairs_eq]
      rfl
    -- The tables of the first item are older than those of the others, and stay as they are.
    · refine ⟨_, values, rfl, image.of_extends further, ?_⟩
      exact images.congr grown.size_le fun id _ there => ⟨there, rfl⟩

/-- The entries of a map that enters become images, with their keys as strings. -/
theorem images_importEntries : ∀ (entries : List (String × ScriptHost.Value)) (world : World),
    EntryImages ((importEntries entries).run world).2 world.tables.size entries
        ((importEntries entries).run world).1
      ∧ World.Extends world ((importEntries entries).run world).2
  | [], world => ⟨rfl, .refl world⟩
  | (key, value) :: entries, world => by
    obtain ⟨image, grown⟩ := image_importValue value world
    obtain ⟨images, further⟩ :=
      images_importEntries entries ((importValue value).run world).2
    refine ⟨⟨_, _, rfl, image.of_extends further, ?_⟩, grown.trans further⟩
    exact images.congr grown.size_le fun id _ there => ⟨there, rfl⟩

end

end ScriptHost.Script
