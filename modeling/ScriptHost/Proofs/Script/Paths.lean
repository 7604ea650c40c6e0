import Mathlib.Data.List.Perm.Subperm
import ScriptHost.Proofs.Script.Globals

/-!
# Paths through tables

A value leaves a script only if everything that it leads to does, so a value on a cycle of tables
never leaves, and a value is read alike in worlds that differ in tables it does not lead to.

* `World.Leads` : a value leads to a table along some entries.
* `exists_exportWithin_of_entry` : the entries of a table that leaves leave, too.
* `exportWithin_eq_error_of_cycle` : a value on a cycle does not leave.
* `exportWithin_congr_of_not_leads` : tables that a value does not lead to do not count.
* `World.export?_of_kept` : what becomes of a global when only the table of the globals changes.
-/

namespace ScriptHost.Script

open Table

/-! ## Sequences -/

namespace Table

/-- A table that is a sequence has the values at their positions, and no other entries. -/
theorem entries_of_sequence? {table : Table} {values : List Value}
    (h : table.sequence? = some values) : table.entries.Perm (itemPairs 0 values) := by
  obtain ⟨_, proper, bounded⟩ := of_sequence? h
  have made : values = (List.range table.size).map fun i => table.get (position i) := by
    unfold sequence? at h
    split at h
    · cases h
    · dsimp only at h
      split at h
      · cases h
      · exact (Option.some.inj h).symm
  have length : values.length = table.size := by rw [made, List.length_map, List.length_range]
  have there : itemPairs 0 values ⊆ table.entries := by
    intro pair m
    obtain ⟨j, lt, rfl⟩ := mem_itemPairs.1 m
    have found : table.get (position j) = values[j] := by
      simp [made]
    rw [Nat.zero_add]
    refine mem_entries.2 ⟨?_, found⟩
    intro isNil
    exact proper (isNil ▸ List.getElem_mem lt)
  have nodup : (itemPairs 0 values).Nodup := (distinct_itemPairs bounded).nodup.of_map Prod.fst
  -- There are as many entries as positions, so there are no further ones.
  have all : table.entries.length ≤ (itemPairs 0 values).length := by
    exact Nat.le_of_eq (by rw [length_itemPairs, length, size_eq_length])
  exact ((List.subperm_of_subset nodup there).perm_of_length_le all).symm

end Table

/-! ## What a value leads to -/

/-- A value leads to a table: it is that table, or one of its entries leads there. -/
inductive World.Leads (world : World) (target : Nat) : Value → Prop
  | here : World.Leads world target (.table target)
  | entry {id : Nat} {key value : Value} : (key, value) ∈ (world.table id).entries →
      World.Leads world target value → World.Leads world target (.table id)

variable {world other : World} {target : Nat}

/-- When a table leaves, what stands in its entries leaves, with one level less. -/
theorem exists_exportWithin_of_entry {depth id : Nat} {key value : Value}
    {out : ScriptHost.Value} (h : exportWithin world (depth + 1) (.table id) = .ok out)
    (m : (key, value) ∈ (world.table id).entries) :
    ∃ part, exportWithin world depth value = .ok part := by
  rw [exportWithin] at h
  split at h
  · next items sequence =>
    obtain ⟨values, left, _⟩ := map_eq_ok_iff.1 h
    have images := exportItems_eq_ok_iff.1 left
    have pair := (entries_of_sequence? sequence).mem_iff.1 m
    obtain ⟨j, lt, same⟩ := mem_itemPairs.1 pair
    have there : value ∈ items := (Prod.mk.inj same).2 ▸ List.getElem_mem lt
    obtain ⟨part, _, part_left⟩ := mem_left_of_forall₂ images there
    exact ⟨part, part_left⟩
  · obtain ⟨pairs, left, _⟩ := map_eq_ok_iff.1 h
    obtain ⟨pair, _, _, part_left⟩ := mem_left_of_forall₂ (exportEntries_eq_ok_iff.1 left) m
    exact ⟨pair.2, part_left⟩

/-- When a value leaves, the tables that it leads to leave. -/
theorem exists_exportWithin_of_leads {value : Value} (h : world.Leads target value)
    {depth : Nat} {out : ScriptHost.Value} (left : exportWithin world depth value = .ok out) :
    ∃ lower, lower ≤ depth ∧ ∃ part, exportWithin world lower (.table target) = .ok part := by
  induction h generalizing depth out with
  | here => exact ⟨depth, Nat.le_refl depth, out, left⟩
  | entry m _ ih =>
    cases depth with
    | zero => cases left
    | succ depth =>
      obtain ⟨part, part_left⟩ := exists_exportWithin_of_entry left m
      obtain ⟨lower, le, leaves⟩ := ih part_left
      exact ⟨lower, Nat.le_succ_of_le le, leaves⟩

/-- A table that leads back to itself does not leave. -/
theorem not_exportWithin_of_cycle {key value : Value}
    (m : (key, value) ∈ (world.table target).entries) (back : world.Leads target value)
    (depth : Nat) : ∀ out, exportWithin world depth (.table target) ≠ .ok out := by
  induction depth using Nat.strongRecOn with
  | ind depth ih =>
    intro out left
    cases depth with
    | zero => cases left
    | succ depth =>
      -- Once around the cycle there is a level less, and the table would have to leave again.
      obtain ⟨part, part_left⟩ := exists_exportWithin_of_entry left m
      obtain ⟨lower, le, again, again_left⟩ := exists_exportWithin_of_leads back part_left
      exact ih lower (Nat.lt_succ_of_le le) again again_left

/-- A value on a cycle of tables does not leave. -/
theorem exportWithin_eq_error_of_cycle {key value : Value}
    (m : (key, value) ∈ (world.table target).entries) (back : world.Leads target value)
    (depth : Nat) : ∃ error, exportWithin world depth value = .error error := by
  cases left : exportWithin world depth value with
  | error error => exact ⟨error, rfl⟩
  | ok out =>
    obtain ⟨lower, _, part, part_left⟩ := exists_exportWithin_of_leads back left
    exact absurd part_left (not_exportWithin_of_cycle m back lower part)

/-! ## Tables that a value does not lead to -/

theorem exportItems_congr {f g : Value → Except Error ScriptHost.Value} {items : List Value}
    (h : ∀ item ∈ items, f item = g item) : exportItems f items = exportItems g items := by
  induction items with
  | nil => rfl
  | cons item items ih =>
    have rest := ih fun value m => h value (List.mem_cons_of_mem item m)
    rw [exportItems, exportItems, h item List.mem_cons_self, rest]

theorem exportEntries_congr {f g : Value → Except Error ScriptHost.Value}
    {entries : List (Value × Value)} (h : ∀ entry ∈ entries, f entry.2 = g entry.2) :
    exportEntries f entries = exportEntries g entries := by
  induction entries with
  | nil => rfl
  | cons entry entries ih =>
    have rest := ih fun other m => h other (List.mem_cons_of_mem entry m)
    rw [exportEntries, exportEntries, h entry List.mem_cons_self, rest]

theorem entries_of_size_le {id : Nat} (h : world.tables.size ≤ id) :
    (world.table id).entries = [] := by
  rw [World.table_of_size_le h]
  refine List.eq_nil_iff_forall_not_mem.2 ?_
  rintro ⟨key, value⟩ m
  obtain ⟨ne, found⟩ := mem_entries.1 m
  rw [find_empty] at found
  exact ne found.symm

/-- What stands in the entries of a table refers to tables that are there. -/
theorem within_of_entry {id : Nat} {key value : Value}
    (m : (key, value) ∈ (world.table id).entries) : value.Within world.tables.size := by
  obtain ⟨ne, found⟩ := mem_entries.1 m
  rw [← found] at ne ⊢
  exact (world.within_table id key ne).2

/-- A value that does not lead to a table leaves alike, whatever that table holds and whatever
further tables there are. -/
theorem exportWithin_congr_of_not_leads
    (same : ∀ id, id ≠ target → id < world.tables.size → other.table id = world.table id)
    {value : Value} (within : value.Within world.tables.size)
    (away : ¬world.Leads target value) (depth : Nat) :
    exportWithin other depth value = exportWithin world depth value := by
  induction depth generalizing value with
  | zero => rfl
  | succ depth ih =>
    cases value with
    | table id =>
      have ne : id ≠ target := by
        rintro rfl
        exact away .here
      have table_eq := same id ne within
      have inner : ∀ entry ∈ (world.table id).entries,
          exportWithin other depth entry.2 = exportWithin world depth entry.2 := by
        rintro ⟨key, value⟩ m
        exact ih (within_of_entry m) fun leads => away (.entry m leads)
      rw [exportWithin, exportWithin, table_eq, exportEntries_congr inner]
      cases sequence : (world.table id).sequence? with
      | none => rfl
      | some items =>
        have items_eq : exportItems (exportWithin other depth) items
            = exportItems (exportWithin world depth) items := by
          refine exportItems_congr fun item m => ?_
          obtain ⟨j, lt, rfl⟩ := List.mem_iff_getElem.1 m
          have pair : (position (0 + j), items[j]) ∈ (world.table id).entries :=
            (entries_of_sequence? sequence).mem_iff.2 (mem_itemPairs.2 ⟨j, lt, rfl⟩)
          exact inner _ pair
        simp only [items_eq]
    | _ => rfl

/-- What a value leads to does not depend on the entries of that table. -/
theorem World.Leads.congr
    (same : ∀ id, id ≠ target → id < world.tables.size → other.table id = world.table id)
    {value : Value} (h : world.Leads target value) : other.Leads target value := by
  induction h with
  | here => exact .here
  | @entry id _ _ m _ ih =>
    by_cases isTarget : id = target
    · subst isTarget
      exact .here
    · have there : id < world.tables.size := by
        by_contra beyond
        rw [entries_of_size_le (Nat.le_of_not_lt beyond)] at m
        cases m
      rw [← same id isTarget there] at m
      exact .entry m ih

/-! ## Globals -/

namespace World

/-- A global that is set leaves all tables alone but that of the globals. -/
theorem table_withGlobal_of_ne {id : Nat} (name : String) (value : ScriptHost.Value)
    (ne : id ≠ globals) (there : id < world.tables.size) :
    (world.withGlobal name value).table id = world.table id := by
  unfold withGlobal
  rw [table_setIn_of_ne (Ne.symm ne)]
  exact (image_importValue value world).2.table_eq id there

theorem mem_entries_globals {name : String} (ne : world.globalNamed name ≠ .nil) :
    (Value.ofString name, world.globalNamed name) ∈ (world.table globals).entries :=
  mem_entries.2 ⟨ne, rfl⟩

/-- A global whose value leads to the table of the globals lies on a cycle. -/
theorem export?_eq_error_of_leads {name : String}
    (h : world.Leads globals (world.globalNamed name)) :
    ∃ error, export? world (world.globalNamed name) = .error error := by
  have ne : world.globalNamed name ≠ .nil := by
    intro isNil
    rw [isNil] at h
    cases h
  exact exportWithin_eq_error_of_cycle (mem_entries_globals ne) h _

theorem within_globalNamed (world : World) (name : String) :
    (world.globalNamed name).Within world.tables.size := by
  by_cases isNil : world.globalNamed name = .nil
  · rw [isNil]
    trivial
  · exact within_of_entry (mem_entries_globals isNil)

/-- A global that stays leaves as before when only the table of the globals changes and further
tables are made. Only the error may be another one, when the global leads back to that table. -/
theorem export?_of_kept {other : World} {name : String}
    (same : ∀ id, id ≠ globals → id < world.tables.size → other.table id = world.table id)
    (kept : other.globalNamed name = world.globalNamed name) :
    export? other (other.globalNamed name) = export? world (world.globalNamed name)
      ∨ world.Leads globals (world.globalNamed name)
        ∧ (∃ error, export? world (world.globalNamed name) = .error error)
        ∧ ∃ error, export? other (other.globalNamed name) = .error error := by
  by_cases leads : world.Leads globals (world.globalNamed name)
  · right
    refine ⟨leads, export?_eq_error_of_leads leads, export?_eq_error_of_leads ?_⟩
    rw [kept]
    exact leads.congr same
  · left
    rw [kept]
    exact exportWithin_congr_of_not_leads same (world.within_globalNamed name) leads _

/-- When a global is set, the others leave the script as before. Only those that lead to the table
of the globals itself may see the change: they do not leave, before and after. -/
theorem export?_withGlobal_of_ne (world : World) {name other : String}
    (value : ScriptHost.Value) (ne : other ≠ name) :
    export? (world.withGlobal name value) ((world.withGlobal name value).globalNamed other)
        = export? world (world.globalNamed other)
      ∨ world.Leads globals (world.globalNamed other)
        ∧ (∃ error, export? world (world.globalNamed other) = .error error)
        ∧ ∃ error, export? (world.withGlobal name value)
            ((world.withGlobal name value).globalNamed other) = .error error := by
  refine export?_of_kept (fun id differ there => table_withGlobal_of_ne name value differ there) ?_
  rw [globalNamed_withGlobal, if_neg (Ne.symm ne)]

end World

end ScriptHost.Script
