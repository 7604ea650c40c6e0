import Mathlib.Data.List.Nodup
import ScriptHost.Script.Table

/-!
# The entries of a table

* `Table.mem_entries` : the entries of a table are its keys with their values.
* `Table.find_ofPairs`, `Table.entries_ofPairs` : what a table holds that was made of some pairs.
* `Table.sequence?_ofItems` : the table of the values of an array has them as its sequence.
* `Table.Alike` : tables that differ in where their length is looked for only.
-/

namespace ScriptHost.Script.Table

/-! ## Positions -/

/-- The keys of different positions differ, as far as integers reach. -/
theorem position_injective {i j : Nat} (hi : i + 1 < Nat.pow 2 63) (hj : j + 1 < Nat.pow 2 63)
    (h : position i = position j) : i = j := by
  have same := congrArg Int64.toNatClampNeg (Value.integer.inj h)
  rw [Int64.toNatClampNeg_ofNat_of_lt hi, Int64.toNatClampNeg_ofNat_of_lt hj] at same
  omega

/-- The values of an array with their keys, from position `i` on. -/
def itemPairs (i : Nat) : List Value → List (Value × Value)
  | [] => []
  | value :: values => (position i, value) :: itemPairs (i + 1) values

theorem length_itemPairs (i : Nat) (values : List Value) :
    (itemPairs i values).length = values.length := by
  induction values generalizing i with
  | nil => rfl
  | cons value values ih => rw [itemPairs, List.length_cons, ih, List.length_cons]

theorem mem_itemPairs {i : Nat} {values : List Value} {pair : Value × Value} :
    pair ∈ itemPairs i values
      ↔ ∃ j, ∃ _ : j < values.length, pair = (position (i + j), values[j]) := by
  induction values generalizing i with
  | nil => simp [itemPairs]
  | cons value values ih =>
    rw [itemPairs, List.mem_cons, ih]
    constructor
    · rintro (rfl | ⟨j, lt, rfl⟩)
      · exact ⟨0, Nat.succ_pos _, rfl⟩
      · refine ⟨j + 1, Nat.succ_lt_succ lt, ?_⟩
        rw [List.getElem_cons_succ, Nat.add_right_comm, Nat.add_assoc]
    · rintro ⟨j, lt, rfl⟩
      cases j with
      | zero => exact .inl rfl
      | succ j =>
        refine .inr ⟨j, Nat.lt_of_succ_lt_succ lt, ?_⟩
        rw [List.getElem_cons_succ, Nat.add_right_comm, Nat.add_assoc]

theorem nodup_itemPairs {i : Nat} {values : List Value}
    (bounded : i + values.length < Nat.pow 2 63) :
    ((itemPairs i values).map Prod.fst).Nodup := by
  induction values generalizing i with
  | nil => exact List.nodup_nil
  | cons value values ih =>
    rw [List.length_cons] at bounded
    rw [itemPairs, List.map_cons, List.nodup_cons]
    refine ⟨?_, ih (by omega)⟩
    intro m
    obtain ⟨pair, m, same⟩ := List.mem_map.1 m
    obtain ⟨j, lt, rfl⟩ := mem_itemPairs.1 m
    have := position_injective (by omega) (by omega) same
    omega

/-! ## Entries -/

theorem mem_rowEntries_iff {items : Array Value} (bounded : items.size ≤ itemLimit)
    {key value : Value} :
    (key, value) ∈ rowEntries items 0 items.size
      ↔ value ≠ .nil ∧ ∃ i, itemIndex? items.size key = some i ∧ items[i]?.getD .nil = value := by
  constructor
  · intro m
    obtain ⟨ne, j, _, lt, pair⟩ := mem_rowEntries m
    obtain ⟨rfl, rfl⟩ := Prod.mk.inj pair
    refine ⟨ne, j, ?_, rfl⟩
    rw [itemIndex?_position (by omega), if_pos (by omega)]
  · rintro ⟨ne, i, index, rfl⟩
    have lt := lt_of_itemIndex? index
    rw [eq_position index]
    have found : (lookup? (position i) (rowEntries items 0 items.size)).getD .nil = _ :=
      lookup?_rowEntries (by omega) (Nat.zero_le i) (by omega)
    cases look : lookup? (position i) (rowEntries items 0 items.size) with
    | none =>
      rw [look] at found
      exact absurd found.symm ne
    | some value =>
      rw [look, Option.getD_some] at found
      rw [← found]
      exact mem_of_lookup? look

/-- The entries of a table, up to their order. -/
theorem entries_perm (table : Table) :
    table.entries.Perm
      (rowEntries table.items 0 table.items.size ++ table.others.toList) := by
  refine List.Perm.append_left _ ?_
  have sorted := (List.mergeSort_perm (table.others.toList.map fun entry =>
    ((table.slots.ranks.find? entry.1).getD table.slots.keys.size, entry))
    fun a b => a.1 ≤ b.1).map Prod.snd
  rw [List.map_map] at sorted
  exact sorted.trans (List.Perm.of_eq (List.map_id _))

/-- The entries of a table are its keys with their values. -/
theorem mem_entries {table : Table} {key value : Value} :
    (key, value) ∈ table.entries ↔ value ≠ .nil ∧ table.find key = value := by
  rw [table.entries_perm.mem_iff, List.mem_append, mem_rowEntries_iff table.size_items_le,
    KeyMap.mem_toList]
  unfold find
  cases index : itemIndex? table.items.size key with
  | some i =>
    have absent : table.others.find? key ≠ some value := by
      intro found
      rw [table.others_outside key value found] at index
      cases index
    simp [absent]
  | none =>
    simp only [reduceCtorEq, false_and, exists_false, and_false, false_or]
    constructor
    · intro found
      refine ⟨?_, by rw [found, Option.getD_some]⟩
      rintro rfl
      exact table.others_ne_nil key found
    · rintro ⟨ne, found⟩
      cases look : table.others.find? key with
      | none =>
        rw [look] at found
        exact absurd found.symm ne
      | some other =>
        rw [look, Option.getD_some] at found
        rw [found]

theorem nodup_entries (table : Table) : (table.entries.map Prod.fst).Nodup := by
  rw [(table.entries_perm.map Prod.fst).nodup_iff, List.map_append, List.nodup_append]
  have bounded := table.size_items_le
  refine ⟨nodup_rowEntries (by omega), table.others.nodup_toList, ?_⟩
  -- A key of the row is a position in it, and the other keys are not.
  rintro key row _ other rfl
  obtain ⟨entry, m, rfl⟩ := List.mem_map.1 row
  obtain ⟨_, i, index, _⟩ := (mem_rowEntries_iff bounded).1 m
  obtain ⟨outside, n, same⟩ := List.mem_map.1 other
  have := table.others_outside outside.1 outside.2 (table.others.mem_toList.1 n)
  rw [same, index] at this
  cases this

theorem size_eq_length (table : Table) : table.size = table.entries.length := by
  rw [table.entries_perm.length_eq, List.length_append, size]

/-! ## Tables of pairs -/

/-- Pairs whose keys are different, in the form in which tables keep them. -/
structure Distinct (pairs : List (Value × Value)) : Prop where
  nodup : (pairs.map Prod.fst).Nodup
  asKey : ∀ pair ∈ pairs, pair.1.asKey = pair.1

theorem find_empty (key : Value) : empty.find key = .nil := by
  unfold find
  split
  · next i index => exact absurd (lt_of_itemIndex? index) (Nat.not_lt_zero i)
  · rfl

/-- After some pairs are set, their keys have their values, and other keys have what they had. -/
theorem find_foldl_set {pairs : List (Value × Value)} (distinct : Distinct pairs) (table : Table)
    (key : Value) :
    (pairs.foldl (fun table pair => table.set pair.1 pair.2) table).find key
      = (lookup? key pairs).getD (table.find key) := by
  induction pairs generalizing table with
  | nil => rfl
  | cons pair pairs ih =>
    obtain ⟨absent, nodup⟩ := List.nodup_cons.1 distinct.nodup
    have rest : Distinct pairs :=
      ⟨nodup, fun other m => distinct.asKey other (List.mem_cons_of_mem pair m)⟩
    rw [List.foldl_cons, ih rest, find_set, distinct.asKey pair List.mem_cons_self, lookup?]
    by_cases same : pair.1 = key
    · rw [if_pos same, if_pos same, lookup?_eq_none]
      · rfl
      · intro other m e
        exact absent (same.trans e.symm ▸ List.mem_map_of_mem m)
    · rw [if_neg same, if_neg same]

theorem find_ofPairs {pairs : List (Value × Value)} (distinct : Distinct pairs) (key : Value) :
    (ofPairs pairs).find key = (lookup? key pairs).getD .nil := by
  rw [ofPairs, find_foldl_set distinct, find_empty]

/-- A table that was made of some pairs has those as its entries that have a value, in some
order. -/
theorem entries_of_find {pairs : List (Value × Value)} (distinct : Distinct pairs) {table : Table}
    (found : ∀ key, table.find key = (lookup? key pairs).getD .nil) :
    table.entries.Perm (pairs.filter fun pair => pair.2 ≠ .nil) := by
  have nodup : (pairs.filter fun pair => pair.2 ≠ .nil).Nodup :=
    (distinct.nodup.of_map Prod.fst).filter _
  refine (List.perm_ext_iff_of_nodup (table.nodup_entries.of_map Prod.fst) nodup).2 ?_
  rintro ⟨key, value⟩
  rw [mem_entries, found, List.mem_filter, ← lookup?_eq_some_iff distinct.nodup]
  cases lookup? key pairs with
  | none =>
    constructor
    · rintro ⟨ne, isNil⟩
      exact absurd isNil.symm ne
    · rintro ⟨found, _⟩
      cases found
  | some other =>
    rw [Option.getD_some, Option.some.injEq, decide_eq_true_eq]
    exact and_comm

theorem entries_ofPairs {pairs : List (Value × Value)} (distinct : Distinct pairs) :
    (ofPairs pairs).entries.Perm (pairs.filter fun pair => pair.2 ≠ .nil) :=
  entries_of_find distinct (find_ofPairs distinct)

/-! ## Sequences -/

/-- The values of a sequence are there, and there are not more of them than integers reach. -/
theorem of_sequence? {table : Table} {values : List Value} (h : table.sequence? = some values) :
    values ≠ [] ∧ .nil ∉ values ∧ values.length < Nat.pow 2 63 := by
  unfold sequence? at h
  split at h
  · cases h
  · next bounded =>
    dsimp only at h
    split at h
    · cases h
    · next proper =>
      cases h
      simp only [Bool.or_eq_true, List.isEmpty_iff, List.contains_iff_mem, not_or] at proper
      refine ⟨proper.1, proper.2, ?_⟩
      rw [List.length_map, List.length_range]
      exact Nat.lt_of_not_le bounded

theorem distinct_itemPairs {values : List Value} (bounded : values.length < Nat.pow 2 63) :
    Distinct (itemPairs 0 values) := by
  refine ⟨nodup_itemPairs (by omega), ?_⟩
  intro pair m
  obtain ⟨j, _, rfl⟩ := mem_itemPairs.1 m
  rfl

theorem itemPairs_append (i : Nat) (front back : List Value) :
    itemPairs i (front ++ back) = itemPairs i front ++ itemPairs (i + front.length) back := by
  induction front generalizing i with
  | nil => rfl
  | cons value front ih =>
    rw [List.cons_append, itemPairs, ih, itemPairs, List.cons_append, List.length_cons]
    rw [Nat.add_right_comm, Nat.add_assoc]

/-- The values of an array that are there, when no nil stands in front of another value. -/
theorem filter_itemPairs {front : List Value} (proper : .nil ∉ front) (count : Nat) :
    ((itemPairs 0 (front ++ List.replicate count .nil)).filter fun pair => pair.2 ≠ .nil)
      = itemPairs 0 front := by
  rw [itemPairs_append, List.filter_append]
  have there : (itemPairs 0 front).filter (fun pair => pair.2 ≠ .nil) = itemPairs 0 front := by
    refine List.filter_eq_self.2 fun pair m => ?_
    obtain ⟨j, lt, rfl⟩ := mem_itemPairs.1 m
    refine decide_eq_true fun isNil => proper ?_
    rw [← isNil]
    exact List.getElem_mem lt
  have lost : (itemPairs (0 + front.length) (List.replicate count .nil)).filter
      (fun pair => pair.2 ≠ .nil) = [] := by
    refine List.filter_eq_nil_iff.2 fun pair m => ?_
    obtain ⟨j, lt, rfl⟩ := mem_itemPairs.1 m
    simp
  rw [there, lost, List.append_nil]

/-- The table of the values of an array has them as its sequence, up to the last that is not
nil. -/
theorem sequence?_ofItems {front : List Value} (nonempty : front ≠ []) (proper : .nil ∉ front)
    (count : Nat) (bounded : (front ++ List.replicate count Value.nil).length < Nat.pow 2 63) :
    (ofPairs (itemPairs 0 (front ++ List.replicate count .nil))).sequence? = some front := by
  have distinct := distinct_itemPairs bounded
  have found := find_ofPairs distinct
  generalize ofPairs (itemPairs 0 (front ++ List.replicate count .nil)) = table at found
  -- The number of entries tells how many positions are looked at, and nils are no entries.
  have size : table.size = front.length := by
    rw [size_eq_length, (entries_of_find distinct found).length_eq, filter_itemPairs proper,
      length_itemPairs]
  have values : (List.range front.length).map (fun i => table.get (position i)) = front := by
    refine List.ext_getElem (by simp) fun i lt _ => ?_
    rw [List.length_map, List.length_range] at lt
    rw [List.getElem_map, List.getElem_range]
    have pair : (position i, front[i]) ∈ itemPairs 0 (front ++ List.replicate count .nil) := by
      rw [itemPairs_append]
      exact List.mem_append_left _ (mem_itemPairs.2 ⟨i, lt, by rw [Nat.zero_add]⟩)
    show table.find (position i) = _
    rw [found, (lookup?_eq_some_iff distinct.nodup).2 pair]
    rfl
  rw [List.length_append] at bounded
  unfold sequence?
  rw [size, if_neg (by omega)]
  dsimp only
  rw [values, if_neg]
  simp only [Bool.or_eq_true, List.isEmpty_iff, List.contains_iff_mem, not_or]
  exact ⟨nonempty, proper⟩

/-- A table without the first position has no sequence. -/
theorem sequence?_eq_none {table : Table} (absent : table.find (position 0) = .nil) :
    table.sequence? = none := by
  unfold sequence?
  split
  · rfl
  · dsimp only
    rw [if_pos]
    cases size : table.size with
    | zero => rfl
    | succ n =>
      have first : Value.nil ∈ (List.range (n + 1)).map fun i => table.get (position i) :=
        List.mem_map.2 ⟨0, List.mem_range.2 (Nat.succ_pos n), absent⟩
      simp only [Bool.or_eq_true, List.contains_iff_mem, first, or_true]

/-! ## Metatables -/

theorem metatable?_makeRoom (table : Table) (key : Value) :
    (table.makeRoom key).metatable? = table.metatable? := by
  unfold makeRoom
  dsimp only
  split
  · rfl
  · split
    · rfl
    · have grown : (table.grow key).metatable? = table.metatable? := rfl
      generalize table.grow key = after at grown
      split
      · exact grown
      · exact grown

theorem metatable?_settle (table : Table) (key value : Value) (ne : value ≠ .nil) :
    (table.settle key value ne).metatable? = table.metatable? := by
  unfold settle
  split <;> rfl

/-- Setting a value leaves the metatable alone. -/
theorem metatable?_set (table : Table) (key value : Value) :
    (table.set key value).metatable? = table.metatable? := by
  unfold set
  dsimp only
  split
  · rfl
  · split
    · rfl
    · split
      · rw [metatable?_settle]
      · rw [metatable?_settle, metatable?_makeRoom]

/-! ## Where the length is looked for -/

/-- Tables that differ in where their length is looked for only. -/
def Alike (table other : Table) : Prop := ∃ limit, other = { table with limit }

theorem Alike.refl (table : Table) : Alike table table := ⟨table.limit, rfl⟩

theorem Alike.trans {first second third : Table} (h : Alike first second)
    (k : Alike second third) : Alike first third := by
  obtain ⟨_, rfl⟩ := h
  obtain ⟨limit, rfl⟩ := k
  exact ⟨limit, rfl⟩

theorem alike_touch (table : Table) (key : Value) : Alike table (table.touch key) := by
  unfold touch
  split
  · exact ⟨_, rfl⟩
  · exact .refl table

end ScriptHost.Script.Table
