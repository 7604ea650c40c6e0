import ScriptHost.Proofs.Script.Tables

/-!
# Tables with other values

What a table is made of depends on its keys, and on where there is a value, but not on what the
values are. When values are replaced by others, and nil by nil only, then all operations give the
same with the values replaced.

* `KeyMap.map` : a map with other values.
* `KeepsNil`, `Table.replace` : a table with other values.
* `Table.replace_set`, `Table.replace_ofPairs` : setting values before or after they are replaced.
* `Table.entries_replace`, `Table.sequence?_replace` : what is read of the table.
-/

namespace ScriptHost.Script

/-! ## Lists of keys -/

section

variable {α β : Type} (f : α → β)

theorem lookup?_map (key : Value) (entries : List (Value × α)) :
    lookup? key (entries.map (Prod.map id f)) = (lookup? key entries).map f := by
  induction entries with
  | nil => rfl
  | cons entry entries ih =>
    obtain ⟨other, a⟩ := entry
    show (if other = key then some (f a) else _) = Option.map f (if other = key then some a else _)
    rw [ih]
    split <;> rfl

theorem map_putEntry (key : Value) (a : α) (entries : List (Value × α)) :
    (putEntry key a entries).map (Prod.map id f)
      = putEntry key (f a) (entries.map (Prod.map id f)) := by
  induction entries with
  | nil => rfl
  | cons entry entries ih =>
    obtain ⟨other, b⟩ := entry
    show List.map _ (if other = key then _ else _) = if other = key then _ else _
    split
    · rfl
    · rw [List.map_cons, ih]
      rfl

/-- Keys are picked alike, whatever they have. -/
theorem filter_map_keys (keep : Value → Bool) (entries : List (Value × α)) :
    (entries.map (Prod.map id f)).filter (fun entry => keep entry.1)
      = (entries.filter fun entry => keep entry.1).map (Prod.map id f) := List.filter_map

theorem keys_map (entries : List (Value × α)) :
    (entries.map (Prod.map id f)).map Prod.fst = entries.map Prod.fst := by
  rw [List.map_map]
  rfl

end

/-! ## Trees and maps -/

namespace KeyTree

variable {α β : Type} (f : α → β)

/-- A tree with other values. -/
def map : KeyTree α → KeyTree β
  | leaf entries => leaf (entries.map (Prod.map id f))
  | branch left right => branch left.map right.map

theorem toList_map (tree : KeyTree α) : (tree.map f).toList = tree.toList.map (Prod.map id f) := by
  induction tree with
  | leaf entries => rfl
  | branch left right ihl ihr => rw [map, toList, toList, ihl, ihr, List.map_append]

theorem Proper.map {tree : KeyTree α} {level : Nat} (h : tree.Proper level) :
    (tree.map f).Proper level := by
  induction tree generalizing level with
  | leaf entries =>
    show ((entries.map (Prod.map id f)).map Prod.fst).Nodup
    rw [keys_map]
    exact h
  | branch left right ihl ihr =>
    obtain ⟨onLeft, onRight, properLeft, properRight⟩ := h
    refine ⟨?_, ?_, ihl properLeft, ihr properRight⟩
    · rw [toList_map, List.forall_mem_map]
      exact onLeft
    · rw [toList_map, List.forall_mem_map]
      exact onRight

theorem find?_map (key : Value) (mark level : Nat) (tree : KeyTree α) :
    (tree.map f).find? key mark level = (tree.find? key mark level).map f := by
  induction tree generalizing level with
  | leaf entries => exact lookup?_map f key entries
  | branch left right ihl ihr =>
    rw [map, find?, find?, ihl, ihr]
    split <;> rfl

theorem map_insert (key : Value) (a : α) (mark level : Nat) (tree : KeyTree α) :
    (tree.insert key a mark level).map f = (tree.map f).insert key (f a) mark level := by
  induction tree generalizing level with
  | leaf entries =>
    have right := filter_map_keys f (fun key => isRight level key) entries
    have left := filter_map_keys f (fun key => !isRight level key) entries
    rw [insert, map, insert, List.length_map]
    dsimp only
    rw [right, left, ← map_putEntry, ← map_putEntry, ← map_putEntry]
    split
    · rfl
    · split <;> rfl
  | branch left right ihl ihr =>
    rw [insert, map, insert, ← ihl, ← ihr]
    split <;> rfl

theorem map_erase (key : Value) (mark level : Nat) (tree : KeyTree α) :
    (tree.erase key mark level).map f = (tree.map f).erase key mark level := by
  induction tree generalizing level with
  | leaf entries =>
    rw [erase, map, map, erase]
    exact congrArg leaf (filter_map_keys f (fun other => decide (other ≠ key)) entries).symm
  | branch left right ihl ihr =>
    rw [erase, map, erase, ← ihl, ← ihr]
    split <;> rfl

theorem map_filter (keep : Value → Bool) (tree : KeyTree α) :
    (tree.filter keep).map f = (tree.map f).filter keep := by
  induction tree with
  | leaf entries => exact congrArg leaf (filter_map_keys f keep entries).symm
  | branch left right ihl ihr => rw [filter, map, ihl, ihr, map, filter]

end KeyTree

namespace KeyMap

variable {α β : Type} (f : α → β)

theorem eq_of_tree_eq {map other : KeyMap α} (h : map.tree = other.tree) : map = other := by
  cases map
  cases other
  cases h
  rfl

/-- A map with other values. -/
def map (map : KeyMap α) : KeyMap β := ⟨map.tree.map f, map.proper.map f⟩

theorem toList_map (map : KeyMap α) : (map.map f).toList = map.toList.map (Prod.map id f) :=
  KeyTree.toList_map f map.tree

theorem find?_map (map : KeyMap α) (key : Value) : (map.map f).find? key = (map.find? key).map f :=
  KeyTree.find?_map f key key.mark 0 map.tree

theorem map_insert (map : KeyMap α) (key : Value) (a : α) :
    (map.insert key a).map f = (map.map f).insert key (f a) :=
  eq_of_tree_eq (KeyTree.map_insert f key a key.mark 0 map.tree)

theorem map_erase (map : KeyMap α) (key : Value) : (map.erase key).map f = (map.map f).erase key :=
  eq_of_tree_eq (KeyTree.map_erase f key key.mark 0 map.tree)

theorem map_filter (map : KeyMap α) (keep : Value → Bool) :
    (map.filter keep).map f = (map.map f).filter keep :=
  eq_of_tree_eq (KeyTree.map_filter f keep map.tree)

theorem map_insertAll (map : KeyMap α) (entries : List (Value × α)) :
    (map.insertAll entries).map f = (map.map f).insertAll (entries.map (Prod.map id f)) := by
  induction entries with
  | nil => rfl
  | cons entry entries ih =>
    show ((map.insertAll entries).insert entry.1 entry.2).map f = _
    rw [map_insert, ih]
    rfl

end KeyMap

/-! ## Tables -/

/-- The function gives nil for nil, and for nothing else. -/
def KeepsNil (f : Value → Value) : Prop := ∀ value, f value = .nil ↔ value = .nil

namespace Table

variable {f : Value → Value}

theorem eq_of_parts_eq {table other : Table} (items : table.items = other.items)
    (others : table.others = other.others) (slots : table.slots = other.slots)
    (limit : table.limit = other.limit) (metatable : table.metatable? = other.metatable?) :
    table = other := by
  cases table
  cases other
  cases items
  cases others
  cases slots
  cases limit
  cases metatable
  rfl

/-- A table with other values. -/
def replace (keeps : KeepsNil f) (table : Table) : Table where
  items := table.items.map f
  others := table.others.map f
  slots := table.slots
  limit := table.limit
  metatable? := table.metatable?
  size_items_le := by
    rw [Array.size_map]
    exact table.size_items_le
  others_ne_nil := by
    intro key found
    rw [KeyMap.find?_map, Option.map_eq_some_iff] at found
    obtain ⟨value, found, isNil⟩ := found
    rw [(keeps value).1 isNil] at found
    exact table.others_ne_nil key found
  others_outside := by
    intro key value found
    rw [KeyMap.find?_map, Option.map_eq_some_iff] at found
    obtain ⟨value, found, _⟩ := found
    rw [Array.size_map]
    exact table.others_outside key value found

theorem getD_map (keeps : KeepsNil f) (items : Array Value) (i : Nat) :
    (items.map f)[i]?.getD .nil = f (items[i]?.getD .nil) := by
  rw [Array.getElem?_map]
  cases items[i]? with
  | none => exact ((keeps .nil).2 rfl).symm
  | some value => rfl

theorem rowEntries_map (keeps : KeepsNil f) (items : Array Value) (i count : Nat) :
    rowEntries (items.map f) i count = (rowEntries items i count).map (Prod.map id f) := by
  induction count generalizing i with
  | zero => rfl
  | succ count ih =>
    rw [rowEntries, rowEntries, getD_map keeps, ih]
    by_cases isNil : items[i]?.getD .nil = .nil
    · rw [if_pos isNil, if_pos ((keeps _).2 isNil)]
    · rw [if_neg isNil, if_neg fun h => isNil ((keeps _).1 h)]
      rfl

variable (keeps : KeepsNil f)

theorem find_replace (table : Table) (key : Value) :
    (table.replace keeps).find key = f (table.find key) := by
  have items : (table.replace keeps).items = table.items.map f := rfl
  have others : (table.replace keeps).others = table.others.map f := rfl
  rw [find, find, items, others, Array.size_map, KeyMap.find?_map]
  cases itemIndex? table.items.size key with
  | some i => exact getD_map keeps table.items i
  | none =>
    cases table.others.find? key with
    | none => exact ((keeps .nil).2 rfl).symm
    | some value => rfl

/-! ### Making room -/

theorem isSome_find?_replace (table : Table) (key : Value) :
    ((table.replace keeps).others.find? key).isSome = (table.others.find? key).isSome := by
  show ((table.others.map f).find? key).isSome = _
  rw [KeyMap.find?_map, Option.isSome_map]

theorem replace_layOut (table : Table) (count capacity : Nat) :
    (table.layOut count capacity).replace keeps = (table.replace keeps).layOut count capacity := by
  have spilled (size : Nat) : rowEntries (table.replace keeps).items size
        ((table.replace keeps).items.size - size)
      = (rowEntries table.items size (table.items.size - size)).map (Prod.map id f) := by
    show rowEntries (table.items.map f) size ((table.items.map f).size - size) = _
    rw [Array.size_map, rowEntries_map keeps]
  refine eq_of_parts_eq ?_ ?_ ?_ rfl rfl
  · show (Array.ofFn _).map f = Array.ofFn _
    rw [Array.map_ofFn]
    congr 1
    funext i
    exact (find_replace keeps table _).symm
  · show (table.outsideOf _).map f = (table.replace keeps).outsideOf _
    rw [outsideOf, outsideOf, spilled, KeyMap.map_insertAll, KeyMap.map_filter]
    rfl
  · show Slots.ofKeys _ _ = Slots.ofKeys _ _
    rw [spilled, keys_map]
    simp only [isSome_find?_replace]
    rfl

theorem countBetween_replace (table : Table) (low high : Nat) :
    (table.replace keeps).countBetween low high = table.countBetween low high := by
  unfold countBetween
  congr 1
  · have part (items : Array Value) (step : Nat → Value → Nat) :
        items.foldl step 0 low high = (items.extract low high).foldl step 0 :=
      Array.foldl_eq_foldl_extract
    show (table.items.map f).foldl _ 0 low high = _
    rw [part, part, ← Array.map_extract, Array.foldl_map]
    simp only [keeps _]
  · show (table.others.map f).toList.countP _ = _
    rw [KeyMap.toList_map, List.countP_map]
    rfl

theorem replace_grow (table : Table) (key : Value) :
    (table.grow key).replace keeps = (table.replace keeps).grow key := by
  have size : (table.replace keeps).items.size = table.items.size := Array.size_map
  have others : (table.replace keeps).others.toList.length = table.others.toList.length := by
    show (table.others.map f).toList.length = _
    rw [KeyMap.toList_map, List.length_map]
  unfold grow
  dsimp only
  rw [replace_layOut]
  simp only [countBetween_replace, size, others]

theorem replace_makeRoom (table : Table) (key : Value) :
    (table.makeRoom key).replace keeps = (table.replace keeps).makeRoom key := by
  have size : ((table.replace keeps).grow key).items.size = (table.grow key).items.size := by
    rw [← replace_grow]
    exact Array.size_map
  have same : (table.replace keeps).slots = table.slots := rfl
  unfold makeRoom
  simp only [isSome_find?_replace, same, size]
  split
  · rfl
  · split
    · rfl
    · rw [apply_ite (replace keeps), replace_grow]
      split
      · rfl
      · refine eq_of_parts_eq ?_ ?_ ?_ ?_ ?_
        all_goals
          rw [← replace_grow]
          rfl

/-! ### Setting values -/

theorem replace_setItem (table : Table) (i : Nat) (value : Value) :
    (table.setItem i value).replace keeps = (table.replace keeps).setItem i (f value) := by
  refine eq_of_parts_eq ?_ rfl rfl rfl rfl
  show (table.items.setIfInBounds i value).map f = (table.items.map f).setIfInBounds i (f value)
  exact Array.map_setIfInBounds

theorem replace_setOther (table : Table) (key value : Value) (ne : value ≠ .nil)
    (outside : itemIndex? table.items.size key = none) (ne_after : f value ≠ .nil)
    (outside_after : itemIndex? (table.replace keeps).items.size key = none) :
    (table.setOther key value ne outside).replace keeps
      = (table.replace keeps).setOther key (f value) ne_after outside_after :=
  eq_of_parts_eq rfl (KeyMap.map_insert f table.others key value) rfl rfl rfl

theorem replace_eraseOther (table : Table) (key : Value) :
    (table.eraseOther key).replace keeps = (table.replace keeps).eraseOther key :=
  eq_of_parts_eq rfl (KeyMap.map_erase f table.others key) rfl rfl rfl

theorem replace_settle (table : Table) (key value : Value) (ne : value ≠ .nil)
    (ne_after : f value ≠ .nil) :
    (table.settle key value ne).replace keeps
      = (table.replace keeps).settle key (f value) ne_after := by
  have size : (table.replace keeps).items.size = table.items.size := Array.size_map
  unfold settle
  split
  · next i index =>
    split
    · next j other =>
      rw [size, index] at other
      cases other
      exact replace_setItem keeps table i value
    · next other =>
      rw [size, index] at other
      cases other
  · next outside =>
    split
    · next j other =>
      rw [size, outside] at other
      cases other
    · exact replace_setOther keeps table key value ne outside ne_after _

/-- A value is set before or after all are replaced. -/
theorem replace_set (table : Table) (key value : Value) :
    (table.set key value).replace keeps = (table.replace keeps).set key (f value) := by
  have size : (table.replace keeps).items.size = table.items.size := Array.size_map
  unfold set
  simp only [size, isSome_find?_replace]
  cases itemIndex? table.items.size key.asKey with
  | some i => exact replace_setItem keeps table i value
  | none =>
    dsimp only
    by_cases isNil : value = .nil
    · rw [dif_pos isNil, dif_pos ((keeps value).2 isNil)]
      exact replace_eraseOther keeps table key.asKey
    · rw [dif_neg isNil, dif_neg fun h => isNil ((keeps value).1 h), apply_ite (replace keeps),
        replace_settle, replace_settle, replace_makeRoom]

/-- The values of a table are replaced before or after it is made. -/
theorem replace_ofPairs (pairs : List (Value × Value)) :
    (ofPairs pairs).replace keeps = ofPairs (pairs.map (Prod.map id f)) := by
  have general (table : Table) :
      (pairs.foldl (fun table pair => table.set pair.1 pair.2) table).replace keeps
        = (pairs.map (Prod.map id f)).foldl (fun table pair => table.set pair.1 pair.2)
          (table.replace keeps) := by
    induction pairs generalizing table with
    | nil => rfl
    | cons pair pairs ih =>
      rw [List.foldl_cons, ih, replace_set]
      rfl
  have nothing : empty.replace keeps = empty := eq_of_parts_eq Array.map_empty rfl rfl rfl rfl
  rw [ofPairs, general, nothing]
  rfl

/-! ### Reading -/

theorem entries_replace (table : Table) :
    (table.replace keeps).entries = table.entries.map (Prod.map id f) := by
  have row : rowEntries (table.replace keeps).items 0 (table.replace keeps).items.size
      = (rowEntries table.items 0 table.items.size).map (Prod.map id f) := by
    show rowEntries (table.items.map f) 0 (table.items.map f).size = _
    rw [Array.size_map, rowEntries_map keeps]
  have others : (table.replace keeps).others.toList
      = table.others.toList.map (Prod.map id f) := KeyMap.toList_map f table.others
  have slots : (table.replace keeps).slots = table.slots := rfl
  unfold entries
  dsimp only
  rw [row, others, slots, List.map_append]
  congr 1
  -- The keys are sorted by their slots, which do not depend on the values.
  generalize table.slots.ranks = ranks
  generalize table.slots.keys.size = last
  have ranked : (table.others.toList.map (Prod.map id f)).map
        (fun entry => ((ranks.find? entry.1).getD last, entry))
      = (table.others.toList.map fun entry => ((ranks.find? entry.1).getD last, entry)).map
        (Prod.map id (Prod.map id f)) := by
    rw [List.map_map, List.map_map]
    rfl
  have sorted (ranked : List (Nat × Value × Value)) :
      (ranked.map (Prod.map id (Prod.map id f))).mergeSort (fun a b => a.1 ≤ b.1)
        = (ranked.mergeSort fun a b => a.1 ≤ b.1).map (Prod.map id (Prod.map id f)) := by
    symm
    apply List.map_mergeSort
    exact fun _ _ _ _ => rfl
  rw [ranked, sorted, List.map_map, List.map_map]
  rfl

theorem size_replace (table : Table) : (table.replace keeps).size = table.size := by
  rw [size_eq_length, size_eq_length, entries_replace, List.length_map]

theorem sequence?_replace (table : Table) :
    (table.replace keeps).sequence? = table.sequence?.map (List.map f) := by
  have values : (List.range table.size).map (fun i => (table.replace keeps).get (position i))
      = ((List.range table.size).map fun i => table.get (position i)).map f := by
    rw [List.map_map]
    exact List.map_congr_left fun i _ => find_replace keeps table _
  unfold sequence?
  rw [size_replace]
  split
  · rfl
  · dsimp only
    rw [values]
    generalize (List.range table.size).map (fun i => table.get (position i)) = found
    have absent : (found.map f).contains .nil = found.contains .nil := by
      simp [keeps _]
    rw [absent, List.isEmpty_map]
    split <;> rfl

end Table

end ScriptHost.Script
