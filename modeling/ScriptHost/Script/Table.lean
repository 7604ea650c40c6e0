import ScriptHost.Script.Entries
import ScriptHost.Script.Slots

/-!
# Tables

A table holds values under keys, and perhaps a metatable. The values under the first positions are
its items, in a row; a map has those of all other keys. How long the row is follows from the keys
that the table had when it last ran out of slots. Only the length of a table with gaps and the order
of its keys depend on that.

* `Table.get`, `Table.set` : the operations.
* `Table.get_set` : what is set is found, and other keys keep their values.
* `Table.length` : a position with a value that is followed by one without.
* `Table.entries` : the keys with their values, in order.
* `Table.sequence?` : the values of a table whose keys are the numbers from one up to its size.
-/

namespace ScriptHost.Script

/-! ## The type -/

open Table in
/-- A table of the script language. -/
structure Table where
  /-- The values under the first positions; nil stands where there is none. -/
  items : Array Value := #[]
  /-- The values of all other keys. -/
  others : KeyMap Value := .empty
  slots : Slots := {}
  /-- Where the length is looked for first. -/
  limit : Nat := 0
  /-- The table that says how operators treat this one. -/
  metatable? : Option Nat := none
  size_items_le : items.size ≤ itemLimit := by simp
  others_ne_nil : ∀ key, others.find? key ≠ some .nil := by simp [KeyMap.find?_empty]
  others_outside : ∀ key value, others.find? key = some value → itemIndex? items.size key = none :=
    by simp [KeyMap.find?_empty]

namespace Table

/-- A table without entries. -/
def empty : Table := {}

/-- The value under a key in the form in which keys are kept. -/
def find (table : Table) (key : Value) : Value :=
  match itemIndex? table.items.size key with
  | some i => table.items[i]?.getD .nil
  | none => (table.others.find? key).getD .nil

/-- The value under a key, nil when there is none. -/
def get (table : Table) (key : Value) : Value := table.find key.asKey

/-! ## Layout -/

/-- The values of the keys that a row of `size` items leaves outside: of those that it gives up, and
of those that it does not take in. -/
def outsideOf (table : Table) (size : Nat) : KeyMap Value :=
  (table.others.filter fun key => itemIndex? size key = none).insertAll
    (rowEntries table.items size (table.items.size - size))

theorem find?_outsideOf (table : Table) (size : Nat) (key : Value) :
    (table.outsideOf size).find? key
      = (lookup? key (rowEntries table.items size (table.items.size - size))).or
        (if itemIndex? size key = none then table.others.find? key else none) := by
  rw [outsideOf, KeyMap.find?_insertAll, KeyMap.find?_filter]
  by_cases h : itemIndex? size key = none <;> simp [h]

theorem outsideOf_ne_nil (table : Table) (size : Nat) (key : Value) :
    (table.outsideOf size).find? key ≠ some .nil := by
  rw [find?_outsideOf]
  intro h
  rcases Option.or_eq_some_iff.1 h with h | ⟨-, h⟩
  · exact (mem_rowEntries (mem_of_lookup? h)).1 rfl
  · split at h
    · exact table.others_ne_nil key h
    · simp at h

theorem itemIndex?_outsideOf (table : Table) (size : Nat) (key value : Value)
    (h : (table.outsideOf size).find? key = some value) : itemIndex? size key = none := by
  rw [find?_outsideOf] at h
  rcases Option.or_eq_some_iff.1 h with h | ⟨-, h⟩
  · obtain ⟨-, j, le, lt, e⟩ := mem_rowEntries (mem_of_lookup? h)
    have := table.size_items_le
    rw [(Prod.mk.inj e).1, itemIndex?_position (by omega), if_neg (by omega)]
  · split at h
    · next outside => exact outside
    · simp at h

/-- The same entries in a row of `count` items and in slots for so many other keys. -/
def layOut (table : Table) (count capacity : Nat) : Table :=
  let size := min count itemLimit
  let spilled := rowEntries table.items size (table.items.size - size)
  let isLive (key : Value) : Bool := !table.slots.stale || (table.others.find? key).isSome
  { items := Array.ofFn fun i : Fin size => table.find (position i)
    others := table.outsideOf size
    slots := .ofKeys capacity
      (spilled.map Prod.fst ++ table.slots.keys.toList.filter fun key =>
        key ≠ .nil && itemIndex? size key = none && isLive key)
    limit := size
    metatable? := table.metatable?
    size_items_le := by rw [Array.size_ofFn]; exact Nat.min_le_right ..
    others_ne_nil := table.outsideOf_ne_nil size
    others_outside := by rw [Array.size_ofFn]; exact table.itemIndex?_outsideOf size }

/-- Whether a key names a position above `low` and up to `high`. -/
def isBetween (low high : Nat) : Value → Bool
  | .integer n => low < n.toNatClampNeg && n.toNatClampNeg ≤ high
  | _ => false

/-- How many positions above `low` and up to `high` have a value. -/
def countBetween (table : Table) (low high : Nat) : Nat :=
  table.items.foldl (fun count item => if item = .nil then count else count + 1) 0 low high
    + table.others.toList.countP fun entry => isBetween low high entry.1

/-- The greatest power of two more than half of whose positions have a value. The powers are tried
from `n` on, of which `best` is the latest that fits; `half` positions up to half of `n` have a
value, and `total` positions in all. -/
def rowSizeFrom (count : Nat → Nat → Nat) (total : Nat) : Nat → Nat → Nat → Nat → Nat
  | 0, _, _, best => best
  | bound + 1, n, half, best =>
    if total ≤ n / 2 then best
    else
      let used := half + count (n / 2) n
      rowSizeFrom count total bound (2 * n) used (if n / 2 < used then n else best)

/-- Lays out a table so that a new key finds a place. -/
def grow (table : Table) (key : Value) : Table :=
  let count (low high : Nat) : Nat :=
    table.countBetween low high + if isBetween low high key then 1 else 0
  let positions := count 0 (Nat.pow 2 31)
  let size := rowSizeFrom count positions 32 1 0 0
  let others :=
    table.countBetween 0 table.items.size + table.others.toList.length + 1 - count 0 size
  table.layOut size others

/-- Gives a key without a value a place. -/
def makeRoom (table : Table) (key : Value) : Table :=
  let isLive (key : Value) : Bool :=
    key ≠ .nil && (!table.slots.stale || (table.others.find? key).isSome)
  if table.slots.isStale key then table
  else match table.slots.choose? isLive key with
    | some placing => { table with slots := table.slots.put key placing }
    | none =>
      let table := table.grow key
      if (itemIndex? table.items.size key).isSome then table
      else { table with slots := table.slots.placeAll [key] }

theorem find_layOut (table : Table) (count capacity : Nat) (key : Value) :
    (table.layOut count capacity).find key = table.find key := by
  have le := table.size_items_le
  unfold find
  simp only [layOut, Array.size_ofFn]
  generalize hs : min count itemLimit = size
  have bounded : size ≤ itemLimit := hs ▸ Nat.min_le_right ..
  cases h : itemIndex? size key with
  | some i =>
    have lt := lt_of_itemIndex? h
    simp only [Array.getElem?_ofFn, lt, dite_true, Option.getD_some]
    rw [← eq_position h]
    rfl
  | none =>
    rw [find?_outsideOf, if_pos h]
    cases old : itemIndex? table.items.size key with
    | some j =>
      have lt := lt_of_itemIndex? old
      have e := eq_position old
      subst e
      have ge : size ≤ j := by
        rw [itemIndex?_position (by omega)] at h
        simpa using h
      have absent : table.others.find? (position j) = none := by
        refine Option.eq_none_iff_forall_ne_some.2 fun value found => ?_
        have := table.others_outside _ value found
        rw [old] at this
        exact Option.some_ne_none _ this
      rw [absent, Option.or_none]
      exact lookup?_rowEntries (by omega) ge (by omega)
    | none =>
      rw [lookup?_eq_none, Option.none_or]
      intro entry m e
      obtain ⟨-, j, ge, lt, rfl⟩ := mem_rowEntries m
      rw [← e, itemIndex?_position (by omega), if_pos (by omega)] at old
      exact Option.some_ne_none _ old

theorem find_makeRoom (table : Table) (key other : Value) :
    (table.makeRoom key).find other = table.find other := by
  unfold makeRoom
  dsimp only
  split
  · rfl
  · split
    · rfl
    · have grown : (table.grow key).find other = table.find other := by
        unfold grow
        exact find_layOut ..
      generalize table.grow key = after at grown
      split
      · exact grown
      · exact grown

/-! ## Setting values -/

/-- Sets the value at a place of the row. -/
def setItem (table : Table) (i : Nat) (value : Value) : Table :=
  { table with
    items := table.items.setIfInBounds i value
    limit := max table.limit (i + 1)
    size_items_le := by rw [Array.size_setIfInBounds]; exact table.size_items_le
    others_outside := by rw [Array.size_setIfInBounds]; exact table.others_outside }

/-- Sets the value of a key that is not in the row. -/
def setOther (table : Table) (key value : Value) (ne : value ≠ .nil)
    (outside : itemIndex? table.items.size key = none) : Table :=
  { table with
    others := table.others.insert key value
    others_ne_nil := fun other found => by
      rw [KeyMap.find?_insert] at found
      split at found
      · exact ne (Option.some.inj found)
      · exact table.others_ne_nil other found
    others_outside := fun other a found => by
      rw [KeyMap.find?_insert] at found
      split at found
      · next e => exact e ▸ outside
      · exact table.others_outside other a found }

/-- Takes a key out that is not in the row. -/
def eraseOther (table : Table) (key : Value) : Table :=
  { table with
    others := table.others.erase key
    slots := { table.slots with stale := true }
    others_ne_nil := fun other found => by
      rw [KeyMap.find?_erase] at found
      split at found
      · simp at found
      · exact table.others_ne_nil other found
    others_outside := fun other a found => by
      rw [KeyMap.find?_erase] at found
      split at found
      · simp at found
      · exact table.others_outside other a found }

/-- Sets the value of a key that has a place. -/
def settle (table : Table) (key value : Value) (ne : value ≠ .nil) : Table :=
  match h : itemIndex? table.items.size key with
  | some i => table.setItem i value
  | none => table.setOther key value ne h

/-- Sets the value under a key; nil takes the key out. -/
def set (table : Table) (key value : Value) : Table :=
  let key := key.asKey
  match itemIndex? table.items.size key with
  | some i => table.setItem i value
  | none =>
    if isNil : value = .nil then table.eraseOther key
    else if (table.others.find? key).isSome then table.settle key value isNil
    else (table.makeRoom key).settle key value isNil

/-- Whether the length is looked for in front of the end of the row first. -/
def hasHint (table : Table) : Bool := table.limit < table.items.size

/-- Remembers that a position was looked at. -/
def touch (table : Table) (key : Value) : Table :=
  match itemIndex? table.items.size key with
  | some i => { table with limit := max table.limit (i + 1) }
  | none => table

/-- Sets values at the positions from `i` on. -/
def setFrom (i : Nat) (table : Table) : List Value → Table
  | [] => table
  | value :: rest => setFrom (i + 1) (table.set (position i) value) rest

/-- Sets values at the positions from `i` on; the row is made long enough to hold them. -/
def fill (table : Table) (i : Nat) (values : List Value) : Table :=
  let last := i + values.length
  (if table.items.size < last then table.layOut last table.slots.keys.size else table).setFrom i
    values

/-- The table of some keys and values, set one after the other. -/
def ofPairs (pairs : List (Value × Value)) : Table :=
  pairs.foldl (fun table pair => table.set pair.1 pair.2) empty

/-! ## Length -/

/-- A place with something that is followed by one without, from `low`, which has something, up to
`high`, which has nothing. -/
def bisect (present : Nat → Bool) : Nat → Nat → Nat → Nat
  | 0, low, _ => low
  | bound + 1, low, high =>
    if high ≤ low + 1 then low
    else
      let middle := (low + high) / 2
      if present middle then bisect present bound middle high
      else bisect present bound low middle

/-- A place with something that is followed by one without, from `low` on, which has something:
the distance is doubled until there is nothing, and then halved. -/
def bisectFrom (present : Nat → Bool) : Nat → Nat → Nat
  | 0, low => low
  | bound + 1, low =>
    if present (2 * low) then bisectFrom present bound (2 * low)
    else bisect present 64 low (2 * low)

/-- The length of a table, and where it is looked for next time. The search starts where the length
was found last, and goes on among the other keys when the row is full. -/
def measure (table : Table) : Nat × Nat :=
  let size := table.items.size
  let limit := table.limit
  let present (n : Nat) : Bool := table.items[n - 1]?.getD .nil ≠ .nil
  let isOther (n : Nat) : Bool := (table.others.find? (position (n - 1))).isSome
  let found (n : Nat) : Nat × Nat :=
    (n, if size.isPowerOfTwo ∧ size / 2 < n then n else limit)
  if 0 < limit && !present limit then
    found (if 1 < limit && present (limit - 1) then limit - 1 else bisect present 64 0 limit)
  else if limit < size && !present (limit + 1) then (limit, limit)
  else if limit < size && !present size then
    let n := bisect present 64 limit size
    (n, n)
  else if isOther (size + 1) then (bisectFrom isOther 64 (max 1 size), limit)
  else (size, limit)

/-- A position with a value that is followed by one without, or zero. -/
def length (table : Table) : Nat := table.measure.1

/-- Remembers where the length was found. -/
def remember (table : Table) : Table := { table with limit := table.measure.2 }

/-! ## Order -/

/-- The keys with their values: those of the row, and then the others by their slots. -/
def entries (table : Table) : List (Value × Value) :=
  let ranks := table.slots.ranks
  let others := table.others.toList.map fun entry =>
    ((ranks.find? entry.1).getD table.slots.keys.size, entry)
  rowEntries table.items 0 table.items.size
    ++ (others.mergeSort fun a b => a.1 ≤ b.1).map Prod.snd

/-- The number of keys with a value. -/
def size (table : Table) : Nat :=
  (rowEntries table.items 0 table.items.size).length + table.others.toList.length

/-- The values of a table whose keys are the numbers from one up to its size; none for a table
without keys, and for one with more keys than there are such numbers. -/
def sequence? (table : Table) : Option (List Value) :=
  if Nat.pow 2 63 ≤ table.size then none
  else
    let values := (List.range table.size).map fun i => table.get (position i)
    if values.isEmpty || values.contains .nil then none else some values

/-! ## What is set is found -/

theorem find_setItem {table : Table} {key : Value} {i : Nat} (other value : Value)
    (h : itemIndex? table.items.size key = some i) :
    (table.setItem i value).find other = if key = other then value else table.find other := by
  have lt := lt_of_itemIndex? h
  simp only [find, setItem, Array.size_setIfInBounds]
  by_cases e : key = other
  · subst e
    rw [h, if_pos rfl]
    simp [lt]
  · rw [if_neg e]
    cases ho : itemIndex? table.items.size other with
    | none => rfl
    | some j =>
      have : i ≠ j := fun same => e (by rw [eq_position h, eq_position ho, same])
      simp [this]

/-- Tables with the same row differ by a key that is not in it. -/
theorem find_of_others {table after : Table} {key other value : Value}
    (items : after.items = table.items) (h : itemIndex? table.items.size key = none)
    (others : (after.others.find? other).getD .nil
      = if key = other then value else (table.others.find? other).getD .nil) :
    after.find other = if key = other then value else table.find other := by
  unfold find
  rw [items]
  by_cases e : key = other
  · subst e
    rw [h]
    exact others
  · rw [if_neg e] at others ⊢
    rw [others]

theorem find_setOther (table : Table) (key other value : Value) (ne : value ≠ .nil)
    (h : itemIndex? table.items.size key = none) :
    (table.setOther key value ne h).find other
      = if key = other then value else table.find other := by
  refine find_of_others rfl h ?_
  rw [setOther, KeyMap.find?_insert]
  split <;> rfl

theorem find_eraseOther {table : Table} {key : Value} (other : Value)
    (h : itemIndex? table.items.size key = none) :
    (table.eraseOther key).find other = if key = other then .nil else table.find other := by
  refine find_of_others rfl h ?_
  rw [eraseOther, KeyMap.find?_erase]
  split <;> rfl

theorem find_settle (table : Table) (key other value : Value) (ne : value ≠ .nil) :
    (table.settle key value ne).find other
      = if key = other then value else table.find other := by
  unfold settle
  split
  · next i h => exact find_setItem other value h
  · next h => exact table.find_setOther key other value ne h

/-- After a value is set, its key has it and the other keys have what they had. -/
theorem find_set (table : Table) (key other value : Value) :
    (table.set key value).find other
      = if key.asKey = other then value else table.find other := by
  unfold set
  dsimp only
  split
  · next i h => exact find_setItem other value h
  · next h =>
    split
    · next isNil =>
      subst isNil
      exact find_eraseOther other h
    · split
      · exact find_settle ..
      · rw [find_settle, find_makeRoom]

/-- After a value is set, its key has it and the other keys have what they had. -/
theorem get_set (table : Table) (key other value : Value) :
    (table.set key value).get other
      = if key.asKey = other.asKey then value else table.get other :=
  find_set ..

end Table

end ScriptHost.Script
