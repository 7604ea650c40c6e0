import ScriptHost.Script.Value

/-!
# Entries of a table

The positions that a row of values has as keys, and lists of keys with their values.

* `Table.position`, `Table.itemIndex?` : the key of a place in a row, and the place of a key.
* `Table.rowEntries` : the values of a row with their keys.
* `lookup?`, `putEntry` : what a key has, and giving something to a key.
* `lookup?_putEntry`, `lookup?_filter`, `Table.lookup?_rowEntries` : what is found in such lists.
-/

namespace ScriptHost.Script

/-! ## Entries -/

/-- What a key has in a list of keys. -/
def lookup? {α : Type} (key : Value) : List (Value × α) → Option α
  | [] => none
  | (k, a) :: rest => if k = key then some a else lookup? key rest

/-- Gives something to a key in a list of keys. -/
def putEntry {α : Type} (key : Value) (a : α) : List (Value × α) → List (Value × α)
  | [] => [(key, a)]
  | (k, b) :: rest => if k = key then (k, a) :: rest else (k, b) :: putEntry key a rest

theorem lookup?_putEntry {α : Type} (key other : Value) (a : α) (entries : List (Value × α)) :
    lookup? other (putEntry key a entries)
      = if key = other then some a else lookup? other entries := by
  induction entries with
  | nil => rfl
  | cons first rest ih =>
    obtain ⟨k, b⟩ := first
    unfold putEntry
    split
    · next e =>
      subst e
      by_cases same : k = other <;> simp [lookup?, same]
    · next ne =>
      rw [lookup?, ih, lookup?]
      by_cases same : key = other
      · subst same
        rw [if_neg ne, if_pos rfl, if_pos rfl]
      · rw [if_neg same, if_neg same]

theorem lookup?_filter {α : Type} {key : Value} {p : Value × α → Bool} (h : ∀ a, p (key, a))
    (entries : List (Value × α)) : lookup? key (entries.filter p) = lookup? key entries := by
  induction entries with
  | nil => rfl
  | cons first rest ih =>
    obtain ⟨k, a⟩ := first
    rw [List.filter_cons]
    by_cases e : k = key
    · subst e
      rw [if_pos (h a), lookup?, lookup?, if_pos rfl, if_pos rfl]
    · split
      · rw [lookup?, lookup?, if_neg e, if_neg e, ih]
      · rw [ih, lookup?, if_neg e]

theorem lookup?_eq_none {α : Type} {key : Value} {entries : List (Value × α)}
    (h : ∀ entry ∈ entries, entry.1 ≠ key) : lookup? key entries = none := by
  induction entries with
  | nil => rfl
  | cons first rest ih =>
    rw [lookup?, if_neg (h first List.mem_cons_self),
      ih fun entry m => h entry (List.mem_cons_of_mem _ m)]

theorem mem_of_lookup? {α : Type} {key : Value} {a : α} {entries : List (Value × α)}
    (h : lookup? key entries = some a) : (key, a) ∈ entries := by
  induction entries with
  | nil => simp [lookup?] at h
  | cons first rest ih =>
    obtain ⟨k, b⟩ := first
    unfold lookup? at h
    split at h
    · next e =>
      subst e
      rw [Option.some.inj h]
      exact List.mem_cons_self
    · exact List.mem_cons_of_mem _ (ih h)

theorem lookup?_eq_some_iff {α : Type} {key : Value} {a : α} {entries : List (Value × α)}
    (nodup : (entries.map Prod.fst).Nodup) : lookup? key entries = some a ↔ (key, a) ∈ entries := by
  refine ⟨mem_of_lookup?, fun m => ?_⟩
  induction entries with
  | nil => simp at m
  | cons first rest ih =>
    obtain ⟨k, b⟩ := first
    rw [List.map_cons, List.nodup_cons] at nodup
    unfold lookup?
    rcases List.mem_cons.1 m with e | m
    · obtain ⟨rfl, rfl⟩ := Prod.mk.inj e
      exact if_pos rfl
    · have ne : k ≠ key := fun e => nodup.1 (List.mem_map.2 ⟨(key, a), m, e.symm⟩)
      rw [if_neg ne]
      exact ih nodup.2 m

theorem mem_putEntry {α : Type} {key : Value} {a : α} {entries : List (Value × α)}
    {entry : Value × α} (h : entry ∈ putEntry key a entries) :
    entry = (key, a) ∨ entry ∈ entries := by
  induction entries with
  | nil => exact .inl (List.mem_singleton.1 h)
  | cons first rest ih =>
    obtain ⟨k, b⟩ := first
    unfold putEntry at h
    split at h
    · next e =>
      subst e
      exact (List.mem_cons.1 h).imp_right (List.mem_cons_of_mem _)
    · rcases List.mem_cons.1 h with h | h
      · exact .inr (h ▸ List.mem_cons_self)
      · exact (ih h).imp_right (List.mem_cons_of_mem _)

theorem nodup_putEntry {α : Type} (key : Value) (a : α) {entries : List (Value × α)}
    (h : (entries.map Prod.fst).Nodup) : ((putEntry key a entries).map Prod.fst).Nodup := by
  induction entries with
  | nil => simp [putEntry]
  | cons first rest ih =>
    obtain ⟨k, b⟩ := first
    rw [List.map_cons, List.nodup_cons] at h
    unfold putEntry
    split
    · rwa [List.map_cons, List.nodup_cons]
    · next ne =>
      rw [List.map_cons, List.nodup_cons]
      refine ⟨fun m => ?_, ih h.2⟩
      obtain ⟨entry, m, e⟩ := List.mem_map.1 m
      rcases mem_putEntry m with rfl | m
      · exact ne e.symm
      · exact h.1 (e ▸ List.mem_map_of_mem m)

theorem nodup_filter {α : Type} {p : Value × α → Bool} {entries : List (Value × α)}
    (h : (entries.map Prod.fst).Nodup) : ((entries.filter p).map Prod.fst).Nodup :=
  h.sublist (List.filter_sublist.map Prod.fst)

/-! ## Positions -/

namespace Table

/-- The most items of a table. -/
def itemLimit : Nat := 134217728

/-- The key of a position, from zero. -/
def position (i : Nat) : Value := .integer (Int64.ofNat (i + 1))

/-- The place in a row of `count` items that a key names. -/
def itemIndex? (count : Nat) : Value → Option Nat
  | .integer n =>
    let place := n.toNatClampNeg
    if 0 < place ∧ place ≤ count then some (place - 1) else none
  | _ => none

theorem lt_of_itemIndex? {count i : Nat} {key : Value} (h : itemIndex? count key = some i) :
    i < count := by
  unfold itemIndex? at h
  split at h
  · simp only [Option.ite_none_right_eq_some, Option.some.injEq] at h
    omega
  · simp at h

theorem eq_position {count i : Nat} {key : Value} (h : itemIndex? count key = some i) :
    key = position i := by
  unfold itemIndex? at h
  split at h
  · next n =>
    simp only [Option.ite_none_right_eq_some, Option.some.injEq] at h
    obtain ⟨⟨positive, -⟩, rfl⟩ := h
    have e : n.toNatClampNeg - 1 + 1 = n.toNatClampNeg := by omega
    rw [position, e, Int64.ofNat_toNatClampNeg]
    rw [Int64.le_iff_toInt_le]
    have := Int64.toNat_toInt n
    simp only [Int64.toInt_zero]
    omega
  · simp at h

theorem itemIndex?_position {count i : Nat} (bounded : i < itemLimit) :
    itemIndex? count (position i) = if i < count then some i else none := by
  have h : (Int64.ofNat (i + 1)).toNatClampNeg = i + 1 :=
    Int64.toNatClampNeg_ofNat_of_lt (by unfold itemLimit at bounded; omega)
  simp only [position, itemIndex?, h]
  by_cases lt : i < count
  · rw [if_pos (by omega), if_pos lt, Nat.add_sub_cancel]
  · rw [if_neg (by omega), if_neg lt]

theorem position_inj {i j : Nat} (hi : i < itemLimit) (hj : j < itemLimit)
    (h : position i = position j) : i = j := by
  have found : itemIndex? itemLimit (position i) = _ := itemIndex?_position hi
  rw [h, itemIndex?_position hj, if_pos hj, if_pos hi] at found
  exact (Option.some.inj found).symm

/-! ## Rows -/

/-- The entries of the items from place `i` on, `count` of them. -/
def rowEntries (items : Array Value) (i : Nat) : Nat → List (Value × Value)
  | 0 => []
  | count + 1 =>
    if items[i]?.getD .nil = .nil then rowEntries items (i + 1) count
    else (position i, items[i]?.getD .nil) :: rowEntries items (i + 1) count

theorem mem_rowEntries {items : Array Value} {i count : Nat} {entry : Value × Value}
    (h : entry ∈ rowEntries items i count) :
    entry.2 ≠ .nil ∧ ∃ j, i ≤ j ∧ j < i + count ∧ entry = (position j, items[j]?.getD .nil) := by
  induction count generalizing i with
  | zero => simp [rowEntries] at h
  | succ count ih =>
    have later (h : entry ∈ rowEntries items (i + 1) count) :
        entry.2 ≠ .nil ∧ ∃ j, i ≤ j ∧ j < i + (count + 1)
          ∧ entry = (position j, items[j]?.getD .nil) := by
      obtain ⟨ne, j, le, lt, e⟩ := ih h
      exact ⟨ne, j, by omega, by omega, e⟩
    unfold rowEntries at h
    split at h
    · exact later h
    · next ne =>
      rcases List.mem_cons.1 h with rfl | h
      · exact ⟨ne, i, Nat.le_refl i, by omega, rfl⟩
      · exact later h

theorem nodup_rowEntries {items : Array Value} {i count : Nat} (h : i + count ≤ itemLimit) :
    ((rowEntries items i count).map Prod.fst).Nodup := by
  induction count generalizing i with
  | zero => simp [rowEntries]
  | succ count ih =>
    unfold rowEntries
    split
    · exact ih (by omega)
    · rw [List.map_cons, List.nodup_cons]
      refine ⟨fun m => ?_, ih (by omega)⟩
      obtain ⟨entry, hm, e⟩ := List.mem_map.1 m
      obtain ⟨-, j, le, lt, rfl⟩ := mem_rowEntries hm
      have := position_inj (by omega) (by omega) e
      omega

theorem lookup?_rowEntries {items : Array Value} {i count j : Nat} (h : i + count ≤ itemLimit)
    (le : i ≤ j) (lt : j < i + count) :
    (lookup? (position j) (rowEntries items i count)).getD .nil = items[j]?.getD .nil := by
  induction count generalizing i with
  | zero => omega
  | succ count ih =>
    unfold rowEntries
    by_cases e : i = j
    · subst e
      split
      · next isNil =>
        rw [isNil, lookup?_eq_none]
        · rfl
        · intro entry m e
          obtain ⟨-, k, le, lt, rfl⟩ := mem_rowEntries m
          have := position_inj (by omega) (by omega) e
          omega
      · rw [lookup?, if_pos rfl, Option.getD_some]
    · have found : (lookup? (position j) (rowEntries items (i + 1) count)).getD .nil = _ :=
        ih (by omega) (by omega) (by omega)
      split
      · exact found
      · rw [lookup?, if_neg fun h => e (position_inj (by omega) (by omega) h), found]

end Table

end ScriptHost.Script
