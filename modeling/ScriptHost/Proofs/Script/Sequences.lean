import Mathlib.Data.Nat.Find
import ScriptHost.Proofs.Script.Paths

/-!
# Tables that are sequences

A table whose keys are the numbers from one to n, and no others, is a sequence. Whoever looks at a
table through an enumeration of its entries and through its length can tell: it is enough that there
are as many entries as the length says and that all keys lie between one and the length. In which
order the entries come does not count, nor which length a table has whose positions have gaps.

* `Table.IsCounted` : the keys of a table are the numbers from one to n.
* `Table.sequence?_eq_some_iff` : the values of a sequence.
* `Table.IsBorder` : a number that may be the length of a table.
* `Table.isRow_iff` : the test by an enumeration and a length.
* `Table.rowValues_eq` : the values of an enumerated sequence, put in the order of their positions.
-/

namespace ScriptHost.Script.Table

variable {table : Table} {n : Nat}

/-! ## Numbered keys -/

/-- The keys of a table are the numbers from one to `n`, and there is one at least. -/
structure IsCounted (table : Table) (n : Nat) : Prop where
  positive : 0 < n
  bounded : n < Nat.pow 2 63
  keys : ∀ key, table.find key ≠ .nil ↔ ∃ i, i < n ∧ key = position i

/-- The values at the first positions of a table. -/
def firstValues (table : Table) (n : Nat) : List Value :=
  (List.range n).map fun i => table.find (position i)

theorem length_firstValues (table : Table) (n : Nat) : (table.firstValues n).length = n := by
  rw [firstValues, List.length_map, List.length_range]

theorem getElem_firstValues {i : Nat} (lt : i < (table.firstValues n).length) :
    (table.firstValues n)[i] = table.find (position i) := by
  simp [firstValues]

theorem IsCounted.find_position (counted : table.IsCounted n) {i : Nat} (lt : i < n) :
    table.find (position i) ≠ .nil := (counted.keys _).2 ⟨i, lt, rfl⟩

/-- Behind the last position there is no value, as far as there are positions. -/
theorem IsCounted.find_of_le (counted : table.IsCounted n) {i : Nat} (le : n ≤ i)
    (bounded : i + 1 < Nat.pow 2 63) : table.find (position i) = .nil := by
  by_contra ne
  obtain ⟨j, lt, same⟩ := (counted.keys _).1 ne
  have e : i = j := position_injective bounded (by omega) same
  omega

/-- A table is counted by one number only. -/
theorem IsCounted.unique {m : Nat} (counted : table.IsCounted n) (other : table.IsCounted m) :
    n = m := by
  have hn := counted.bounded
  have hm := other.bounded
  rcases Nat.lt_trichotomy n m with lt | e | gt
  · exact absurd (counted.find_of_le (Nat.le_refl n) (by omega)) (other.find_position lt)
  · exact e
  · exact absurd (other.find_of_le (Nat.le_refl m) (by omega)) (counted.find_position gt)

/-- The entries of a sequence are its values at their positions. -/
theorem IsCounted.entries_perm (counted : table.IsCounted n) :
    table.entries.Perm (itemPairs 0 (table.firstValues n)) := by
  have length := length_firstValues table n
  have distinct : Distinct (itemPairs 0 (table.firstValues n)) :=
    distinct_itemPairs (by rw [length]; exact counted.bounded)
  refine (List.perm_ext_iff_of_nodup (table.nodup_entries.of_map Prod.fst)
    (distinct.nodup.of_map Prod.fst)).2 ?_
  rintro ⟨key, value⟩
  rw [mem_entries, mem_itemPairs]
  constructor
  · rintro ⟨proper, rfl⟩
    obtain ⟨i, lt, rfl⟩ := (counted.keys key).1 proper
    refine ⟨i, by omega, ?_⟩
    rw [getElem_firstValues, Nat.zero_add]
  · rintro ⟨i, lt, pair⟩
    rw [getElem_firstValues, Nat.zero_add] at pair
    obtain ⟨rfl, rfl⟩ := Prod.mk.inj pair
    exact ⟨counted.find_position (by omega), rfl⟩

/-- A table is counted if its entries are values at the first positions. -/
theorem isCounted_of_entries_perm {values : List Value} (positive : values ≠ [])
    (bounded : values.length < Nat.pow 2 63) (perm : table.entries.Perm (itemPairs 0 values)) :
    table.IsCounted values.length ∧ values = table.firstValues values.length := by
  have entry {i : Nat} (lt : i < values.length) :
      values[i] ≠ .nil ∧ table.find (position i) = values[i] := by
    refine mem_entries.1 (perm.mem_iff.2 (mem_itemPairs.2 ⟨i, lt, ?_⟩))
    rw [Nat.zero_add]
  refine ⟨⟨List.length_pos_iff.2 positive, bounded, fun key => ?_⟩, ?_⟩
  · constructor
    · intro proper
      obtain ⟨i, lt, pair⟩ := mem_itemPairs.1 (perm.mem_iff.1 (mem_entries.2 ⟨proper, rfl⟩))
      rw [Nat.zero_add] at pair
      exact ⟨i, lt, (Prod.mk.inj pair).1⟩
    · rintro ⟨i, lt, rfl⟩
      rw [(entry lt).2]
      exact (entry lt).1
  · refine List.ext_getElem (length_firstValues table _).symm fun i lt _ => ?_
    rw [getElem_firstValues, (entry lt).2]

/-- A table has a sequence exactly if it is counted, and then that of its values in the order of
their positions. -/
theorem sequence?_eq_some_iff {values : List Value} :
    table.sequence? = some values
      ↔ table.IsCounted values.length ∧ values = table.firstValues values.length := by
  constructor
  · intro sequence
    obtain ⟨positive, _, bounded⟩ := of_sequence? sequence
    exact isCounted_of_entries_perm positive bounded (entries_of_sequence? sequence)
  · rintro ⟨counted, made⟩
    have bounded := counted.bounded
    have size : table.size = values.length := by
      rw [size_eq_length, counted.entries_perm.length_eq, length_itemPairs, length_firstValues]
    have taken : ((List.range values.length).map fun i => table.get (position i)) = values :=
      made.symm
    unfold sequence?
    rw [size, if_neg (by omega)]
    dsimp only
    rw [taken, if_neg]
    simp only [Bool.or_eq_true, List.isEmpty_iff, List.contains_iff_mem, not_or]
    refine ⟨List.length_pos_iff.1 counted.positive, fun m => ?_⟩
    obtain ⟨i, lt, isNil⟩ := List.mem_iff_getElem.1 m
    have found : values[i] = table.find (position i) := by
      conv_lhs => rw [List.getElem_of_eq made lt]
      exact getElem_firstValues _
    exact counted.find_position lt (found.symm.trans isNil)

/-! ## Lengths -/

/-- A number that may be the length of a table: there is a value at that position, unless it is
zero, and none at the next, unless there is no further position. -/
structure IsBorder (table : Table) (n : Nat) : Prop where
  bounded : n < Nat.pow 2 63
  inside : 0 < n → table.find (position (n - 1)) ≠ .nil
  ends : n + 1 < Nat.pow 2 63 → table.find (position n) = .nil

/-- Every table has a length. -/
theorem exists_isBorder (table : Table) : ∃ n, table.IsBorder n := by
  by_cases absent : ∃ i, i + 1 < Nat.pow 2 63 ∧ table.find (position i) = .nil
  · classical
    obtain ⟨bounded, ends⟩ := Nat.find_spec absent
    refine ⟨Nat.find absent, by omega, fun positive isNil => ?_, fun _ => ends⟩
    exact Nat.find_min absent (Nat.sub_lt positive Nat.one_pos) ⟨by omega, isNil⟩
  · -- No table has so many values that this happens, but nothing hangs on that.
    refine ⟨Nat.pow 2 63 - 1, by decide, fun _ isNil => absent ⟨_, by decide, isNil⟩, ?_⟩
    intro room
    exact absurd room (by decide)

/-- A sequence has one length only. -/
theorem IsCounted.eq_of_isBorder {length : Nat} (counted : table.IsCounted n)
    (border : table.IsBorder length) : length = n := by
  have hn := counted.bounded
  have hl := border.bounded
  rcases Nat.lt_trichotomy length n with lt | e | gt
  · exact absurd (border.ends (by omega)) (counted.find_position lt)
  · exact e
  · exact absurd (counted.find_of_le (by omega) (by omega)) (border.inside (by omega))

/-! ## Enumerated entries -/

/-- Whether some entries are those of a sequence of a length. -/
def isRow (length : Nat) (entries : List (Value × Value)) : Bool :=
  0 < length && entries.length == length && entries.all fun entry => isBetween 0 length entry.1

/-- The number that a key is. -/
def keyNumber : Value → Int
  | .integer n => n.toInt
  | _ => 0

/-- The values of some entries, in the order of the numbers that are their keys. -/
def rowValues (entries : List (Value × Value)) : List Value :=
  (entries.mergeSort fun a b => keyNumber a.1 ≤ keyNumber b.1).map Prod.snd

theorem isBetween_iff (bounded : n < Nat.pow 2 63) {key : Value} :
    isBetween 0 n key = true ↔ ∃ i, i < n ∧ key = position i := by
  constructor
  · intro between
    have index : ∃ i, itemIndex? n key = some i := by
      cases key with
      | integer k =>
        simp only [isBetween, Bool.and_eq_true, decide_eq_true_eq] at between
        exact ⟨k.toNatClampNeg - 1, by simp only [itemIndex?, if_pos between]⟩
      | _ => cases between
    obtain ⟨i, index⟩ := index
    exact ⟨i, lt_of_itemIndex? index, eq_position index⟩
  · rintro ⟨i, lt, rfl⟩
    have small : i + 1 < Nat.pow 2 63 := by omega
    have number : (Int64.ofNat (i + 1)).toNatClampNeg = i + 1 :=
      Int64.toNatClampNeg_ofNat_of_lt small
    simp only [position, isBetween, number, Bool.and_eq_true, decide_eq_true_eq]
    omega

theorem keyNumber_position {i : Nat} (bounded : i + 1 < Nat.pow 2 63) :
    keyNumber (position i) = i + 1 := Int64.toInt_ofNat_of_lt bounded

/-- The values of an array with their keys stand in the order of the keys. -/
theorem ordered_itemPairs {values : List Value} {i : Nat}
    (bounded : i + values.length < Nat.pow 2 63) :
    (itemPairs i values).Pairwise fun a b => keyNumber a.1 < keyNumber b.1 := by
  induction values generalizing i with
  | nil => exact .nil
  | cons value values ih =>
    rw [List.length_cons] at bounded
    refine List.pairwise_cons.2 ⟨fun pair m => ?_, ih (by omega)⟩
    obtain ⟨j, lt, rfl⟩ := mem_itemPairs.1 m
    rw [keyNumber_position (by omega), keyNumber_position (by omega)]
    omega

theorem values_itemPairs (i : Nat) (values : List Value) :
    (itemPairs i values).map Prod.snd = values := by
  induction values generalizing i with
  | nil => rfl
  | cons value values ih => rw [itemPairs, List.map_cons, ih]

/-- The test on the entries of a table, in any order, and on any length of it, finds out whether the
table is a sequence. -/
theorem isRow_iff {length : Nat} {entries : List (Value × Value)}
    (perm : entries.Perm table.entries) (border : table.IsBorder length) :
    isRow length entries = true ↔ ∃ n, table.IsCounted n := by
  have bounded := border.bounded
  rw [isRow, Bool.and_eq_true, Bool.and_eq_true, decide_eq_true_eq, beq_iff_eq, List.all_eq_true]
  constructor
  · rintro ⟨⟨positive, count⟩, between⟩
    -- As many different keys as there are positions up to the length leave none of these out.
    have different : (entries.map Prod.fst).Nodup :=
      (perm.map Prod.fst).nodup_iff.2 table.nodup_entries
    have inside : entries.map Prod.fst ⊆ (List.range length).map position := by
      intro key m
      obtain ⟨entry, there, rfl⟩ := List.mem_map.1 m
      obtain ⟨i, lt, same⟩ := (isBetween_iff bounded).1 (between entry there)
      exact List.mem_map.2 ⟨i, List.mem_range.2 lt, same.symm⟩
    have whole : (entries.map Prod.fst).Perm ((List.range length).map position) := by
      refine (List.subperm_of_subset different inside).perm_of_length_le (Nat.le_of_eq ?_)
      rw [List.length_map, List.length_map, List.length_range, count]
    refine ⟨length, positive, bounded, fun key => ?_⟩
    have key_iff : table.find key ≠ .nil ↔ key ∈ entries.map Prod.fst := by
      rw [(perm.map Prod.fst).mem_iff, List.mem_map]
      constructor
      · exact fun proper => ⟨(key, table.find key), mem_entries.2 ⟨proper, rfl⟩, rfl⟩
      · rintro ⟨⟨_, value⟩, m, rfl⟩
        obtain ⟨proper, found⟩ := mem_entries.1 m
        rwa [found]
    rw [key_iff, whole.mem_iff, List.mem_map]
    simp only [List.mem_range, eq_comm]
  · rintro ⟨n, counted⟩
    have e := counted.eq_of_isBorder border
    subst e
    refine ⟨⟨counted.positive, ?_⟩, fun entry m => ?_⟩
    · rw [perm.length_eq, counted.entries_perm.length_eq, length_itemPairs, length_firstValues]
    · obtain ⟨proper, found⟩ := mem_entries.1 (perm.mem_iff.1 m)
      rw [← found] at proper
      exact (isBetween_iff bounded).2 ((counted.keys _).1 proper)

/-- The values of the entries of a sequence are put in the order of their positions, in whatever
order the entries come. -/
theorem rowValues_eq {entries : List (Value × Value)} (perm : entries.Perm table.entries)
    (counted : table.IsCounted n) : rowValues entries = table.firstValues n := by
  have bounded := counted.bounded
  have length := length_firstValues table n
  have made : (entries.mergeSort fun a b => keyNumber a.1 ≤ keyNumber b.1).Perm
      (itemPairs 0 (table.firstValues n)) :=
    (List.mergeSort_perm _ _).trans (perm.trans counted.entries_perm)
  have sorted : (entries.mergeSort fun a b => keyNumber a.1 ≤ keyNumber b.1).Pairwise
      fun a b => decide (keyNumber a.1 ≤ keyNumber b.1) = true := by
    refine List.pairwise_mergeSort ?_ ?_ entries
    · intro a b c
      simp only [decide_eq_true_eq]
      omega
    · intro a b
      simp only [Bool.or_eq_true, decide_eq_true_eq]
      omega
  have inOrder := @ordered_itemPairs (table.firstValues n) 0 (by omega)
  -- Entries of the same number are the same, so that there is one such order only.
  have same := made.eq_of_pairwise (fun a b m m' le ge => ?_) sorted
    (inOrder.imp fun lt => decide_eq_true (Int.le_of_lt lt))
  · rw [rowValues, same, values_itemPairs]
  · obtain ⟨i, lt, rfl⟩ := mem_itemPairs.1 (made.mem_iff.1 m)
    obtain ⟨j, lt', rfl⟩ := mem_itemPairs.1 m'
    rw [decide_eq_true_eq, keyNumber_position (by omega), keyNumber_position (by omega)] at le ge
    have e : i = j := by omega
    subst e
    rfl

end ScriptHost.Script.Table
