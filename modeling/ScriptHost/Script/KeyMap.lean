import ScriptHost.Script.Entries

/-!
# Key maps

What keys have, for many keys. The keys stand in a tree: every key has a mark, and the bits of the
mark, from the lowest on, lead the way to the key.

* `Value.mark` : the mark of a key.
* `KeyMap.find?`, `KeyMap.insert`, `KeyMap.erase`, `KeyMap.filter` : the operations.
* `KeyMap.toList` : the keys with what they have.
* `KeyMap.find?_insert`, `KeyMap.find?_erase`, `KeyMap.find?_filter` : what is found after them.
* `KeyMap.mem_toList`, `KeyMap.nodup_toList` : the list has what is found, and every key once.
-/

namespace ScriptHost.Script

/-! ## Marks -/

/-- Bits that depend on all of some bits. -/
def spread (bits : UInt32) : Nat :=
  let product := bits * 0x9E3779B1
  (product ^^^ (product >>> 15)).toNat

/-- The mark of some bytes. -/
def markOfBytes (bytes : ByteArray) : Nat :=
  spread (bytes.foldl (fun bits byte => (bits ^^^ byte.toUInt32) * 0x01000193) 0x811C9DC5)

/-- The mark of sixty-four bits. -/
def markOfBits (bits : UInt64) : Nat :=
  spread (bits.toUInt32 ^^^ (bits >>> 32).toUInt32 * 0x85EBCA6B)

namespace Value

/-- A number that is often another for another key. -/
def mark : Value → Nat
  | boolean b => if b then 1 else 2
  | integer n => markOfBits n.toUInt64
  | number x => markOfBits x.toBits
  | string bytes => markOfBytes bytes
  | table id => markOfBits id.toUInt64
  | closure id => markOfBits id.toUInt64
  | hostFunction name => markOfBytes name.toUTF8
  | host _ serial | thread serial | failure _ serial => markOfBits serial.toUInt64
  | _ => 0

end Value

/-! ## Trees -/

/-- Keys with what they have. -/
inductive KeyTree (α : Type) where
  /-- A few keys. -/
  | leaf (entries : List (Value × α))
  /-- The keys whose marks do not have a bit, and those whose marks have it. -/
  | branch (left right : KeyTree α)

namespace KeyTree

variable {α : Type}

/-- From so many keys on a leaf becomes a branch. -/
def leafLimit : Nat := 8

/-- The bits of marks that are looked at. -/
def levelLimit : Nat := 32

/-- Whether the mark of a key has a bit. -/
def isRight (level : Nat) (key : Value) : Bool := key.mark.testBit level

/-- What a key with a mark has. -/
def find? (key : Value) (mark level : Nat) : KeyTree α → Option α
  | leaf entries => lookup? key entries
  | branch left right =>
    if mark.testBit level then find? key mark (level + 1) right
    else find? key mark (level + 1) left

/-- Gives something to a key with a mark. -/
def insert (key : Value) (a : α) (mark level : Nat) : KeyTree α → KeyTree α
  | leaf entries =>
    if entries.length < leafLimit || levelLimit ≤ level then leaf (putEntry key a entries)
    else
      let left := entries.filter fun entry => !isRight level entry.1
      let right := entries.filter fun entry => isRight level entry.1
      if mark.testBit level then branch (leaf left) (leaf (putEntry key a right))
      else branch (leaf (putEntry key a left)) (leaf right)
  | branch left right =>
    if mark.testBit level then branch left (insert key a mark (level + 1) right)
    else branch (insert key a mark (level + 1) left) right

/-- Takes what a key with a mark has. -/
def erase (key : Value) (mark level : Nat) : KeyTree α → KeyTree α
  | leaf entries => leaf (entries.filter fun entry => entry.1 ≠ key)
  | branch left right =>
    if mark.testBit level then branch left (erase key mark (level + 1) right)
    else branch (erase key mark (level + 1) left) right

/-- Keeps the keys that pass a test. -/
def filter (keep : Value → Bool) : KeyTree α → KeyTree α
  | leaf entries => leaf (entries.filter fun entry => keep entry.1)
  | branch left right => branch (left.filter keep) (right.filter keep)

/-- The keys with what they have. -/
def toList : KeyTree α → List (Value × α)
  | leaf entries => entries
  | branch left right => left.toList ++ right.toList

/-- Every key stands where its mark leads, and only once. -/
def Proper (level : Nat) : KeyTree α → Prop
  | leaf entries => (entries.map Prod.fst).Nodup
  | branch left right =>
    (∀ entry ∈ left.toList, isRight level entry.1 = false)
      ∧ (∀ entry ∈ right.toList, isRight level entry.1 = true)
      ∧ left.Proper (level + 1) ∧ right.Proper (level + 1)

/-! ### What is found -/

theorem find?_right {key : Value} {mark level : Nat} (h : mark.testBit level)
    (left right : KeyTree α) :
    (branch left right).find? key mark level = right.find? key mark (level + 1) := if_pos h

theorem find?_left {key : Value} {mark level : Nat} (h : ¬mark.testBit level)
    (left right : KeyTree α) :
    (branch left right).find? key mark level = left.find? key mark (level + 1) := if_neg h

theorem find?_insert (key other : Value) (a : α) (tree : KeyTree α) (level : Nat) :
    (tree.insert key a key.mark level).find? other other.mark level
      = if key = other then some a else tree.find? other other.mark level := by
  induction tree generalizing level with
  | leaf entries =>
    unfold insert
    split
    · exact lookup?_putEntry ..
    · dsimp only
      by_cases same : key = other
      · subst same
        rw [if_pos rfl]
        by_cases bit : key.mark.testBit level
        · rw [if_pos bit, find?_right bit, find?, lookup?_putEntry, if_pos rfl]
        · rw [if_neg bit, find?_left bit, find?, lookup?_putEntry, if_pos rfl]
      · rw [if_neg same]
        by_cases bit : other.mark.testBit level
        · have kept := lookup?_filter (p := fun entry : Value × α => isRight level entry.1)
            (fun _ => bit) entries
          split <;> rw [find?_right bit, find?, find?]
          · rw [lookup?_putEntry, if_neg same, kept]
          · exact kept
        · have kept := lookup?_filter (p := fun entry : Value × α => !isRight level entry.1)
            (fun _ => by simpa [isRight] using bit) entries
          split <;> rw [find?_left bit, find?, find?]
          · exact kept
          · rw [lookup?_putEntry, if_neg same, kept]
  | branch left right ihl ihr =>
    unfold insert
    by_cases bit : key.mark.testBit level
    · rw [if_pos bit, find?, find?, ihr]
      by_cases same : key = other
      · subst same
        rw [if_pos bit, if_pos rfl, if_pos rfl]
      · rw [if_neg same, if_neg same]
    · rw [if_neg bit, find?, find?, ihl]
      by_cases same : key = other
      · subst same
        rw [if_neg bit, if_pos rfl, if_pos rfl]
      · rw [if_neg same, if_neg same]

theorem find?_erase (key other : Value) (tree : KeyTree α) (level : Nat) :
    (tree.erase key key.mark level).find? other other.mark level
      = if key = other then none else tree.find? other other.mark level := by
  induction tree generalizing level with
  | leaf entries =>
    rw [erase, find?, find?]
    split
    · next same =>
      subst same
      exact lookup?_eq_none fun entry m => by simpa using (List.mem_filter.1 m).2
    · next ne => exact lookup?_filter (fun _ => by simpa using fun e => ne e.symm) entries
  | branch left right ihl ihr =>
    unfold erase
    by_cases bit : key.mark.testBit level
    · rw [if_pos bit, find?, find?, ihr]
      by_cases same : key = other
      · subst same
        rw [if_pos bit, if_pos rfl, if_pos rfl]
      · rw [if_neg same, if_neg same]
    · rw [if_neg bit, find?, find?, ihl]
      by_cases same : key = other
      · subst same
        rw [if_neg bit, if_pos rfl, if_pos rfl]
      · rw [if_neg same, if_neg same]

theorem find?_filter (keep : Value → Bool) (key : Value) (tree : KeyTree α) (mark level : Nat) :
    (tree.filter keep).find? key mark level
      = if keep key then tree.find? key mark level else none := by
  induction tree generalizing level with
  | leaf entries =>
    rw [filter, find?, find?]
    split
    · next kept => exact lookup?_filter (fun _ => kept) entries
    · next gone =>
      refine lookup?_eq_none fun entry m e => gone ?_
      rw [← e]
      exact (List.mem_filter.1 m).2
  | branch left right ihl ihr =>
    rw [filter, find?, find?, ihl, ihr]
    split <;> rfl

/-! ### What is listed -/

theorem mem_insert {key : Value} {a : α} {mark level : Nat} {tree : KeyTree α}
    {entry : Value × α} (h : entry ∈ (tree.insert key a mark level).toList) :
    entry = (key, a) ∨ entry ∈ tree.toList := by
  induction tree generalizing level with
  | leaf entries =>
    unfold insert at h
    split at h
    · exact mem_putEntry h
    · dsimp only at h
      split at h <;> rcases List.mem_append.1 h with h | h
      · exact .inr (List.mem_filter.1 h).1
      · exact (mem_putEntry h).imp_right fun m => (List.mem_filter.1 m).1
      · exact (mem_putEntry h).imp_right fun m => (List.mem_filter.1 m).1
      · exact .inr (List.mem_filter.1 h).1
  | branch left right ihl ihr =>
    unfold insert at h
    split at h <;> rcases List.mem_append.1 h with h | h
    · exact .inr (List.mem_append_left _ h)
    · exact (ihr h).imp_right (List.mem_append_right _)
    · exact (ihl h).imp_right (List.mem_append_left _)
    · exact .inr (List.mem_append_right _ h)

theorem mem_of_mem_erase {key : Value} {mark level : Nat} {tree : KeyTree α} {entry : Value × α}
    (h : entry ∈ (tree.erase key mark level).toList) : entry ∈ tree.toList := by
  induction tree generalizing level with
  | leaf entries => exact (List.mem_filter.1 h).1
  | branch left right ihl ihr =>
    unfold erase at h
    split at h <;> rcases List.mem_append.1 h with h | h
    · exact List.mem_append_left _ h
    · exact List.mem_append_right _ (ihr h)
    · exact List.mem_append_left _ (ihl h)
    · exact List.mem_append_right _ h

theorem mem_of_mem_filter {keep : Value → Bool} {tree : KeyTree α} {entry : Value × α}
    (h : entry ∈ (tree.filter keep).toList) : entry ∈ tree.toList := by
  induction tree with
  | leaf entries => exact (List.mem_filter.1 h).1
  | branch left right ihl ihr =>
    rcases List.mem_append.1 h with h | h
    · exact List.mem_append_left _ (ihl h)
    · exact List.mem_append_right _ (ihr h)

theorem Proper.insert {tree : KeyTree α} {level : Nat} (h : tree.Proper level) (key : Value)
    (a : α) : (tree.insert key a key.mark level).Proper level := by
  induction tree generalizing level with
  | leaf entries =>
    unfold KeyTree.insert
    split
    · exact nodup_putEntry key a h
    · dsimp only
      have onLeft : ∀ entry ∈ entries.filter (fun entry => !isRight level entry.1),
          isRight level entry.1 = false := fun entry m => by
        simpa using (List.mem_filter.1 m).2
      have onRight : ∀ entry ∈ entries.filter (fun entry => isRight level entry.1),
          isRight level entry.1 = true := fun entry m => (List.mem_filter.1 m).2
      split
      · next bit =>
        refine ⟨onLeft, fun entry m => ?_, nodup_filter h, nodup_putEntry key a (nodup_filter h)⟩
        rcases mem_putEntry m with rfl | m
        · exact bit
        · exact onRight entry m
      · next bit =>
        refine ⟨fun entry m => ?_, onRight, nodup_putEntry key a (nodup_filter h), nodup_filter h⟩
        rcases mem_putEntry m with rfl | m
        · simpa [isRight] using bit
        · exact onLeft entry m
  | branch left right ihl ihr =>
    obtain ⟨onLeft, onRight, properLeft, properRight⟩ := h
    unfold KeyTree.insert
    split
    · next bit =>
      refine ⟨onLeft, fun entry m => ?_, properLeft, ihr properRight⟩
      rcases mem_insert m with rfl | m
      · exact bit
      · exact onRight entry m
    · next bit =>
      refine ⟨fun entry m => ?_, onRight, ihl properLeft, properRight⟩
      rcases mem_insert m with rfl | m
      · simpa [isRight] using bit
      · exact onLeft entry m

theorem Proper.erase {tree : KeyTree α} {level : Nat} (h : tree.Proper level) (key : Value)
    (mark : Nat) : (tree.erase key mark level).Proper level := by
  induction tree generalizing level with
  | leaf entries => exact nodup_filter h
  | branch left right ihl ihr =>
    obtain ⟨onLeft, onRight, properLeft, properRight⟩ := h
    unfold KeyTree.erase
    split
    · exact ⟨onLeft, fun entry m => onRight entry (mem_of_mem_erase m), properLeft,
        ihr properRight⟩
    · exact ⟨fun entry m => onLeft entry (mem_of_mem_erase m), onRight, ihl properLeft,
        properRight⟩

theorem Proper.filter {tree : KeyTree α} {level : Nat} (h : tree.Proper level)
    (keep : Value → Bool) : (tree.filter keep).Proper level := by
  induction tree generalizing level with
  | leaf entries => exact nodup_filter h
  | branch left right ihl ihr =>
    obtain ⟨onLeft, onRight, properLeft, properRight⟩ := h
    exact ⟨fun entry m => onLeft entry (mem_of_mem_filter m),
      fun entry m => onRight entry (mem_of_mem_filter m), ihl properLeft, ihr properRight⟩

theorem Proper.mem_toList {tree : KeyTree α} {level : Nat} (h : tree.Proper level) {key : Value}
    {a : α} : (key, a) ∈ tree.toList ↔ tree.find? key key.mark level = some a := by
  induction tree generalizing level with
  | leaf entries => exact (lookup?_eq_some_iff h).symm
  | branch left right ihl ihr =>
    obtain ⟨onLeft, onRight, properLeft, properRight⟩ := h
    rw [toList, List.mem_append, find?]
    by_cases bit : key.mark.testBit level
    · rw [if_pos bit, ← ihr properRight]
      refine or_iff_right fun m => ?_
      have := onLeft _ m
      rw [isRight, bit] at this
      exact Bool.noConfusion this
    · rw [if_neg bit, ← ihl properLeft]
      exact or_iff_left fun m => bit (onRight _ m)

theorem Proper.nodup_toList {tree : KeyTree α} {level : Nat} (h : tree.Proper level) :
    (tree.toList.map Prod.fst).Nodup := by
  induction tree generalizing level with
  | leaf entries => exact h
  | branch left right ihl ihr =>
    obtain ⟨onLeft, onRight, properLeft, properRight⟩ := h
    rw [toList, List.map_append, List.nodup_append]
    refine ⟨ihl properLeft, ihr properRight, ?_⟩
    intro key front other back e
    subst e
    obtain ⟨entry, m, rfl⟩ := List.mem_map.1 front
    obtain ⟨twin, n, e⟩ := List.mem_map.1 back
    have := onRight twin n
    rw [e, onLeft entry m] at this
    exact Bool.noConfusion this

end KeyTree

/-! ## Maps -/

/-- What keys have. -/
structure KeyMap (α : Type) where
  tree : KeyTree α
  proper : tree.Proper 0

namespace KeyMap

variable {α : Type}

/-- Nothing for any key. -/
def empty : KeyMap α := ⟨.leaf [], List.nodup_nil⟩

/-- What a key has. -/
def find? (map : KeyMap α) (key : Value) : Option α := map.tree.find? key key.mark 0

/-- Gives something to a key, in the place of what it has. -/
def insert (map : KeyMap α) (key : Value) (a : α) : KeyMap α :=
  ⟨map.tree.insert key a key.mark 0, map.proper.insert key a⟩

/-- Takes what a key has. -/
def erase (map : KeyMap α) (key : Value) : KeyMap α :=
  ⟨map.tree.erase key key.mark 0, map.proper.erase key key.mark⟩

/-- Keeps the keys that pass a test. -/
def filter (map : KeyMap α) (keep : Value → Bool) : KeyMap α :=
  ⟨map.tree.filter keep, map.proper.filter keep⟩

/-- The keys with what they have. -/
def toList (map : KeyMap α) : List (Value × α) := map.tree.toList

/-- Gives something to each key of a list; of several for one key the first counts. -/
def insertAll (map : KeyMap α) (entries : List (Value × α)) : KeyMap α :=
  entries.foldr (fun entry map => map.insert entry.1 entry.2) map

theorem find?_empty (key : Value) : (empty : KeyMap α).find? key = none := rfl

/-- After something is given to a key, the key has it and the others have what they had. -/
theorem find?_insert (map : KeyMap α) (key other : Value) (a : α) :
    (map.insert key a).find? other = if key = other then some a else map.find? other :=
  KeyTree.find?_insert key other a map.tree 0

/-- After something is taken from a key, the others have what they had. -/
theorem find?_erase (map : KeyMap α) (key other : Value) :
    (map.erase key).find? other = if key = other then none else map.find? other :=
  KeyTree.find?_erase key other map.tree 0

/-- The keys that are kept have what they had. -/
theorem find?_filter (map : KeyMap α) (keep : Value → Bool) (key : Value) :
    (map.filter keep).find? key = if keep key then map.find? key else none :=
  KeyTree.find?_filter keep key map.tree key.mark 0

theorem find?_insertAll (map : KeyMap α) (entries : List (Value × α)) (key : Value) :
    (map.insertAll entries).find? key = (lookup? key entries).or (map.find? key) := by
  induction entries with
  | nil => rfl
  | cons first rest ih =>
    rw [insertAll, List.foldr_cons, find?_insert]
    unfold lookup?
    split
    · rfl
    · exact ih

/-- The list has what is found. -/
theorem mem_toList (map : KeyMap α) {key : Value} {a : α} :
    (key, a) ∈ map.toList ↔ map.find? key = some a :=
  map.proper.mem_toList

/-- The list has every key once. -/
theorem nodup_toList (map : KeyMap α) : (map.toList.map Prod.fst).Nodup := map.proper.nodup_toList

end KeyMap

end ScriptHost.Script
