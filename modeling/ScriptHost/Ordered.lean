/-!
# Maps and sets in key order

A map is a list of pairs in ascending key order, and a set of strings an ascending list. Strings are
ordered by their characters' code points.

* `Entries.insert`, `Entries.find?`, `Entries.retain` : the operations on maps.
* `Entries.Ascending`, `NameSet.Ascending` : each key stands once, in ascending order.
* `Entries.find?_insert`, `Entries.Ascending.insert` : what is put in is found, and order is kept.
* `NameSet.mem_insert`, `NameSet.Ascending.insert` : the same for sets.
-/

namespace ScriptHost

/-- Of two different strings one comes first. -/
theorem string_lt_or_gt_of_ne {a b : String} (h : a ≠ b) : a < b ∨ b < a := by
  by_cases hab : a < b
  · exact .inl hab
  · by_cases hba : b < a
    · exact .inr hba
    · exact absurd (String.le_antisymm (String.not_lt.1 hba) (String.not_lt.1 hab)) h

/-! ## Maps -/

/-- A map from strings, or from keys of another type, as pairs in ascending key order. -/
abbrev Entries (α : Type) (κ : Type := String) := List (κ × α)

namespace Entries

variable {κ α : Type}

/-- Each key stands once, in ascending order. -/
def Ascending [LT κ] (entries : Entries α κ) : Prop := entries.Pairwise (fun a b => a.1 < b.1)

/-- Sets the value of a key. -/
def insert [LT κ] [DecidableLT κ] [DecidableEq κ] (key : κ) (value : α) : Entries α κ → Entries α κ
  | [] => [(key, value)]
  | (k, v) :: rest =>
    if key < k then (key, value) :: (k, v) :: rest
    else if key = k then (key, value) :: rest
    else (k, v) :: insert key value rest

/-- The value of a key. -/
def find? [DecidableEq κ] (key : κ) : Entries α κ → Option α
  | [] => none
  | (k, v) :: rest => if key = k then some v else find? key rest

/-- The keys in ascending order. -/
def keys (entries : Entries α κ) : List κ := entries.map Prod.fst

/-- The pairs whose key passes the test. -/
def retain (keep : κ → Bool) (entries : Entries α κ) : Entries α κ :=
  entries.filter fun entry => keep entry.1

/-- Applies a function to every value. -/
def mapValues {β : Type} (f : α → β) (entries : Entries α κ) : Entries β κ :=
  entries.map fun entry => (entry.1, f entry.2)

/-- The map of a list of pairs; of two pairs with one key the later counts. -/
def ofList [LT κ] [DecidableLT κ] [DecidableEq κ] (pairs : List (κ × α)) : Entries α κ :=
  pairs.foldl (fun entries pair => insert pair.1 pair.2 entries) []

section

variable [DecidableEq κ]

@[simp] theorem find?_nil (key : κ) : find? key ([] : Entries α κ) = none := rfl

theorem find?_cons (key k : κ) (v : α) (rest : Entries α κ) :
    find? key ((k, v) :: rest) = if key = k then some v else find? key rest := rfl

variable [LT κ] [DecidableLT κ]

/-- After a value is set, its key finds it and the other keys find what they did. -/
theorem find?_insert (key other : κ) (value : α) (entries : Entries α κ) :
    find? other (insert key value entries)
      = if other = key then some value else find? other entries := by
  induction entries with
  | nil => rfl
  | cons entry rest ih =>
    obtain ⟨k, v⟩ := entry
    unfold insert
    split
    · rfl
    · split
      · next h =>
        subst h
        by_cases e : other = key <;> simp [find?_cons, e]
      · next h =>
        rw [find?_cons, ih, find?_cons]
        by_cases e : other = k
        · subst e
          rw [if_pos rfl, if_neg fun e : other = key => h e.symm, if_pos rfl]
        · simp [e]

/-- The keys after a value is set. -/
theorem mem_keys_insert {key other : κ} {value : α} {entries : Entries α κ} :
    other ∈ keys (insert key value entries) ↔ other = key ∨ other ∈ keys entries := by
  induction entries with
  | nil => simp [insert, keys]
  | cons entry rest ih =>
    obtain ⟨k, v⟩ := entry
    simp only [keys] at ih ⊢
    unfold insert
    split
    · simp
    · split
      · next h => subst h; simp
      · simp only [List.map_cons, List.mem_cons, ih]
        constructor
        · rintro (h | h | h) <;> simp [h]
        · rintro (h | h | h) <;> simp [h]

variable [Trans (α := κ) (· < ·) (· < ·) (· < ·)] [Std.Trichotomous (α := κ) (· < ·)]

/-- Setting a value keeps the order. -/
theorem Ascending.insert {entries : Entries α κ} (h : Ascending entries) (key : κ) (value : α) :
    Ascending (Entries.insert key value entries) := by
  induction entries with
  | nil => simp [Entries.insert, Ascending]
  | cons entry rest ih =>
    obtain ⟨k, v⟩ := entry
    have hp := List.pairwise_cons.1 h
    unfold Entries.insert
    split
    · next lt =>
      refine List.pairwise_cons.2 ⟨?_, h⟩
      intro b hb
      rcases List.mem_cons.1 hb with rfl | hb
      · exact lt
      · exact Std.lt_trans lt (hp.1 b hb)
    · split
      · next e => subst e; exact List.pairwise_cons.2 ⟨hp.1, hp.2⟩
      · next nlt ne =>
        refine List.pairwise_cons.2 ⟨?_, ih hp.2⟩
        intro b hb
        have hk : b.1 ∈ keys (Entries.insert key value rest) := List.mem_map_of_mem hb
        rcases mem_keys_insert.1 hk with e | m
        · rw [e]
          rcases Std.lt_trichotomy key k with lt | same | gt
          · exact absurd lt nlt
          · exact absurd same ne
          · exact gt
        · obtain ⟨b', hb', e⟩ := List.mem_map.1 m
          rw [← e]
          exact hp.1 b' hb'

end

@[simp] theorem ascending_nil [LT κ] : Ascending ([] : Entries α κ) := List.Pairwise.nil

/-- Leaving pairs out keeps the order. -/
theorem Ascending.retain [LT κ] {entries : Entries α κ} (h : Ascending entries) (keep : κ → Bool) :
    Ascending (Entries.retain keep entries) :=
  List.Pairwise.filter _ h

end Entries

/-! ## Sets -/

/-- A set of strings, as an ascending list. -/
abbrev NameSet := List String

namespace NameSet

/-- Each name stands once, in ascending order. -/
def Ascending (names : NameSet) : Prop := names.Pairwise (· < ·)

/-- Adds a name. -/
def insert (name : String) : NameSet → NameSet
  | [] => [name]
  | n :: rest =>
    if name < n then name :: n :: rest
    else if name = n then n :: rest
    else n :: insert name rest

theorem mem_insert {name other : String} {names : NameSet} :
    other ∈ insert name names ↔ other = name ∨ other ∈ names := by
  induction names with
  | nil => simp [insert]
  | cons n rest ih =>
    unfold insert
    split
    · simp
    · split
      · next h => subst h; simp
      · simp only [List.mem_cons, ih]
        constructor
        · rintro (h | h | h) <;> simp [h]
        · rintro (h | h | h) <;> simp [h]

/-- Adding a name keeps the order. -/
theorem Ascending.insert {names : NameSet} (h : Ascending names) (name : String) :
    Ascending (NameSet.insert name names) := by
  induction names with
  | nil => simp [NameSet.insert, Ascending]
  | cons n rest ih =>
    have hp := List.pairwise_cons.1 h
    unfold NameSet.insert
    split
    · next lt =>
      refine List.pairwise_cons.2 ⟨?_, h⟩
      intro b hb
      rcases List.mem_cons.1 hb with rfl | hb
      · exact lt
      · exact String.lt_trans lt (hp.1 b hb)
    · split
      · exact h
      · next nlt ne =>
        refine List.pairwise_cons.2 ⟨?_, ih hp.2⟩
        intro b hb
        rcases mem_insert.1 hb with rfl | m
        · rcases string_lt_or_gt_of_ne ne with lt | lt
          · exact absurd lt nlt
          · exact lt
        · exact hp.1 b m

@[simp] theorem ascending_nil : Ascending [] := List.Pairwise.nil

/-- No name stands twice. -/
theorem Ascending.nodup {names : NameSet} (h : Ascending names) : names.Nodup := by
  refine h.imp fun {a b} lt same => ?_
  rw [same] at lt
  exact String.lt_irrefl _ lt

end NameSet

end ScriptHost
