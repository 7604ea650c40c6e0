import ScriptHost.Ordered

/-!
# Maps of lists

A map that is made from the pairs of a map, in any order, is that map.

* `map_eq_self_iff` : when the items of a list stay what they are.
* `Entries.mem_insert` : the pairs after a value is set.
* `Entries.ascending_ofList` : every map made from a list is in order.
* `Entries.ofList_of_perm` : the order of pairs does not count.
-/

namespace ScriptHost

/-- A list stays what it is under a map when each of its items does. -/
theorem map_eq_self_iff {α : Type} {f : α → α} {items : List α} :
    items.map f = items ↔ ∀ item ∈ items, f item = item := by
  calc items.map f = items ↔ items.map f = items.map id := by rw [List.map_id]
    _ ↔ ∀ item ∈ items, f item = item := List.map_inj_left

namespace Entries

variable {α : Type}

section

variable {κ : Type} [LT κ] [DecidableEq κ] [Std.Irrefl (α := κ) (· < ·)]

/-- In an ordered map a pair is found by its key. -/
theorem mem_iff_find? {entries : Entries α κ} (h : Ascending entries) {key : κ} {value : α} :
    (key, value) ∈ entries ↔ find? key entries = some value := by
  induction entries with
  | nil => simp [find?_nil]
  | cons entry rest ih =>
    obtain ⟨k, v⟩ := entry
    obtain ⟨first, rest_ascending⟩ := List.pairwise_cons.1 h
    rw [find?_cons, List.mem_cons]
    by_cases same : key = k
    · rw [if_pos same, Prod.mk.injEq, Option.some.injEq]
      constructor
      · rintro (⟨_, e⟩ | m)
        · exact e.symm
        · have later := first _ m
          rw [same] at later
          exact absurd later Std.lt_irrefl
      · intro e
        exact .inl ⟨same, e.symm⟩
    · rw [if_neg same, ← ih rest_ascending]
      constructor
      · rintro (e | m)
        · exact absurd (congrArg Prod.fst e) same
        · exact m
      · exact .inr

variable [DecidableLT κ] [Trans (α := κ) (· < ·) (· < ·) (· < ·)]
  [Std.Trichotomous (α := κ) (· < ·)]

/-- The pairs after a value is set. -/
theorem mem_insert {entries : Entries α κ} (h : Ascending entries) {key : κ} {value : α}
    {pair : κ × α} :
    pair ∈ insert key value entries ↔ pair = (key, value) ∨ pair.1 ≠ key ∧ pair ∈ entries := by
  obtain ⟨k, v⟩ := pair
  rw [mem_iff_find? (h.insert key value), find?_insert, mem_iff_find? h]
  by_cases same : k = key
  · rw [if_pos same, Option.some.injEq, Prod.mk.injEq]
    constructor
    · intro e
      exact .inl ⟨same, e.symm⟩
    · rintro (⟨_, e⟩ | ⟨other, _⟩)
      · exact e.symm
      · exact absurd same other
  · rw [if_neg same, Prod.mk.injEq]
    constructor
    · intro found
      exact .inr ⟨same, found⟩
    · rintro (⟨e, _⟩ | ⟨_, found⟩)
      · exact absurd e same
      · exact found

end

theorem insert_ne_nil {κ : Type} [LT κ] [DecidableLT κ] [DecidableEq κ] (key : κ) (value : α)
    (entries : Entries α κ) : insert key value entries ≠ [] := by
  have there : key ∈ keys (insert key value entries) := mem_keys_insert.2 (.inl rfl)
  intro nothing
  rw [nothing] at there
  cases there

/-- Setting values one after the other keeps the order. -/
theorem ascending_foldl_insert (pairs : List (String × α)) {entries : Entries α}
    (h : Ascending entries) :
    Ascending (pairs.foldl (fun entries pair => insert pair.1 pair.2 entries) entries) := by
  induction pairs generalizing entries with
  | nil => exact h
  | cons pair pairs ih => exact ih (h.insert pair.1 pair.2)

/-- Every map made from a list is in order. -/
theorem ascending_ofList (pairs : List (String × α)) : Ascending (ofList pairs) :=
  ascending_foldl_insert pairs ascending_nil

/-- Nothing is there after some pairs are set but what was there or is set. -/
theorem mem_or_mem_of_mem_foldl_insert {pairs : List (String × α)} {entries : Entries α}
    (h : Ascending entries) {pair : String × α}
    (m : pair ∈ pairs.foldl (fun entries pair => insert pair.1 pair.2 entries) entries) :
    pair ∈ pairs ∨ pair ∈ entries := by
  induction pairs generalizing entries with
  | nil => exact .inr m
  | cons first pairs ih =>
    rcases ih (h.insert first.1 first.2) m with m | m
    · exact .inl (List.mem_cons_of_mem first m)
    · rcases (mem_insert h).1 m with rfl | ⟨_, m⟩
      · exact .inl List.mem_cons_self
      · exact .inr m

/-- A map made from a list has pairs of the list only. -/
theorem mem_of_mem_ofList {pairs : List (String × α)} {pair : String × α}
    (m : pair ∈ ofList pairs) : pair ∈ pairs := by
  rcases mem_or_mem_of_mem_foldl_insert ascending_nil m with m | m
  · exact m
  · cases m

/-- The keys after some pairs are set. -/
theorem mem_keys_foldl_insert {pairs : List (String × α)} {entries : Entries α} {key : String} :
    key ∈ keys (pairs.foldl (fun entries pair => insert pair.1 pair.2 entries) entries)
      ↔ key ∈ pairs.map Prod.fst ∨ key ∈ keys entries := by
  induction pairs generalizing entries with
  | nil => simp
  | cons first pairs ih =>
    rw [List.foldl_cons, ih, mem_keys_insert, List.map_cons, List.mem_cons, or_left_comm, or_assoc]

/-- A map made from a list has the keys of the list. -/
theorem mem_keys_ofList {pairs : List (String × α)} {key : String} :
    key ∈ keys (ofList pairs) ↔ key ∈ pairs.map Prod.fst := by
  rw [ofList, mem_keys_foldl_insert]
  simp [keys]

/-- Pairs with different keys are all there after they are set. -/
theorem mem_foldl_insert {pairs : List (String × α)} (different : (pairs.map Prod.fst).Nodup)
    {entries : Entries α} (h : Ascending entries)
    (new : ∀ pair ∈ pairs, pair.1 ∉ keys entries) {pair : String × α} :
    pair ∈ pairs.foldl (fun entries pair => insert pair.1 pair.2 entries) entries
      ↔ pair ∈ pairs ∨ pair ∈ entries := by
  induction pairs generalizing entries with
  | nil => simp
  | cons first pairs ih =>
    obtain ⟨absent, different⟩ := List.nodup_cons.1 different
    -- No pair replaces another one: the keys behind are neither those before nor the first.
    have later : ∀ other ∈ pairs, other.1 ∉ keys (insert first.1 first.2 entries) := by
      intro other m k
      rcases mem_keys_insert.1 k with same | old
      · exact absent (same ▸ List.mem_map_of_mem m)
      · exact new other (List.mem_cons_of_mem first m) old
    rw [List.foldl_cons, ih different (h.insert first.1 first.2) later, mem_insert h,
      List.mem_cons]
    constructor
    · rintro (m | e | ⟨_, m⟩)
      · exact .inl (.inr m)
      · exact .inl (.inl e)
      · exact .inr m
    · rintro ((e | m) | m)
      · exact .inr (.inl e)
      · exact .inl m
      · refine .inr (.inr ⟨?_, m⟩)
        intro same
        exact new first List.mem_cons_self (same ▸ List.mem_map_of_mem m)

theorem ascending_iff_keys {entries : Entries α} :
    Ascending entries ↔ (keys entries).Pairwise (· < ·) := List.pairwise_map.symm

theorem Ascending.nodup_keys {entries : Entries α} (h : Ascending entries) :
    (entries.map Prod.fst).Nodup := by
  refine List.pairwise_map.2 (h.imp fun {a b} lt same => ?_)
  rw [same] at lt
  exact String.lt_irrefl _ lt

theorem Ascending.nodup {entries : Entries α} (h : Ascending entries) : entries.Nodup := by
  refine h.imp fun {a b} lt same => ?_
  rw [same] at lt
  exact String.lt_irrefl _ lt

/-- The map of pairs with different keys has those pairs. -/
theorem mem_ofList {pairs : List (String × α)} (different : (pairs.map Prod.fst).Nodup)
    {pair : String × α} : pair ∈ ofList pairs ↔ pair ∈ pairs := by
  rw [ofList, mem_foldl_insert different ascending_nil (fun _ _ => List.not_mem_nil)]
  simp

/-- Maps in order with the same pairs are the same. -/
theorem Ascending.ext {entries others : Entries α} (h : Ascending entries) (k : Ascending others)
    (same : ∀ pair, pair ∈ entries ↔ pair ∈ others) : entries = others := by
  have perm := (List.perm_ext_iff_of_nodup h.nodup k.nodup).2 same
  refine perm.eq_of_pairwise (fun a b _ _ lt gt => ?_) h k
  exact absurd (String.lt_trans lt gt) (String.lt_irrefl _)

/-- The order of pairs does not count. -/
theorem ofList_of_perm {pairs entries : Entries α} (h : Ascending entries)
    (perm : pairs.Perm entries) : ofList pairs = entries := by
  have different : (pairs.map Prod.fst).Nodup := (perm.map Prod.fst).nodup_iff.2 h.nodup_keys
  refine (ascending_ofList pairs).ext h fun pair => ?_
  rw [mem_ofList different, perm.mem_iff]

/-- The map of the pairs of a map is that map. -/
theorem ofList_of_ascending {entries : Entries α} (h : Ascending entries) :
    ofList entries = entries := ofList_of_perm h (List.Perm.refl entries)

end Entries

end ScriptHost
