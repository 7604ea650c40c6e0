import ScriptHost.Proofs.Script.Globals

/-!
# Globals that are set one after the other

After some globals are set, each holds the value that it was set to last, and the others hold what
they did. The tables of the script other than that of the globals stay as they are.

* `World.Written` : a world after some globals are set.
* `World.Written.set` : a further global is set.
* `lookup_filterMap`, `lookup_map_pair` : the last value of a name in a list of pairs that is made
  from another list.
-/

namespace ScriptHost

/-! ## Looking up names in pairs -/

section

variable {α β : Type}

/-- The first pair with a name, in pairs that are made of the items of a list. -/
theorem lookup_filterMap (name : String) (nameOf : β → String) (value? : β → Option α)
    (items : List β) :
    (items.filterMap fun item => (value? item).map (nameOf item, ·)).lookup name
      = items.findSome? fun item => if nameOf item = name then value? item else none := by
  induction items with
  | nil => rfl
  | cons item items ih =>
    rw [List.filterMap_cons, List.findSome?_cons]
    cases given : value? item with
    | none =>
      rw [ite_self]
      exact ih
    | some value =>
      rw [Option.map_some, List.lookup_cons]
      by_cases same : nameOf item = name
      · rw [if_pos same, beq_iff_eq.2 same.symm]
      · rw [if_neg same, beq_false_of_ne (Ne.symm same)]
        exact ih

/-- The first pair with a name, when the values hang on the names only. -/
theorem lookup_map_pair (name : String) (nameOf : β → String) (valueOf : String → α)
    (items : List β) :
    (items.map fun item => (nameOf item, valueOf (nameOf item))).lookup name
      = if items.any fun item => nameOf item = name then some (valueOf name) else none := by
  induction items with
  | nil => rfl
  | cons item items ih =>
    rw [List.map_cons, List.lookup_cons, List.any_cons, ih]
    by_cases same : nameOf item = name
    · simp [same]
    · simp [same, beq_false_of_ne (Ne.symm same)]

end

/-- In an ordered map the last pair with a key is the only one. -/
theorem Entries.lookup_reverse {α : Type} {entries : Entries α} (ordered : entries.Ascending)
    (name : String) : entries.reverse.lookup name = Entries.find? name entries := by
  induction entries with
  | nil => rfl
  | cons entry rest ih =>
    obtain ⟨key, value⟩ := entry
    obtain ⟨first, ordered_rest⟩ := List.pairwise_cons.1 ordered
    rw [List.reverse_cons, List.lookup_append, ih ordered_rest, Entries.find?_cons]
    by_cases same : name = key
    · -- The key stands in front only, as those behind come after it.
      have absent : Entries.find? name rest = none := by
        cases found : Entries.find? name rest with
        | none => rfl
        | some other =>
          have later := first _ ((Entries.mem_iff_find? ordered_rest).2 found)
          rw [same] at later
          exact absurd later (String.lt_irrefl key)
      rw [absent, if_pos same, same, Option.none_or, List.lookup_cons_self]
    · rw [if_neg same, List.lookup_cons, beq_false_of_ne same]
      exact Option.or_none

namespace Script.World

/-! ## Worlds after several writes -/

/-- A world after some globals are set, one after the other. -/
structure Written (world : World) (writes : List (String × ScriptHost.Value)) (later : World) :
    Prop where
  plain : later.PlainGlobals
  /-- Of several values with one name the last counts. -/
  stored : ∀ name value, writes.reverse.lookup name = some value → later.Stored name value
  /-- The other globals hold what they did. -/
  kept : ∀ name, writes.reverse.lookup name = none →
    later.globalNamed name = world.globalNamed name
  size_le : world.tables.size ≤ later.tables.size
  /-- Of the other tables nothing but the place where their length is looked for has changed. -/
  spared : ∀ id, id ≠ globals → id < world.tables.size → (world.table id).Alike (later.table id)

variable {world later : World} {writes : List (String × ScriptHost.Value)}

/-- Nothing is set as long as tables are looked at only. -/
theorem Written.of_alike (plain : world.PlainGlobals) (alike : Alike world later)
    (size : later.tables.size = world.tables.size) : Written world [] later where
  plain := plain.of_alike alike
  stored := by
    intro name value found
    cases found
  kept name _ := globalNamed_of_alike alike name
  size_le := Nat.le_of_eq size.symm
  spared id _ _ := alike id

/-- A further global is set. -/
theorem Written.set (h : Written world writes later) (name : String)
    (value : ScriptHost.Value) :
    Written world (writes ++ [(name, value)]) (later.withGlobal name value).withoutEffects := by
  have grown := (image_importValue value later).2
  have last (other : String) : (writes ++ [(name, value)]).reverse.lookup other
      = if other = name then some value else writes.reverse.lookup other := by
    rw [List.reverse_append, List.reverse_singleton, List.singleton_append, List.lookup_cons]
    by_cases same : other = name
    · rw [if_pos same, beq_iff_eq.2 same]
    · rw [if_neg same, beq_false_of_ne same]
  constructor
  · exact (h.plain.withGlobal name value).of_alike (alike_withoutEffects _)
  · intro other set found
    rw [last] at found
    by_cases same : other = name
    · rw [if_pos same, Option.some.injEq] at found
      rw [same, ← found]
      exact (stored_withGlobal later name value).withoutEffects
    · rw [if_neg same] at found
      exact ((h.stored other set found).withGlobal (Ne.symm same)).withoutEffects
  · intro other absent
    rw [last] at absent
    by_cases same : other = name
    · rw [if_pos same] at absent
      cases absent
    · rw [if_neg same] at absent
      rw [globalNamed_of_alike (alike_withoutEffects _), globalNamed_withGlobal,
        if_neg (Ne.symm same)]
      exact h.kept other absent
  · refine Nat.le_trans h.size_le (Nat.le_trans grown.size_le (Nat.le_of_eq ?_))
    exact (size_setIn ..).symm
  · intro id other there
    have same : (later.withGlobal name value).table id = later.table id := by
      unfold withGlobal
      rw [table_setIn_of_ne (Ne.symm other)]
      exact grown.table_eq id (Nat.lt_of_lt_of_le there h.size_le)
    show (world.table id).Alike ((later.withGlobal name value).table id)
    rw [same]
    exact h.spared id other there

end Script.World

end ScriptHost
