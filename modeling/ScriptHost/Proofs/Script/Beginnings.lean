import ScriptHost.Proofs.Script.Writes

/-!
# The functions that a script finds

Before the top level of a script runs, the functions of the library are among its globals, and then
the host functions, which take the place of a function of the library with their name.

* `World.functionNamed?` : the function that a global holds.
* `provided?` : the function of the host or of the library with a name.
* `World.functionNamed?_initial`, `Interpreter.functionNamed?_beginning` : a script finds these
  functions and no others.
-/

namespace ScriptHost.Script

@[simp] theorem Value.isFunction_builtin (function : Builtin) :
    (Value.builtin function).isFunction = true := by
  simp [isFunction, kindName]

@[simp] theorem Value.isFunction_hostFunction (name : String) :
    (Value.hostFunction name).isFunction = true := by
  simp [isFunction, kindName]

namespace World

/-- The function that a global holds, if it holds one. -/
def functionNamed? (world : World) (name : String) : Option Value :=
  if (world.globalNamed name).isFunction then some (world.globalNamed name) else none

variable {world : World}

theorem functionNamed?_of_alike {other : World} (alike : Alike world other) (name : String) :
    other.functionNamed? name = world.functionNamed? name := by
  unfold functionNamed?
  rw [globalNamed_of_alike alike]

/-! ## Setting a name -/

theorem globalNamed_setNamed (world : World) (key : String) {value : Value}
    (within : value.Within world.tables.size) (name : String) :
    (world.setNamed globals key value).globalNamed name
      = if key = name then value else world.globalNamed name := by
  have there : globals < world.tables.size := world.rooted
  have within_key : (Value.ofString key).Within world.tables.size := trivial
  unfold globalNamed setNamed
  rw [table_setIn there within_key within, if_pos rfl, Table.get_set]
  by_cases same : key = name
  · simp [same]
  · have keys : (Value.ofString key).asKey ≠ (Value.ofString name).asKey :=
      fun h => same (ofString_injective h)
    rw [if_neg same, if_neg keys]

/-- Names in other tables are no globals. -/
theorem functionNamed?_setNamed_of_ne {id : Nat} (other : id ≠ globals) (key : String)
    (value : Value) (name : String) :
    (world.setNamed id key value).functionNamed? name = world.functionNamed? name := by
  unfold functionNamed? globalNamed setNamed
  rw [table_setIn_of_ne other]

/-- A global that is set to a function holds it. -/
theorem functionNamed?_setNamed {value : Value} (isFunction : value.isFunction = true)
    (within : value.Within world.tables.size) (key name : String) :
    (world.setNamed globals key value).functionNamed? name
      = if key = name then some value else world.functionNamed? name := by
  unfold functionNamed?
  rw [globalNamed_setNamed world key within]
  by_cases same : key = name <;> simp [same, isFunction]

/-- A global that holds no function may be set to something else. -/
theorem functionNamed?_setNamed_of_none {key : String} (absent : world.functionNamed? key = none)
    {value : Value} (other : value.isFunction = false) (name : String) :
    (world.setNamed globals key value).functionNamed? name = world.functionNamed? name := by
  by_cases within : value.Within world.tables.size
  · by_cases same : key = name
    · rw [← same, absent]
      unfold functionNamed?
      rw [globalNamed_setNamed world key within]
      simp [other]
    · unfold functionNamed?
      rw [globalNamed_setNamed world key within, if_neg same]
  · have untouched : world.setNamed globals key value = world :=
      dif_neg fun both => within both.2
    rw [untouched]

/-! ## The library -/

theorem functionNamed?_setUnavailable {id : Nat} (other : id ≠ globals) (library : String)
    (names : List String) (name : String) :
    (world.setUnavailable id library names).functionNamed? name = world.functionNamed? name := by
  unfold setUnavailable
  induction names generalizing world with
  | nil => rfl
  | cons first names ih => exact ih.trans (functionNamed?_setNamed_of_ne other _ _ _)

/-- The functions in a further table of the library are no globals. -/
theorem functionNamed?_addLibrary {library : String} (absent : world.functionNamed? library = none)
    (names : List String) (name : String) :
    (world.addLibrary library names).functionNamed? name = world.functionNamed? name := by
  have other : world.nextTable ≠ globals := Nat.ne_of_gt world.rooted
  have filled (name : String) :
      (world.newTable.setUnavailable world.nextTable library names).functionNamed? name
        = world.functionNamed? name := by
    rw [functionNamed?_setUnavailable other]
    unfold functionNamed? globalNamed
    rw [table_newTable]
  have named : ((world.newTable.setUnavailable world.nextTable library names).setNamed globals
      library (.table world.nextTable)).functionNamed? name = world.functionNamed? name := by
    rw [functionNamed?_setNamed_of_none ((filled library).trans absent) rfl, filled]
  unfold addLibrary
  cases libraryValue? library with
  | none => exact named
  | some entry => exact (functionNamed?_setNamed_of_ne other _ _ _).trans named

theorem functionNamed?_foldl_addLibrary {libraries : List (String × List String)}
    (absent : ∀ entry ∈ libraries, world.functionNamed? entry.1 = none) (name : String) :
    (libraries.foldl (fun world entry => world.addLibrary entry.1 entry.2) world).functionNamed?
      name = world.functionNamed? name := by
  induction libraries generalizing world with
  | nil => rfl
  | cons entry libraries ih =>
    obtain ⟨first, others⟩ := List.forall_mem_cons.1 absent
    rw [List.foldl_cons, ih, functionNamed?_addLibrary first]
    intro other m
    rw [functionNamed?_addLibrary first]
    exact others other m

/-- Of functions that are set one after the other, the last one with a name counts. -/
theorem functionNamed?_foldl_setNamed (functions : List (String × Builtin)) (name : String) :
    (functions.foldl (fun world entry => world.setNamed globals entry.1 (.builtin entry.2))
      world).functionNamed? name
      = ((functions.reverse.lookup name).map .builtin).or (world.functionNamed? name) := by
  induction functions generalizing world with
  | nil => rfl
  | cons entry functions ih =>
    have within : (Value.builtin entry.2).Within world.tables.size := trivial
    rw [List.foldl_cons, ih, functionNamed?_setNamed (Value.isFunction_builtin _) within,
      List.reverse_cons, List.lookup_append]
    cases functions.reverse.lookup name with
    | some function => rfl
    | none =>
      by_cases same : entry.1 = name
      · rw [if_pos same, List.lookup_cons, beq_iff_eq.2 same.symm]
        rfl
      · rw [if_neg same, List.lookup_cons, beq_false_of_ne (Ne.symm same)]
        rfl

/-- No function is a global of a world without entries. -/
theorem functionNamed?_of_table_eq (empty : world.table globals = .empty) (name : String) :
    world.functionNamed? name = none := by
  unfold functionNamed? globalNamed Table.get
  rw [empty, Table.find_empty]
  rfl

/-- The functions that are globals of the first world are those of the library. -/
theorem functionNamed?_initial (name : String) :
    World.initial.functionNamed? name = (Entries.find? name globalFunctions).map .builtin := by
  have ordered : Entries.Ascending globalFunctions := by
    unfold Entries.Ascending
    decide +kernel
  -- What is set next to the functions has other names.
  have further : ∀ other ∈ "string" :: "_G" :: "_VERSION" :: libraryNames.map Prod.fst,
      Entries.find? other globalFunctions = none := by
    decide +kernel
  have nothing (name : String) : (World.newTable {}).functionNamed? name = none :=
    functionNamed?_of_table_eq (table_newTable _ _) name
  let first : World := globalFunctions.foldl
    (fun world entry => world.setNamed globals entry.1 (.builtin entry.2)) (World.newTable {})
  have functions (name : String) : first.functionNamed? name
      = (Entries.find? name globalFunctions).map .builtin := by
    rw [functionNamed?_foldl_setNamed, nothing, Entries.lookup_reverse ordered, Option.or_none]
  have absent (other : String)
      (m : other ∈ "string" :: "_G" :: "_VERSION" :: libraryNames.map Prod.fst) :
      first.functionNamed? other = none := by
    rw [functions, further other m]
    rfl
  let second : World := (first.setUnavailable stringLibrary "string" stringNames).setNamed globals
    "string" (.table stringLibrary)
  have strings (name : String) : second.functionNamed? name = first.functionNamed? name := by
    have filled := @functionNamed?_setUnavailable first stringLibrary (by decide) "string"
      stringNames
    rw [functionNamed?_setNamed_of_none ((filled _).trans (absent "string" (by simp))) rfl, filled]
  let third : World :=
    libraryNames.foldl (fun world entry => world.addLibrary entry.1 entry.2) second
  have libraries (name : String) : third.functionNamed? name = first.functionNamed? name := by
    refine (functionNamed?_foldl_addLibrary (fun entry m => ?_) name).trans (strings name)
    rw [strings]
    exact absent entry.1 (by simp only [List.mem_cons, List.mem_map_of_mem m, or_true])
  let fourth : World := third.setNamed globals "_G" (.table globals)
  have globals_named (name : String) : fourth.functionNamed? name = first.functionNamed? name := by
    rw [functionNamed?_setNamed_of_none ((libraries _).trans (absent "_G" (by simp))) rfl, libraries]
  show (fourth.setNamed globals "_VERSION" (.ofString "Lua 5.4")).functionNamed? name = _
  rw [functionNamed?_setNamed_of_none ((globals_named _).trans (absent "_VERSION" (by simp))) rfl,
    globals_named, functions]

end World

/-! ## Scripts -/

/-- The function that a script finds under a name before it runs: a host function, or else one of
the library. -/
def provided? (host : HostFunctions) (name : String) : Option Value :=
  if name ∈ host.names then some (.hostFunction name)
  else (Entries.find? name globalFunctions).map .builtin

namespace Interpreter

/-- The world in which the top level of a script starts to run. -/
def beginning (host : HostFunctions) : World := provide host World.initial

/-- A script finds the functions of the host and of the library among its globals. -/
theorem functionNamed?_beginning (host : HostFunctions) (name : String) :
    (beginning host).functionNamed? name = provided? host name := by
  have general (names : List String) (world : World) :
      (names.foldl (fun world name => world.setNamed World.globals name (.hostFunction name))
        world).functionNamed? name
      = if name ∈ names then some (.hostFunction name) else world.functionNamed? name := by
    induction names generalizing world with
    | nil => simp
    | cons first names ih =>
      have within : (Value.hostFunction first).Within world.tables.size := trivial
      rw [List.foldl_cons, ih,
        World.functionNamed?_setNamed (Value.isFunction_hostFunction first) within]
      by_cases same : first = name
      · simp [same]
      · simp [same, Ne.symm same]
  rw [beginning, provide, general, World.functionNamed?_initial]
  rfl

end Interpreter

end ScriptHost.Script
