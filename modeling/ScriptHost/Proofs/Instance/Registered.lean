import ScriptHost.Proofs.Instance.Calls
import ScriptHost.Proofs.Script.Beginnings

/-!
# Which declarations the host can call

The registry looks the name of a declaration up among the globals, when the top level has run. What
a declaration says besides its name and its parameters does not count: a local function is left out
only if no global holds a function under its name, and the library and the host hold some.

* `Registry.InStep`, `Registry.inStep_build` : the names of a registry are those of its functions.
* `Registry.find?_build` : what the registry of some declarations finds.
* `Instance.Hidden` : a function that no call and no tag reaches.
* `Instance.registered_of_untouched` : what the host finds under a name that the top level leaves
  alone.
-/

namespace ScriptHost

open Script (World)

namespace Registry

/-- Whether one of some declarations has a name and so many parameters. -/
def declares (declarations : List FunctionDecl) (name : String) (arity : Nat) : Bool :=
  declarations.any fun declaration => declaration.name = name ∧ declaration.arity = arity

theorem declares_iff {declarations : List FunctionDecl} {name : String} {arity : Nat} :
    declares declarations name arity = true
      ↔ ∃ declaration ∈ declarations, declaration.name = name ∧ declaration.arity = arity := by
  simp [declares]

variable {script : Script.Interpreter}

/-! ## Functions and names -/

/-- The functions of a registry are in order under their own names and arities, and its names are in
step with them: a name is there when there are functions of that name. -/
structure InStep (registry : Registry) : Prop where
  functions_ascending : Entries.Ascending registry.functions
  arities_ascending : ∀ entry ∈ registry.functions, Entries.Ascending entry.2
  /-- Each function stands under its name and its arity. -/
  keyed : ∀ entry ∈ registry.functions, ∀ named ∈ entry.2,
    named.2.name = entry.1 ∧ named.2.arity = named.1
  /-- No name is without functions. -/
  inhabited : ∀ entry ∈ registry.functions, entry.2 ≠ []
  names_ascending : NameSet.Ascending registry.names
  mem_names : ∀ name, name ∈ registry.names ↔ name ∈ Entries.keys registry.functions

theorem inStep_empty : InStep {} where
  functions_ascending := Entries.ascending_nil
  arities_ascending := by simp
  keyed := by simp
  inhabited := by simp
  names_ascending := NameSet.ascending_nil
  mem_names := by simp [Entries.keys]

section

variable {registry : Registry} (h : InStep registry)
include h

/-- The functions of a name, also if there are none, are in order and keyed by their arities. -/
theorem InStep.named (name : String) :
    Entries.Ascending ((Entries.find? name registry.functions).getD [])
      ∧ ∀ named ∈ (Entries.find? name registry.functions).getD [],
        named.2.name = name ∧ named.2.arity = named.1 := by
  cases found : Entries.find? name registry.functions with
  | none => exact ⟨Entries.ascending_nil, fun _ m => nomatch m⟩
  | some named =>
    have m := (Entries.mem_iff_find? h.functions_ascending).2 found
    exact ⟨h.arities_ascending _ m, h.keyed _ m⟩

/-- Putting a function in keeps functions and names in step. -/
theorem InStep.insert (handle : FunctionHandle) : InStep (registry.insert handle) where
  functions_ascending := h.functions_ascending.insert _ _
  arities_ascending := by
    intro entry m
    rcases (Entries.mem_insert h.functions_ascending).1 m with rfl | ⟨_, m⟩
    · exact (h.named handle.name).1.insert _ _
    · exact h.arities_ascending entry m
  keyed := by
    intro entry m
    rcases (Entries.mem_insert h.functions_ascending).1 m with rfl | ⟨_, m⟩
    · obtain ⟨ascending, keyed⟩ := h.named handle.name
      intro named n
      rcases (Entries.mem_insert ascending).1 n with rfl | ⟨_, n⟩
      · exact ⟨rfl, rfl⟩
      · exact keyed named n
    · exact h.keyed entry m
  inhabited := by
    intro entry m
    rcases (Entries.mem_insert h.functions_ascending).1 m with rfl | ⟨_, m⟩
    · exact Entries.insert_ne_nil _ _ _
    · exact h.inhabited entry m
  names_ascending := h.names_ascending.insert handle.name
  mem_names name := by
    show name ∈ NameSet.insert handle.name registry.names ↔ _
    rw [NameSet.mem_insert, h.mem_names]
    exact Entries.mem_keys_insert.symm

/-- The functions and names of the registry of some declarations are in step. -/
theorem inStep_build (script : Script.Interpreter) (journal : List Event)
    (declarations : List FunctionDecl) :
    InStep (build script registry journal declarations).1 := by
  induction declarations generalizing registry script journal with
  | nil => exact h
  | cons declaration rest ih =>
    rw [build]
    dsimp only
    split
    · exact ih (h.insert _) _ _
    · exact ih h _ _

/-- A function is found by its name and its arity. -/
theorem InStep.find?_eq_some_iff {name : String} {arity : Nat} {handle : FunctionHandle} :
    registry.find? name arity = some handle
      ↔ handle ∈ registry.handles ∧ handle.name = name ∧ handle.arity = arity := by
  unfold find? handles handlesOf
  rw [Option.bind_eq_some_iff, List.mem_flatMap]
  constructor
  · rintro ⟨named, found, found_arity⟩
    have m := (Entries.mem_iff_find? h.functions_ascending).2 found
    have n := (Entries.mem_iff_find? (h.arities_ascending _ m)).2 found_arity
    exact ⟨⟨_, m, List.mem_map_of_mem n⟩, h.keyed _ m _ n⟩
  · rintro ⟨⟨⟨key, named⟩, m, inner⟩, rfl, rfl⟩
    obtain ⟨⟨count, other⟩, n, rfl⟩ := List.mem_map.1 inner
    obtain ⟨name_eq, arity_eq⟩ := h.keyed _ m _ n
    dsimp only at name_eq arity_eq ⊢
    rw [name_eq, arity_eq]
    exact ⟨named, (Entries.mem_iff_find? h.functions_ascending).1 m,
      (Entries.mem_iff_find? (h.arities_ascending _ m)).1 n⟩

/-- A name is there when a function is found under it. -/
theorem InStep.mem_names_iff {name : String} :
    name ∈ registry.names ↔ ∃ arity, (registry.find? name arity).isSome = true := by
  rw [h.mem_names, Entries.keys, List.mem_map]
  constructor
  · rintro ⟨⟨key, named⟩, m, rfl⟩
    obtain ⟨⟨arity, handle⟩, n⟩ := List.exists_mem_of_ne_nil named (h.inhabited _ m)
    have found := (Entries.mem_iff_find? h.functions_ascending).1 m
    have found_arity := (Entries.mem_iff_find? (h.arities_ascending _ m)).1 n
    refine ⟨arity, ?_⟩
    rw [find?, found, Option.bind_some, found_arity]
    rfl
  · rintro ⟨arity, there⟩
    obtain ⟨handle, found⟩ := Option.isSome_iff_exists.1 there
    obtain ⟨named, found_name, _⟩ := Option.bind_eq_some_iff.1 found
    exact ⟨_, (Entries.mem_iff_find? h.functions_ascending).2 found_name, rfl⟩

end

/-! ## Declarations -/

/-- The next declaration is looked up in a script whose tables are alike. -/
theorem build_cons (plain : script.world.PlainReads) (registry : Registry) (journal : List Event)
    (declaration : FunctionDecl) (rest : List FunctionDecl) :
    ∃ after events, World.Alike script.world after
      ∧ after.tables.size = script.world.tables.size
      ∧ build script registry journal (declaration :: rest)
        = build { script with world := after }
            (match script.world.functionNamed? declaration.name with
              | some function => registry.insert ⟨declaration.name, declaration.arity, function⟩
              | none => registry) events rest := by
  obtain ⟨after, effects, found, alike, size⟩ :=
    Script.Interpreter.function?_spec plain declaration.name
  have looked : script.function? declaration.name
      = (script.world.functionNamed? declaration.name, { script with world := after }, effects) :=
    found
  rw [build, looked]
  dsimp only
  cases script.world.functionNamed? declaration.name with
  | some function => exact ⟨after, _, alike, size, rfl⟩
  | none => exact ⟨after, _, alike, size, rfl⟩

/-- Looking up declarations leaves the tables alike. -/
theorem alike_build (plain : script.world.PlainReads) (registry : Registry) (journal : List Event)
    (declarations : List FunctionDecl) :
    World.Alike script.world (build script registry journal declarations).2.1.world
      ∧ (build script registry journal declarations).2.1.world.tables.size
        = script.world.tables.size := by
  induction declarations generalizing script registry journal with
  | nil => exact ⟨.refl _, rfl⟩
  | cons declaration rest ih =>
    obtain ⟨after, events, alike, size, step⟩ :=
      build_cons plain registry journal declaration rest
    have later (registry : Registry) :=
      @ih { script with world := after } (plain.of_alike alike) registry events
    rw [step]
    exact ⟨alike.trans (later _).1, (later _).2.trans size⟩

/-- Under a name and an arity that are declared, the registry finds the function that the global of
that name holds. -/
theorem find?_build (plain : script.world.PlainReads) (registry : Registry) (journal : List Event)
    (declarations : List FunctionDecl) (name : String) (arity : Nat) :
    (build script registry journal declarations).1.find? name arity
      = (if declares declarations name arity then
          (script.world.functionNamed? name).map (FunctionHandle.mk name arity)
        else none).or (registry.find? name arity) := by
  induction declarations generalizing script registry journal with
  | nil => rfl
  | cons declaration rest ih =>
    obtain ⟨after, events, alike, _, step⟩ := build_cons plain registry journal declaration rest
    rw [step, @ih { script with world := after } (plain.of_alike alike),
      World.functionNamed?_of_alike alike, declares, declares, List.any_cons]
    by_cases same : declaration.name = name ∧ declaration.arity = arity
    · obtain ⟨rfl, rfl⟩ := same
      -- What later declarations of the same name and arity find is the same function.
      cases script.world.functionNamed? declaration.name with
      | none => simp
      | some function =>
        rw [find?_insert]
        cases rest.any fun other =>
          decide (other.name = declaration.name ∧ other.arity = declaration.arity) <;> simp
    · cases script.world.functionNamed? declaration.name with
      | none => simp [same]
      | some function => simp [find?_insert, same]

end Registry

namespace Instance

variable {host : HostFunctions} {name source function : String} {chunk : Script.Interpreter}
  {inst : Instance}

/-- The registry of a script is made from the declarations of its text, when its top level has
run. -/
theorem registry_of_build
    (loaded : (Script.Interpreter.load host name (Source.scan source).source).result = .ok chunk)
    (built : (Instance.build host name source).1 = .ok inst) :
    ∃ journal, inst.registry
      = (Registry.build chunk {} journal (Source.scan source).declarations).1 := by
  unfold Instance.build at built
  dsimp only at built
  rw [loaded] at built
  cases built
  exact ⟨_, rfl⟩

/-- The functions and the names of a script are in step. -/
theorem inStep_of_build (built : (Instance.build host name source).1 = .ok inst) :
    inst.registry.InStep := by
  unfold Instance.build at built
  dsimp only at built
  split at built
  · cases built
  · cases built
    exact Registry.inStep_build Registry.inStep_empty _ _ _

/-- The host finds what is declared and what a global holds. -/
theorem function?_of_build
    (loaded : (Script.Interpreter.load host name (Source.scan source).source).result = .ok chunk)
    (built : (Instance.build host name source).1 = .ok inst) (plain : chunk.world.PlainReads)
    (function : String) (arity : Nat) :
    inst.function? function arity
      = if Registry.declares (Source.scan source).declarations function arity then
          (chunk.world.functionNamed? function).map (FunctionHandle.mk function arity)
        else none := by
  obtain ⟨journal, registry_eq⟩ := registry_of_build loaded built
  rw [Instance.function?, registry_eq, Registry.find?_build plain]
  exact Option.or_none

/-- The tags of a function are those that stand above its declarations, if the host finds one of
them. -/
theorem hasTag_of_build (built : (Instance.build host name source).1 = .ok inst)
    (function tag : String) :
    inst.tags.hasTag function tag = true
      ↔ (Source.scan source).tags.hasTag function tag = true ∧ function ∈ inst.registry.names := by
  have scanned := (TagIndex.consistent_scan source).describes
  have pruned := scanned.retainFunctions inst.registry.containsName
  rw [TagIndex.tags_of_build built, pruned.answers.hasTag_iff, scanned.answers.hasTag_iff,
    Registry.containsName_iff, and_comm]

/-- A function that the host does not find. -/
structure Hidden (inst : Instance) (function : String) : Prop where
  not_mem_names : function ∉ inst.registry.names
  function?_eq : ∀ arity, inst.function? function arity = none
  hasTag_eq : ∀ tag, inst.tags.hasTag function tag = false
  /-- No tag leads to it. -/
  not_mem_functionsWithTag : ∀ tag, function ∉ inst.tags.functionsWithTag tag
  /-- Calls change nothing, and say that it is not there. -/
  run_call : ∀ arguments, (call function arguments).run inst
    = (.error (.functionNotFound inst.name function arguments.length), inst)
  run_tryCallOutcome : ∀ arguments,
    (tryCallOutcome function arguments).run inst = (.missing, inst)

/-- A function that is not in the registry of a script is hidden, and stays so whatever the instance
goes through. -/
theorem hidden_of_build (built : (Instance.build host name source).1 = .ok inst)
    (missing : function ∉ inst.registry.names) {other : Instance} (same : SameBuild inst other) :
    Hidden other function := by
  have not_found (arity : Nat) : other.function? function arity = none := by
    rw [same.function?_eq]
    refine Option.not_isSome_iff_eq_none.1 fun found => missing ?_
    exact (inStep_of_build built).mem_names_iff.2 ⟨arity, found⟩
  have untagged (tag : String) : ¬inst.tags.hasTag function tag = true := fun tagged =>
    missing ((hasTag_of_build built function tag).1 tagged).2
  have answers := (TagIndex.consistent_of_build built).describes.answers
  have no_member (tag : String) : function ∉ inst.tags.functionsWithTag tag := by
    rw [answers.mem_functionsWithTag_iff, ← answers.hasTag_iff]
    exact untagged tag
  obtain ⟨script, journal, rfl⟩ := same
  exact
    { not_mem_names := missing
      function?_eq := not_found
      hasTag_eq := fun tag => Bool.eq_false_of_not_eq_true (untagged tag)
      not_mem_functionsWithTag := no_member
      run_call := fun arguments => run_call_of_none (not_found arguments.length)
      run_tryCallOutcome := fun arguments => run_tryCallOutcome_of_none (not_found arguments.length) }

/-- What the host finds under a name that the top level of a script leaves alone, as one does that
declares local functions only. The host finds the function of the host or the library with this
name, under each arity that is declared: that function is called, and it keeps the tags of the
declarations. If there is none, the declarations are hidden for good. -/
theorem registered_of_untouched
    (loaded : (Script.Interpreter.load host name (Source.scan source).source).result = .ok chunk)
    (built : (Instance.build host name source).1 = .ok inst) (plain : chunk.world.PlainReads)
    (untouched : chunk.world.globalNamed function
      = (Script.Interpreter.beginning host).globalNamed function) :
    (∀ arity handle, inst.function? function arity = some handle
        ↔ Registry.declares (Source.scan source).declarations function arity = true
          ∧ ∃ provided, Script.provided? host function = some provided
            ∧ handle = ⟨function, arity, provided⟩)
      ∧ (function ∈ inst.registry.names
        ↔ (∃ declaration ∈ (Source.scan source).declarations, declaration.name = function)
          ∧ (Script.provided? host function).isSome = true)
      ∧ (∀ tag, inst.tags.hasTag function tag = true
        ↔ (Source.scan source).tags.hasTag function tag = true ∧ function ∈ inst.registry.names)
      ∧ (Script.provided? host function = none →
          ∀ other, SameBuild inst other → Hidden other function) := by
  -- The top level has left the name as it found it.
  have holds : chunk.world.functionNamed? function = Script.provided? host function := by
    rw [← Script.Interpreter.functionNamed?_beginning]
    unfold World.functionNamed?
    rw [untouched]
  have found (arity : Nat) := function?_of_build loaded built plain function arity
  simp only [holds] at found
  have named : function ∈ inst.registry.names
      ↔ (∃ declaration ∈ (Source.scan source).declarations, declaration.name = function)
        ∧ (Script.provided? host function).isSome = true := by
    have entry (arity : Nat) : (inst.registry.find? function arity).isSome = true
        ↔ Registry.declares (Source.scan source).declarations function arity = true
          ∧ (Script.provided? host function).isSome = true := by
      have looked : inst.registry.find? function arity = _ := found arity
      rw [looked]
      cases Registry.declares (Source.scan source).declarations function arity <;> simp
    simp only [(inStep_of_build built).mem_names_iff, entry, Registry.declares_iff]
    constructor
    · rintro ⟨arity, ⟨declaration, m, same, _⟩, provided⟩
      exact ⟨⟨declaration, m, same⟩, provided⟩
    · rintro ⟨⟨declaration, m, same⟩, provided⟩
      exact ⟨declaration.arity, ⟨declaration, m, same, rfl⟩, provided⟩
  refine ⟨?_, named, hasTag_of_build built function, ?_⟩
  · intro arity handle
    rw [found]
    cases Registry.declares (Source.scan source).declarations function arity with
    | false => simp
    | true => simp [eq_comm]
  · intro absent other same
    refine hidden_of_build built (fun m => ?_) same
    have provided := (named.1 m).2
    rw [absent] at provided
    cases provided

/-- Of two local functions with the same tag, the one with the name of a function of the library is
found: a call of it is a call of that function. The other one is hidden. -/
theorem registered_of_untouched_of_print :
    ∃ inst, (Instance.build .empty "lamp"
        "#Update\nlocal function print(x) end\n#Update\nlocal function hidden() end\n").1.toOption
        = some inst
      ∧ inst.function? "print" 1 = some ⟨"print", 1, .builtin .print⟩
      ∧ "print" ∈ inst.registry.names
      ∧ inst.tags.hasTag "print" "Update" = true
      ∧ Hidden inst "hidden" := by
  have builds : (Instance.build .empty "lamp"
      "#Update\nlocal function print(x) end\n#Update\nlocal function hidden() end\n"
      ).1.toOption.isSome = true := by
    decide +kernel
  have ran : ∃ chunk, chunk ∈ (Script.Interpreter.load .empty "lamp" (Source.scan
        "#Update\nlocal function print(x) end\n#Update\nlocal function hidden() end\n").source
        ).result.toOption
      ∧ (chunk.world.table World.globals).metatable? = none
      ∧ chunk.world.globalNamed "print"
        = (Script.Interpreter.beginning .empty).globalNamed "print"
      ∧ chunk.world.globalNamed "hidden"
        = (Script.Interpreter.beginning .empty).globalNamed "hidden" := by
    decide +kernel
  obtain ⟨inst, there⟩ := Option.isSome_iff_exists.1 builds
  obtain ⟨chunk, ran, plain, print_untouched, hidden_untouched⟩ := ran
  have built := eq_ok_of_mem_toOption there
  have loaded := eq_ok_of_mem_toOption ran
  have plain_reads := World.PlainGlobals.plainReads plain
  obtain ⟨found, named, tagged, _⟩ :=
    registered_of_untouched loaded built plain_reads print_untouched
  obtain ⟨_, _, _, hidden⟩ := registered_of_untouched loaded built plain_reads hidden_untouched
  have member : "print" ∈ inst.registry.names := named.2 (by decide +kernel)
  refine ⟨inst, there, ?_, member, ?_, ?_⟩
  · exact (found 1 _).2 ⟨by decide +kernel, .builtin .print, by decide +kernel, rfl⟩
  · exact (tagged "Update").2 ⟨by decide +kernel, member⟩
  · exact hidden (by decide +kernel) inst (.refl inst)

end Instance

end ScriptHost
