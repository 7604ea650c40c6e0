import Mathlib.Data.Finset.Card
import ScriptHost.Proofs.Instance.Registered

/-!
# What a registry lists

The host asks a registry in several ways: for a function by name and arity, for a name, for all
functions in their order, and for their number. All questions are answered by one relation: a
function is there when a declaration has its name and arity and the global of that name holds it.

* `Registry.InStep.pairwise_handles` : functions in order, each name and arity once.
* `Registry.Coherent` : all questions about a registry agree.
* `Registry.InStep.coherent` : they agree when functions and names are in step.
* `Registry.build_indexes` : what the registry of some declarations finds, and that it is coherent.
-/

namespace ScriptHost.Registry

open Script (World)

/-! ## The order -/

/-- The name and the arity of a function. -/
def key (handle : FunctionHandle) : String × Nat := (handle.name, handle.arity)

/-- Whether one function stands before another one: by name and, for one name, by arity. -/
def Before (a b : FunctionHandle) : Prop := a.name < b.name ∨ a.name = b.name ∧ a.arity < b.arity

/-- No function stands before one of its name and arity. -/
theorem Before.differ {a b : FunctionHandle} (h : Before a b) :
    key a ≠ key b := by
  intro same
  obtain ⟨name, arity⟩ := Prod.mk.inj same
  rcases h with lt | ⟨_, lt⟩
  · exact String.lt_irrefl _ (name ▸ lt)
  · exact Nat.lt_irrefl _ (arity ▸ lt)

/-- Functions of one name stand in the order of their arities, and the functions of a name before
those of a greater one. -/
theorem InStep.pairwise_handles {registry : Registry} (h : InStep registry) :
    registry.handles.Pairwise Before := by
  refine List.pairwise_flatMap.2 ⟨fun entry m => ?_, ?_⟩
  · refine List.pairwise_map.2 ((h.arities_ascending entry m).imp_of_mem ?_)
    intro a b ma mb lt
    obtain ⟨name, arity⟩ := h.keyed entry m a ma
    obtain ⟨other_name, other_arity⟩ := h.keyed entry m b mb
    refine .inr ⟨name.trans other_name.symm, ?_⟩
    rw [arity, other_arity]
    exact lt
  · refine List.Pairwise.imp_of_mem ?_ h.functions_ascending
    intro entry other m n lt a ma b mb
    obtain ⟨_, inner, rfl⟩ := List.mem_map.1 ma
    obtain ⟨_, other_inner, rfl⟩ := List.mem_map.1 mb
    refine .inl ?_
    rw [(h.keyed entry m _ inner).1, (h.keyed other n _ other_inner).1]
    exact lt

theorem InStep.nodup_keys {registry : Registry} (h : InStep registry) :
    (registry.handles.map key).Nodup := List.pairwise_map.2 (h.pairwise_handles.imp Before.differ)

/-! ## Questions -/

/-- All questions about a registry agree. The functions stand in ascending order of their names and,
for one name, of their arities, so each name and arity stands once. -/
structure Coherent (registry : Registry) : Prop where
  handles_ascending : registry.handles.Pairwise Before
  mem_handles_iff : ∀ handle,
    handle ∈ registry.handles ↔ registry.find? handle.name handle.arity = some handle
  names_ascending : NameSet.Ascending registry.names
  mem_names_iff : ∀ name,
    name ∈ registry.names ↔ ∃ arity, (registry.find? name arity).isSome = true
  containsName_iff : ∀ name,
    registry.containsName name = true ↔ ∃ arity, (registry.find? name arity).isSome = true
  /-- There are as many functions as different names and arities. -/
  size_eq : ∃ pairs : Finset (String × Nat),
    (∀ name arity, (name, arity) ∈ pairs ↔ (registry.find? name arity).isSome = true)
      ∧ registry.size = pairs.card
  isEmpty_iff : registry.isEmpty = true ↔ registry.size = 0

variable {registry : Registry}

/-- There is a function with a name and an arity when they are among the names and arities. -/
theorem InStep.isSome_find?_iff (h : InStep registry) {name : String} {arity : Nat} :
    (registry.find? name arity).isSome = true ↔ (name, arity) ∈ registry.handles.map key := by
  rw [Option.isSome_iff_exists, List.mem_map]
  simp only [h.find?_eq_some_iff, key, Prod.mk.injEq]

theorem length_handles (registry : Registry) : registry.handles.length = registry.size := by
  unfold handles size handlesOf
  rw [← List.map_flatMap, List.length_map]

/-- There is no function exactly if there is no name, for no name is without functions. -/
theorem InStep.isEmpty_iff (h : InStep registry) :
    registry.isEmpty = true ↔ registry.size = 0 := by
  rw [isEmpty, List.isEmpty_iff, size, List.length_eq_zero_iff, List.flatMap_eq_nil_iff]
  constructor
  · intro nothing
    simp [nothing]
  · intro without
    exact List.eq_nil_iff_forall_not_mem.2 fun entry m => h.inhabited entry m (without entry m)

theorem InStep.coherent (h : InStep registry) : Coherent registry where
  handles_ascending := h.pairwise_handles
  mem_handles_iff handle := by
    rw [h.find?_eq_some_iff]
    exact ⟨fun m => ⟨m, rfl, rfl⟩, fun found => found.1⟩
  names_ascending := h.names_ascending
  mem_names_iff _ := h.mem_names_iff
  containsName_iff _ := containsName_iff.trans h.mem_names_iff
  size_eq := by
    refine ⟨(registry.handles.map key).toFinset, ?_, ?_⟩
    · intro name arity
      rw [List.mem_toFinset, h.isSome_find?_iff]
    · rw [List.toFinset_card_of_nodup h.nodup_keys, List.length_map, length_handles]
  isEmpty_iff := h.isEmpty_iff

/-- The registry of some declarations, looked up in a script whose globals have no metatable, finds
exactly the functions that are declared and that a global holds, by their name and arity; and all
questions about it agree with that. -/
theorem build_indexes {script : Script.Interpreter} (plain : script.world.PlainGlobals)
    (journal : List Event) (declarations : List FunctionDecl) :
    (∀ name arity handle,
      (build script {} journal declarations).1.find? name arity = some handle
        ↔ (∃ declaration ∈ declarations, declaration.name = name ∧ declaration.arity = arity)
          ∧ (script.world.globalNamed name).isFunction = true
          ∧ handle = ⟨name, arity, script.world.globalNamed name⟩)
      ∧ Coherent (build script {} journal declarations).1 := by
  constructor
  · intro name arity handle
    have nothing : ({} : Registry).find? name arity = none := rfl
    rw [find?_build plain.plainReads, nothing, Option.or_none, ← declares_iff]
    unfold World.functionNamed?
    cases declares declarations name arity with
    | false => simp
    | true => cases (script.world.globalNamed name).isFunction <;> simp [eq_comm]
  · exact (inStep_build inStep_empty script journal declarations).coherent

/-- Of four declarations, two have one name and arity, and one is that of a local function. -/
theorem build_indexes_of_lamp :
    ∃ chunk, (Script.Interpreter.load .empty "lamp"
        "function f(a) end\nlocal function g() end\n").result.toOption = some chunk
      ∧ chunk.world.PlainGlobals
      ∧ let registry :=
          (build chunk {} [] [⟨"f", 2, 1⟩, ⟨"f", 1, 2⟩, ⟨"g", 0, 3⟩, ⟨"f", 2, 4⟩]).1
        registry.find? "f" 2 = some ⟨"f", 2, chunk.world.globalNamed "f"⟩
          ∧ "f" ∈ registry.names ∧ registry.containsName "g" = false
          ∧ Coherent registry := by
  have ran : ∃ chunk, chunk ∈ (Script.Interpreter.load .empty "lamp"
        "function f(a) end\nlocal function g() end\n").result.toOption
      ∧ (chunk.world.table World.globals).metatable? = none
      ∧ (chunk.world.globalNamed "f").isFunction = true
      ∧ (chunk.world.globalNamed "g").isFunction = false := by
    decide +kernel
  obtain ⟨chunk, loaded, plain, global, hidden⟩ := ran
  obtain ⟨found, coherent⟩ :=
    build_indexes plain [] [⟨"f", 2, 1⟩, ⟨"f", 1, 2⟩, ⟨"g", 0, 3⟩, ⟨"f", 2, 4⟩]
  have listed := (found "f" 2 _).2 ⟨by decide, global, rfl⟩
  refine ⟨chunk, loaded, plain, listed, ?_, ?_, coherent⟩
  · exact (coherent.mem_names_iff "f").2 ⟨2, by rw [listed]; rfl⟩
  · rw [← Bool.not_eq_true, coherent.containsName_iff]
    rintro ⟨arity, there⟩
    obtain ⟨handle, handle_eq⟩ := Option.isSome_iff_exists.1 there
    have holds := ((found "g" arity handle).1 handle_eq).2.1
    rw [hidden] at holds
    cases holds

end ScriptHost.Registry
