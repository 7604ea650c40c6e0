import ScriptHost.Proofs.Component.History

/-!
# Functions for the editor only

While a script is played, the functions that are for the editor only are not called, whatever is
done with the component. In the editor, all functions with a tag are called.

* `Happening.calls_told_playing` : the functions that a tag calls while the script is played.
* `Component.asks_eq_false_of_mem_history` : without calls by name, only tags call functions.
* `Component.yields_dispatch_editor` : in the editor, a tag does what it does to the instance.
* `Component.editorOnly_called_in_editor_only` : the two of them for whole runs.
-/

namespace ScriptHost

namespace Happening

/-- Whether a function is called by its name. -/
def asks : Happening → Bool
  | asked .. => true
  | _ => false

/-- While the script is played, a tag calls its functions that take so many arguments and are not for
the editor only. -/
theorem calls_told_playing (target : Instance) (tag : String) (arguments : List Value) :
    (told target tag arguments).calls false
      = .broadcast target.name tag
        :: ((target.tags.functionsWithTag tag).filter fun function =>
            !target.tags.hasTag function Tag.editorOnlyToken
              && (target.function? function arguments.length).isSome).map fun function =>
          .invoked target.name function arguments.length := by
  simp only [calls, Instance.reached, Instance.invocations, Bool.false_or]

/-- While the script is played, no tag calls a function that is for the editor only. -/
theorem hasTag_eq_false_of_invoked {happening : Happening} (named : happening.asks = false)
    {script function : String} {arity : Nat}
    (m : .invoked script function arity ∈ happening.calls false) :
    ∃ target tag arguments, happening = told target tag arguments
      ∧ target.tags.hasTag function Tag.editorOnlyToken = false := by
  cases happening with
  | told target tag arguments =>
    refine ⟨target, tag, arguments, rfl, ?_⟩
    rw [calls_told_playing] at m
    rcases List.mem_cons.1 m with broadcast | m
    · cases broadcast
    · obtain ⟨called, n, same⟩ := List.mem_map.1 m
      cases same
      simpa using (Bool.and_eq_true_iff.1 (List.mem_filter.1 n).2).1
  | asked target name arguments => cases named
  | restored target snapshot => cases m
  | captured target snapshot => cases m

end Happening

namespace Component

/-! ## While the script is played -/

section

variable (files : FileTree) (component : Component)

theorem asks_tellings (tag : String) (arguments : List Value) :
    ∀ happening ∈ tellings tag arguments component, happening.asks = false := by
  intro happening m
  obtain ⟨inst, _, rfl⟩ := List.mem_map.1 m
  rfl

theorem asks_tearings : ∀ happening ∈ tearings component, happening.asks = false := by
  intro happening m
  obtain ⟨inst, _, m⟩ := List.mem_flatMap.1 m
  simp only [List.mem_cons, List.not_mem_nil, or_false] at m
  rcases m with rfl | rfl <;> rfl

theorem asks_enablings : ∀ happening ∈ enablings files component, happening.asks = false := by
  intro happening m
  unfold enablings at m
  split at m
  · cases m
  · rcases List.mem_append.1 m with m | m
    · obtain ⟨inst, _, rfl⟩ := List.mem_map.1 m
      rfl
    · exact asks_tellings _ _ _ happening m

theorem asks_reloadings : ∀ happening ∈ reloadings files component, happening.asks = false := by
  intro happening m
  rcases List.mem_append.1 m with m | m
  · exact asks_tearings _ happening m
  · exact asks_enablings _ _ happening m

theorem asks_advancings : ∀ happening ∈ advancings files component, happening.asks = false := by
  intro happening m
  unfold advancings at m
  split at m
  · split at m
    · exact asks_reloadings _ _ happening m
    · cases m
  · cases m

/-- No operation but a call by name calls a function by its name. -/
theorem asks_operation {operation : Operation}
    (quiet : ∀ name arguments, operation ≠ .call name arguments) :
    ∀ happening ∈ operation.history files component, happening.asks = false := by
  intro happening m
  unfold Operation.history at m
  cases operation with
  | awake =>
    dsimp only at m
    split at m
    · cases m
    · exact asks_tellings _ _ _ happening m
  | enable => exact asks_enablings _ _ happening m
  | start => exact asks_tellings _ _ _ happening m
  | update delta =>
    rcases List.mem_append.1 m with m | m
    · exact asks_advancings _ _ happening m
    · split at m
      · cases m
      · exact asks_tellings _ _ _ happening m
  | fixedUpdate => exact asks_tellings _ _ _ happening m
  | disable => exact asks_tearings _ happening m
  | reload => exact asks_reloadings _ _ happening m
  | notifySourceModified =>
    dsimp only at m
    split at m
    · exact asks_reloadings _ _ happening m
    · cases m
  | dispatch tag arguments => exact asks_tellings _ _ _ happening m
  | call name arguments => exact absurd rfl (quiet name arguments)
  | setSourceText text => cases m
  | loadSnapshot entries => cases m
  | bind name value => cases m

end

/-- In a run without calls by name, no function is called by its name. -/
theorem asks_eq_false_of_mem_history {component : Component}
    {steps : List (FileTree × Operation)}
    (quiet : ∀ step ∈ steps, ∀ name arguments, step.2 ≠ .call name arguments) :
    ∀ happening ∈ history component steps, happening.asks = false := by
  induction steps generalizing component with
  | nil =>
    intro happening m
    cases m
  | cons step steps ih =>
    intro happening m
    rcases List.mem_append.1 m with m | m
    · exact asks_operation _ _ (quiet step List.mem_cons_self) happening m
    · exact ih (fun other n => quiet other (List.mem_cons_of_mem step n)) happening m

/-! ## In the editor -/

/-- In the editor, a tag does to the live instance what the instance itself does with the tag. -/
theorem yields_dispatch_editor {component : Component} (files : FileTree)
    (editor : component.config.isEditor = true) {inst : Instance}
    (live : component.live? = some inst) (tag : String) (arguments : List Value) :
    (dispatch tag arguments).Yields files component fun count other =>
      count = ((Instance.callWithTag tag arguments).run inst).1
        ∧ other.live? = some
          { ((Instance.callWithTag tag arguments).run inst).2 with journal := [] } := by
  obtain ⟨journal, run⟩ := Instance.broadcast_editor tag arguments inst
  refine yields_bind (yields_get (yields_bind (yields_bind (yields_get ?_))))
  rw [live, editor]
  refine yields_bind (yields_onInstance ?_)
  rw [run]
  exact yields_bind (yields_modify (yields_pure (yields_pure ⟨rfl, rfl⟩)))

/-! ## Whole runs -/

/-- While the script is played, whatever is done with a component but calls by name, the calls that
the host makes are those of the tags that the instances are told. A tag calls its functions that
take so many arguments and are not for the editor only, each once, so that no function is called
that is for the editor only. In the editor, a tag calls all its functions, as the instance itself
does. A new component is tidy, and runs keep it so. -/
theorem editorOnly_called_in_editor_only :
    (∀ (component : Component) (steps : List (FileTree × Operation)),
      component.Tidy → component.config.isEditor = false →
      (∀ step ∈ steps, ∀ name arguments, step.2 ≠ .call name arguments) →
      Event.calls (run component steps).journal = Event.calls component.journal
          ++ (history component steps).flatMap (Happening.calls false)
        ∧ (∀ happening ∈ history component steps, ∀ script function arity,
            .invoked script function arity ∈ happening.calls false →
              ∃ target tag arguments, happening = .told target tag arguments
                ∧ target.tags.hasTag function Tag.editorOnlyToken = false)
        ∧ (∀ target tag arguments,
            (Happening.told target tag arguments).calls false
              = .broadcast target.name tag
                :: ((target.tags.functionsWithTag tag).filter fun function =>
                    !target.tags.hasTag function Tag.editorOnlyToken
                      && (target.function? function arguments.length).isSome).map fun function =>
                  .invoked target.name function arguments.length)
        ∧ (run component steps).Tidy)
      ∧ (∀ config host, (idle config host).Tidy)
      ∧ ∀ (files : FileTree) (component : Component) (inst : Instance) (tag : String)
          (arguments : List Value),
        component.config.isEditor = true → component.live? = some inst →
        (dispatch tag arguments).Yields files component fun count other =>
          count = ((Instance.callWithTag tag arguments).run inst).1
            ∧ other.live? = some
              { ((Instance.callWithTag tag arguments).run inst).2 with journal := [] } := by
  refine ⟨?_, tidy_idle, ?_⟩
  · intro component steps tidy playing quiet
    have records := records_run tidy steps
    refine ⟨?_, ?_, Happening.calls_told_playing, records.tidy⟩
    · rw [records.calls_eq, playing]
    · intro happening m script function arity invoked
      exact Happening.hasTag_eq_false_of_invoked (asks_eq_false_of_mem_history quiet happening m)
        invoked
  · intro files component inst tag arguments editor live
    exact yields_dispatch_editor files editor live tag arguments

/-- Of two functions that are called when a lamp goes off, one is called while the lamp is played, and
both are called in the editor. -/
theorem editorOnly_called_in_editor_only_of_lamp :
    let source : ScriptSource :=
      .literal "#EditorOnly, OnDisable\nfunction hidden() end\n#OnDisable\nfunction off() end"
    let lamp := idle { name := "lamp", source } .empty
    let steps := [(FileTree.empty [], Operation.awake), (.empty [], .reload)]
    let edited := run (idle { name := "lamp", source, context := .editor } .empty)
      [(.empty [], .awake)]
    Event.calls (run lamp steps).journal = (history lamp steps).flatMap (Happening.calls false)
      ∧ ((run lamp steps).journal.filterMap fun event =>
          match event with
          | .invoked _ function _ => some function
          | _ => none) = ["off"]
      ∧ ∃ inst, edited.live? = some inst
        ∧ (dispatch disableTag []).result (.empty []) edited
          = ((Instance.callWithTag disableTag []).run inst).1
        ∧ ((Instance.callWithTag disableTag []).run inst).1 = 2 := by
  intro source lamp steps edited
  have called : ((run lamp steps).journal.filterMap fun event =>
      match event with
      | .invoked _ function _ => some function
      | _ => none) = ["off"] := by
    decide +kernel
  have alive : ∃ inst, inst ∈ edited.live?
      ∧ ((Instance.callWithTag disableTag []).run inst).1 = 2 := by
    decide +kernel
  have editor : edited.config.isEditor = true := (records_run (tidy_idle _ _) _).isEditor_eq
  obtain ⟨inst, live, count⟩ := alive
  obtain ⟨played, _, inEditor⟩ := editorOnly_called_in_editor_only
  have quiet : ∀ step ∈ steps, ∀ name arguments, step.2 ≠ .call name arguments := by
    simp [steps]
  obtain ⟨calls, _⟩ := played lamp steps (tidy_idle _ _) rfl quiet
  exact ⟨calls, called, inst, live, (inEditor (.empty []) edited inst disableTag [] editor live).1,
    count⟩

end Component

end ScriptHost
