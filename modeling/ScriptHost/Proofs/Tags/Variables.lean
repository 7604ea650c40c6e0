import Mathlib.Data.List.Induction
import ScriptHost.Proofs.FirstMentions

/-!
# The variables of a list of tags

A list of tags names variables to keep and variables to set. It may name one several times, in
several spellings and with several types; then the first tag that names it counts.

* `keptName?`, `exposedName?` : the variable that a tag names.
* `firstMentions_serializedVariables`, `firstMentions_exposedVariables` : the variables of a list
  are the names in it, in the order of their first mention.
* `tag_lists_exact` : what is picked out of a list of tags.
-/

namespace ScriptHost

/-! ## Variables to keep -/

/-- The variable that a tag asks to keep. -/
def keptName? (tag : String) : Option String :=
  match Tag.parse tag with
  | .serialize name => some name
  | _ => none

theorem serializedVariables_concat (tags : List String) (tag : String) :
    serializedVariables (tags ++ [tag])
      = match keptName? tag with
        | some name => appendNew (serializedVariables tags) name
        | none => serializedVariables tags := by
  unfold serializedVariables keptName?
  rw [List.foldl_append, List.foldl_cons, List.foldl_nil]
  cases Tag.parse tag <;> rfl

/-- The variables to keep are listed in the order of their first tags. -/
theorem firstMentions_serializedVariables (tags : List String) :
    FirstMentions keptName? tags (serializedVariables tags) := by
  induction tags using List.reverseRecOn with
  | nil => exact .nil
  | append_singleton tags tag ih =>
    rw [serializedVariables_concat]
    cases named : keptName? tag with
    | none => exact ih.concat_of_none named
    | some name => exact ih.concat named

/-! ## Variables to set -/

/-- The variable that a tag asks to set, with its type. -/
def exposedVariable? (tag : String) : Option ExposedVariable :=
  match Tag.parse tag with
  | .exposed typeName name => some ⟨typeName, name⟩
  | _ => none

/-- The name of the variable that a tag asks to set. -/
def exposedName? (tag : String) : Option String := (exposedVariable? tag).map ExposedVariable.name

theorem exposedVariables_concat (tags : List String) (tag : String) :
    exposedVariables (tags ++ [tag])
      = match exposedVariable? tag with
        | some entry => appendNewExposed (exposedVariables tags) entry
        | none => exposedVariables tags := by
  unfold exposedVariables exposedVariable?
  rw [List.foldl_append, List.foldl_cons, List.foldl_nil]
  cases Tag.parse tag <;> rfl

theorem any_name_iff {found : List ExposedVariable} {name : String} :
    (found.any fun other => other.name == name) = true ↔ name ∈ found.map ExposedVariable.name := by
  simp only [List.any_eq_true, beq_iff_eq, List.mem_map]

theorem names_appendNewExposed (found : List ExposedVariable) (entry : ExposedVariable) :
    (appendNewExposed found entry).map ExposedVariable.name
      = appendNew (found.map ExposedVariable.name) entry.name := by
  unfold appendNewExposed appendNew
  rw [apply_ite (List.map ExposedVariable.name), List.map_append, List.map_singleton]
  exact if_congr (any_name_iff.trans List.contains_iff_mem.symm) rfl rfl

/-- The variables to set are listed in the order of their first tags. -/
theorem firstMentions_exposedVariables (tags : List String) :
    FirstMentions exposedName? tags ((exposedVariables tags).map ExposedVariable.name) := by
  induction tags using List.reverseRecOn with
  | nil => exact .nil
  | append_singleton tags tag ih =>
    rw [exposedVariables_concat]
    cases read : exposedVariable? tag with
    | none => exact ih.concat_of_none (by rw [exposedName?, read]; rfl)
    | some entry =>
      rw [names_appendNewExposed]
      exact ih.concat (by rw [exposedName?, read]; rfl)

/-- A variable to set has the type that its first tag gives it. -/
theorem exposedVariable?_firstMention (tags : List String) :
    ∀ entry ∈ exposedVariables tags,
      tags[firstMention exposedName? tags entry.name]?.bind exposedVariable? = some entry := by
  induction tags using List.reverseRecOn with
  | nil => exact fun entry m => absurd m List.not_mem_nil
  | append_singleton tags tag ih =>
    have firsts := firstMentions_exposedVariables tags
    have kept (entry : ExposedVariable) (m : entry ∈ exposedVariables tags) :
        (tags ++ [tag])[firstMention exposedName? (tags ++ [tag]) entry.name]?.bind exposedVariable?
          = some entry := by
      have mentioned := (firsts.mem_iff entry.name).1 (List.mem_map_of_mem m)
      rw [firstMention_append _ mentioned,
        List.getElem?_append_left (firstMention_lt_iff.2 mentioned)]
      exact ih entry m
    intro entry m
    rw [exposedVariables_concat] at m
    cases read : exposedVariable? tag with
    | none => exact kept entry (by rwa [read] at m)
    | some new =>
      rw [read] at m
      simp only [appendNewExposed] at m
      split at m
      · exact kept entry m
      · next unknown =>
        rcases List.mem_append.1 m with m | m
        · exact kept entry m
        · -- The tag is the first that names the variable.
          obtain rfl := List.mem_singleton.1 m
          have named : exposedName? tag = some entry.name := by rw [exposedName?, read]; rfl
          have fresh := mt (firsts.mem_iff entry.name).2 (mt any_name_iff.2 unknown)
          rw [firstMention_concat fresh named]
          simpa using read

/-! ## Malformed tags -/

/-- Every malformed tag is there as often as it stands in the list. -/
theorem count_malformedExposedTags (tags : List String) (tag : String) :
    (malformedExposedTags tags).count tag
      = if Tag.parse tag = .malformedExposed then tags.count tag else 0 := by
  unfold malformedExposedTags
  split
  · next malformed => exact List.count_filter (by simpa using malformed)
  · next other => exact List.count_eq_zero.2 fun m => other (by simpa using (List.mem_filter.1 m).2)

/-! ## What a list of tags holds -/

/-- What is picked out of a list of tags. Each variable to keep and each variable to set stands
once, in the order of the first tags that name them, and a variable to set has the type of that tag.
The malformed tags are all there, as often and in the order in which they stand. In another order, a
list names the same variables to keep. -/
theorem tag_lists_exact (tags : List String) :
    FirstMentions keptName? tags (serializedVariables tags)
      ∧ FirstMentions exposedName? tags ((exposedVariables tags).map ExposedVariable.name)
      ∧ (∀ entry ∈ exposedVariables tags,
        tags[firstMention exposedName? tags entry.name]?.bind exposedVariable? = some entry)
      ∧ (malformedExposedTags tags).Sublist tags
      ∧ (∀ tag, (malformedExposedTags tags).count tag
        = if Tag.parse tag = .malformedExposed then tags.count tag else 0)
      ∧ ∀ others, tags.Perm others →
        (serializedVariables tags).Perm (serializedVariables others) := by
  have kept := firstMentions_serializedVariables tags
  refine ⟨kept, firstMentions_exposedVariables tags, exposedVariable?_firstMention tags,
    List.filter_sublist, count_malformedExposedTags tags, fun others same => ?_⟩
  exact kept.perm (firstMentions_serializedVariables others) same

/-- One variable to keep is named twice, in two spellings, and one variable to set with two types.
Read from behind, the list names the variables to keep in another order. -/
theorem tag_lists_exact_of_spellings :
    let tags := ["Exposed", "Serialize hp", "Exposed number=speed", "Serialize\t hp", "Exposed",
      "Exposed string = speed", "Update", "Serialize ammo"]
    serializedVariables tags = ["hp", "ammo"]
      ∧ serializedVariables tags.reverse = ["ammo", "hp"]
      ∧ (serializedVariables tags).Perm (serializedVariables tags.reverse)
      ∧ (⟨"number", "speed"⟩ : ExposedVariable) ∈ exposedVariables tags
      ∧ tags[firstMention exposedName? tags "speed"]?.bind exposedVariable?
        = some ⟨"number", "speed"⟩
      ∧ malformedExposedTags tags = ["Exposed", "Exposed"] := by
  intro tags
  obtain ⟨_, _, typed, _, _, reordered⟩ := tag_lists_exact tags
  have exposed : (⟨"number", "speed"⟩ : ExposedVariable) ∈ exposedVariables tags := by
    decide +kernel
  exact ⟨by decide +kernel, by decide +kernel, reordered tags.reverse (List.reverse_perm tags).symm,
    exposed, typed _ exposed, by decide +kernel⟩

end ScriptHost
