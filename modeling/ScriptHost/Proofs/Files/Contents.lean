import Mathlib.Data.List.Nodup
import ScriptHost.Proofs.Files.Trees
import ScriptHost.Proofs.Tags.Lines

/-!
# What file trees hold

A tree is well formed when it has one thing at a location and no name holds the separator of paths.
Every change keeps it so, and the files below a directory are then those that are found there.

* `Path.extensionOf?_eq_some_iff` : the names with an extension.
* `FileTree.WellFormed` : the trees that a host sees.
* `FileTree.WellFormed.writeFile?`, `FileTree.WellFormed.makeParents`, … : the changes keep them.
* `FileTree.WellFormed.mem_filesBelow_iff` : the files below a directory.
-/

namespace ScriptHost

namespace Path

/-- No part of a path holds a separator. -/
theorem not_mem_of_mem_parts {path part : String} (m : part ∈ parts path) :
    separator ∉ part.toList := by
  obtain ⟨cs, field, rfl⟩ := List.mem_map.1 m
  rw [String.toList_ofList]
  exact Text.not_mem_of_mem_fields field

theorem mem_parts_of_mem_components {path part : String} (m : part ∈ components path) :
    part ∈ parts path := by
  unfold components at m
  split at m
  · next rest parts_eq =>
    rw [parts_eq]
    rcases List.mem_cons.1 m with rfl | m
    · exact List.mem_cons_self
    · exact List.mem_cons_of_mem _ (List.mem_filter.1 m).1
  · exact (List.mem_filter.1 m).1

/-- The last point of a name stands behind its first character and in front of no other point. -/
theorem lastPoint?_eq_some_iff {name : List Char} {n : Nat} :
    lastPoint? name = some n
      ↔ ∃ stem extension, stem ≠ [] ∧ '.' ∉ extension ∧ name = stem ++ '.' :: extension
        ∧ n = stem.length := by
  unfold lastPoint?
  dsimp only
  constructor
  · intro found
    split at found
    case isFalse => cases found
    case isTrue short =>
    cases found
    have cut := List.takeWhile_append_dropWhile (p := (· != '.')) (l := name.reverse)
    cases behind : name.reverse.dropWhile (· != '.') with
    | nil =>
      rw [behind, List.append_nil] at cut
      rw [cut, List.length_reverse] at short
      omega
    | cons point front =>
      have stops : (point != '.') = false := by
        have head := List.head_dropWhile_not (· != '.') (by rw [behind]; exact List.cons_ne_nil _ _)
        simpa only [behind, List.head_cons] using head
      have point_eq : point = '.' := by simpa using stops
      rw [behind, point_eq] at cut
      have name_eq :
          name = front.reverse ++ '.' :: (name.reverse.takeWhile (· != '.')).reverse := by
        rw [← List.reverse_inj, List.reverse_append, List.reverse_cons, List.reverse_reverse,
          List.reverse_reverse, List.append_assoc]
        exact cut.symm
      have lengths := congrArg List.length name_eq
      rw [List.length_append, List.length_cons, List.length_reverse, List.length_reverse] at lengths
      refine ⟨_, _, ?_, ?_, name_eq, ?_⟩
      · rw [← List.length_pos_iff, List.length_reverse]
        omega
      · intro m
        have passes := List.all_eq_true.1 List.all_takeWhile _ (List.mem_reverse.1 m)
        simp at passes
      · rw [List.length_reverse]
        omega
  · rintro ⟨stem, extension, proper, free, rfl, rfl⟩
    have taken : (stem ++ '.' :: extension).reverse.takeWhile (· != '.') = extension.reverse := by
      rw [List.reverse_append, List.reverse_cons, List.append_assoc,
        List.takeWhile_append_of_pos]
      · simp
      · intro c m
        have other : c ≠ '.' := by
          rintro rfl
          exact free (List.mem_reverse.1 m)
        simpa using other
    have positive := List.length_pos_iff.2 proper
    rw [taken, List.length_reverse, List.length_append, List.length_cons,
      if_pos (by omega)]
    exact congrArg some (by omega)

/-- The names with an extension. -/
theorem extensionOf?_eq_some_iff {name extension : String} :
    extensionOf? name = some extension
      ↔ '.' ∉ extension.toList ∧ ∃ stem, stem ≠ "" ∧ name = stem ++ "." ++ extension := by
  unfold extensionOf?
  rw [Option.map_eq_some_iff]
  constructor
  · rintro ⟨n, found, rfl⟩
    obtain ⟨stem, behind, proper, free, name_eq, rfl⟩ := lastPoint?_eq_some_iff.1 found
    have dropped : name.toList.drop (stem.length + 1) = behind := by
      rw [name_eq]
      simp
    rw [dropped, String.toList_ofList]
    refine ⟨free, String.ofList stem, ?_, ?_⟩
    · rw [Ne, ← String.toList_inj, String.toList_ofList]
      exact proper
    · rw [← String.toList_inj, name_eq]
      simp
  · rintro ⟨free, stem, proper, rfl⟩
    have whole : (stem ++ "." ++ extension).toList = stem.toList ++ '.' :: extension.toList := by
      simp
    have named : stem.toList ≠ [] := by
      rw [Ne, String.toList_eq_nil_iff]
      exact proper
    refine ⟨stem.toList.length,
      lastPoint?_eq_some_iff.2 ⟨_, _, named, free, whole, rfl⟩, ?_⟩
    rw [whole, ← String.toList_inj]
    simp

end Path

namespace FileTree

/-! ## Well-formed trees -/

/-- No name on the way holds a separator. -/
def Named (location : Location) : Prop := ∀ name ∈ location, Path.separator ∉ name.toList

instance decidableNamed (location : Location) : Decidable (Named location) :=
  inferInstanceAs (Decidable (∀ name ∈ location, _))

theorem Named.concat {location : Location} {name : String} (named : Named location)
    (free : Path.separator ∉ name.toList) : Named (location ++ [name]) := by
  intro other m
  rcases List.mem_append.1 m with m | m
  · exact named other m
  · rw [List.mem_singleton.1 m]
    exact free

theorem Named.dropLast {location : Location} (named : Named location) : Named location.dropLast :=
  fun name m => named name (List.dropLast_subset location m)

/-- One thing is at a location, and no name holds a separator. -/
structure WellFormed (tree : FileTree) : Prop where
  named_workingDirectory : Named tree.workingDirectory
  nodup : (tree.nodes.map Prod.fst).Nodup
  named : ∀ entry ∈ tree.nodes, Named entry.1

variable {tree other : FileTree} {location root : Location} {node : FileNode}

/-- What is in a tree is found at its location. -/
theorem WellFormed.mem_nodes_iff (proper : tree.WellFormed) (below : location ≠ []) :
    (location, node) ∈ tree.nodes ↔ tree.node? location = some node := by
  unfold node?
  rw [if_neg (by simpa using below), List.lookup_eq_some_iff]
  constructor
  · intro m
    obtain ⟨front, back, split⟩ := List.mem_iff_append.1 m
    refine ⟨front, back, split, fun entry before => ?_⟩
    have once := proper.nodup
    rw [split, List.map_append, List.map_cons, List.nodup_append] at once
    have different := once.2.2 _ (List.mem_map_of_mem before) _ List.mem_cons_self
    exact bne_iff_ne.2 (Ne.symm different)
  · rintro ⟨front, back, split, _⟩
    rw [split]
    exact List.mem_append_right front List.mem_cons_self

theorem WellFormed.named_of_node? (proper : tree.WellFormed)
    (there : tree.node? location = some node) : Named location := by
  by_cases top : location = []
  · rw [top]
    exact fun _ m => absurd m List.not_mem_nil
  · exact proper.named _ ((proper.mem_nodes_iff top).2 there)

/-! ## Changes -/

theorem WellFormed.erase (proper : tree.WellFormed) (location : Location) :
    (tree.erase location).WellFormed where
  named_workingDirectory := proper.named_workingDirectory
  nodup := proper.nodup.sublist (List.filter_sublist.map Prod.fst)
  named := fun entry m => proper.named entry (List.mem_filter.1 m).1

theorem WellFormed.put (proper : tree.WellFormed) (named : Named location) (node : FileNode) :
    (tree.put location node).WellFormed := by
  have rest := proper.erase location
  refine ⟨proper.named_workingDirectory, ?_, fun entry m => ?_⟩
  · show ((_ ++ [(location, node)]).map Prod.fst).Nodup
    rw [List.map_append, List.nodup_append]
    refine ⟨rest.nodup, List.nodup_singleton _, ?_⟩
    rintro place m _ last rfl
    obtain ⟨entry, kept, rfl⟩ := List.mem_map.1 m
    have different := (List.mem_filter.1 kept).2
    rw [List.mem_singleton.1 last] at different
    simp at different
  · rcases List.mem_append.1 m with m | m
    · exact rest.named entry m
    · rw [List.mem_singleton.1 m]
      exact named

/-- A path puts a file where no name holds a separator. -/
theorem WellFormed.named_of_target? (proper : tree.WellFormed) {path : String}
    (target : tree.target? path = some location) : Named location := by
  obtain ⟨directory, name, names, _, rfl⟩ := target?_eq_some_iff.1 target
  obtain ⟨parts, parts_eq, _⟩ := names.way
  have part : name ∈ Path.parts path := by
    rw [parts_eq]
    exact List.mem_append_right parts List.mem_cons_self
  exact (proper.named_of_node? (isDirectoryAt_iff.1 names.there)).concat
    (Path.not_mem_of_mem_parts part)

theorem WellFormed.writeFile? (proper : tree.WellFormed) {path : String} {content : ByteArray}
    (written : tree.writeFile? path content = some other) : other.WellFormed := by
  unfold FileTree.writeFile? at written
  obtain ⟨location, target, written⟩ := Option.bind_eq_some_iff.1 written
  split at written
  · cases written
  · cases written
    exact proper.put (proper.named_of_target? target) _

theorem WellFormed.rename? (proper : tree.WellFormed) {source target : String}
    (renamed : tree.rename? source target = some other) : other.WellFormed := by
  unfold FileTree.rename? at renamed
  split at renamed
  · next old new _ aimed =>
    split at renamed
    · split at renamed
      · cases renamed
      · cases renamed
        exact (proper.erase old).put (proper.named_of_target? aimed) _
    · cases renamed
  · cases renamed

theorem WellFormed.removeFile? (proper : tree.WellFormed) {path : String}
    (removed : tree.removeFile? path = some other) : other.WellFormed := by
  unfold FileTree.removeFile? at removed
  split at removed
  · obtain ⟨location, _, rfl⟩ := Option.map_eq_some_iff.1 removed
    exact proper.erase location
  · cases removed

theorem WellFormed.makeFrom (proper : tree.WellFormed) (named : Named location)
    {parts : List String} (free : ∀ part ∈ parts, Path.separator ∉ part.toList) :
    (tree.makeFrom location parts).1.WellFormed := by
  induction parts generalizing tree location with
  | nil => exact proper
  | cons part parts ih =>
    obtain ⟨here, later⟩ := List.forall_mem_cons.1 free
    have next := named.concat here
    rw [FileTree.makeFrom]
    split
    · exact ih proper named later
    · split
      · exact ih proper named.dropLast later
      · dsimp only
        split
        · exact ih proper next later
        · exact proper
        · split
          · exact ih (proper.put next _) next later
          · exact proper

theorem WellFormed.makeParents (proper : tree.WellFormed) (path : String) :
    (tree.makeParents path).1.WellFormed := by
  refine proper.makeFrom ?_ fun part m => ?_
  · unfold start
    split
    · exact fun _ m => absurd m List.not_mem_nil
    · exact proper.named_workingDirectory
  · exact Path.not_mem_of_mem_parts
      (Path.mem_parts_of_mem_components (List.dropLast_subset _ m))

/-! ## Files below a directory -/

/-- The files below a directory are those that are found there. -/
theorem WellFormed.mem_filesBelow_iff (proper : tree.WellFormed) {content : ByteArray} :
    (location, content) ∈ tree.filesBelow root
      ↔ location ≠ [] ∧ tree.node? (root ++ location) = some (.file content) := by
  unfold filesBelow
  rw [List.mem_filterMap]
  constructor
  · rintro ⟨⟨place, node⟩, m, given⟩
    cases node with
    | directory => cases given
    | file bytes =>
      dsimp only at given
      split at given
      case isFalse => cases given
      case isTrue inside =>
      rw [Bool.and_eq_true, List.isPrefixOf_iff_prefix, decide_eq_true_eq] at inside
      obtain ⟨⟨rest, rfl⟩, longer⟩ := inside
      rw [List.drop_left] at given
      cases given
      have below : location ≠ [] := by
        rintro rfl
        simp at longer
      exact ⟨below,
        (proper.mem_nodes_iff (List.append_ne_nil_of_right_ne_nil root below)).1 m⟩
  · rintro ⟨below, file⟩
    refine ⟨(root ++ location, .file content), ?_, ?_⟩
    · exact (proper.mem_nodes_iff (List.append_ne_nil_of_right_ne_nil root below)).2 file
    · have longer := List.length_pos_iff.2 below
      simp [longer]

end FileTree

end ScriptHost
