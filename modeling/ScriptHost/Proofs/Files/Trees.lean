import ScriptHost.Files.Tree

/-!
# Changes of file trees

A path is looked up by way of directories only, so a path that gives a name to a file goes on
leading there as long as no directory is lost.

* `FileTree.node?_put_self`, `FileTree.node?_erase_self`, … : what is at a location after a change.
* `FileTree.step?_eq_some_iff` : where one part of a path leads.
* `FileTree.Keeps`, `FileTree.Keeps.follow?` : when no directory is lost, ways to directories stay.
* `FileTree.Names`, `FileTree.target?_eq_some_iff` : where a path puts a file.
* `FileTree.writeFile?_eq_some`, `FileTree.rename?_eq_some` : a path leads to the file that it has
  put somewhere.
* `FileTree.Grown`, `FileTree.grown_makeParents` : directories that are made take no other place.
* `FileTree.Spares` : the file at a path is the one that was there.
-/

namespace ScriptHost.FileTree

variable {tree other : FileTree}

/-! ## Nodes -/

section

variable {location place : Location}

/-- Without the nodes at a location, another one finds what it did. -/
theorem lookup_filter_ne (different : place ≠ location) (nodes : List (Location × FileNode)) :
    (nodes.filter fun entry => entry.1 ≠ location).lookup place = nodes.lookup place := by
  induction nodes with
  | nil => rfl
  | cons entry nodes ih =>
    obtain ⟨name, node⟩ := entry
    by_cases same : name = location
    · have skipped : (place == name) = false := beq_false_of_ne (same ▸ different)
      rw [List.filter_cons_of_neg (by simp [same]), ih, List.lookup_cons, skipped]
    · rw [List.filter_cons_of_pos (by simp [same]), List.lookup_cons, List.lookup_cons, ih]

theorem lookup_filter_self (location : Location) (nodes : List (Location × FileNode)) :
    (nodes.filter fun entry => entry.1 ≠ location).lookup location = none := by
  induction nodes with
  | nil => rfl
  | cons entry nodes ih =>
    obtain ⟨name, node⟩ := entry
    by_cases same : name = location
    · rw [List.filter_cons_of_neg (by simp [same]), ih]
    · rw [List.filter_cons_of_pos (by simp [same]), List.lookup_cons,
        beq_false_of_ne (Ne.symm same), ih]

theorem node?_put_self (below : location ≠ []) (node : FileNode) :
    (tree.put location node).node? location = some node := by
  unfold node? put
  rw [if_neg (by simpa using below), List.lookup_append, lookup_filter_self,
    List.lookup_cons_self]
  rfl

theorem node?_put_of_ne (different : place ≠ location) (node : FileNode) :
    (tree.put location node).node? place = tree.node? place := by
  unfold node? put
  dsimp only
  rw [List.lookup_append, lookup_filter_ne different, List.lookup_cons,
    beq_false_of_ne different, List.lookup_nil, Option.or_none]

theorem node?_erase_of_ne (different : place ≠ location) :
    (tree.erase location).node? place = tree.node? place := by
  unfold node? erase
  dsimp only
  rw [lookup_filter_ne different]

theorem node?_erase_self (below : location ≠ []) : (tree.erase location).node? location = none := by
  unfold node? erase
  dsimp only
  rw [if_neg (by simpa using below), lookup_filter_self]

/-- The root is always there. -/
theorem ne_nil_of_node? (different : tree.node? location ≠ some .directory) : location ≠ [] := by
  rintro rfl
  exact different rfl

theorem isDirectoryAt_iff :
    tree.isDirectoryAt location = true ↔ tree.node? location = some .directory := beq_iff_eq

end

/-- There is no directory where there is a file. -/
theorem isDirectoryAt_of_file {content : ByteArray}
    (file : tree.node? location = some (.file content)) : tree.isDirectoryAt location = false := by
  unfold isDirectoryAt
  rw [file]
  rfl

theorem isDirectoryAt_erase {place : Location} (free : tree.isDirectoryAt location = false) :
    (tree.erase place).isDirectoryAt location = false := by
  have below : location ≠ [] := by
    rintro rfl
    cases free
  unfold isDirectoryAt at free ⊢
  by_cases same : location = place
  · rw [← same, node?_erase_self below]
    rfl
  · rw [node?_erase_of_ne same, free]

/-! ## Following paths -/

/-- Where one part of a path leads. -/
def step? (tree : FileTree) (location : Location) (part : String) : Option Location :=
  if !tree.isDirectoryAt location then none
  else if Path.isIdle part then some location
  else if part == ".." then some location.dropLast
  else if (tree.node? (location ++ [part])).isSome then some (location ++ [part])
  else none

theorem follow?_cons (location : Location) (part : String) (parts : List String) :
    tree.follow? location (part :: parts)
      = (tree.step? location part).bind fun next => tree.follow? next parts := by
  rw [follow?, step?]
  split
  · rfl
  · split
    · rfl
    · split
      · rfl
      · split <;> rfl

theorem follow?_singleton (location : Location) (part : String) :
    tree.follow? location [part] = tree.step? location part := by
  rw [follow?_cons]
  cases tree.step? location part <;> rfl

theorem follow?_append (location : Location) (parts more : List String) :
    tree.follow? location (parts ++ more)
      = (tree.follow? location parts).bind fun middle => tree.follow? middle more := by
  induction parts generalizing location with
  | nil => rfl
  | cons part parts ih =>
    rw [List.cons_append, follow?_cons, follow?_cons, Option.bind_assoc]
    exact congrArg _ (funext fun next => ih next)

/-- A part of a path leads to the directory in which it is looked up, to the one around it, or to
what has it as its name. -/
theorem step?_eq_some_iff {part : String} {next : Location} :
    tree.step? location part = some next
      ↔ tree.isDirectoryAt location = true
        ∧ (Path.isIdle part = true ∧ next = location
          ∨ Path.isIdle part = false ∧ part = ".." ∧ next = location.dropLast
          ∨ Path.isIdle part = false ∧ part ≠ ".." ∧ (tree.node? next).isSome = true
            ∧ next = location ++ [part]) := by
  unfold step?
  constructor
  · intro found
    split at found
    · cases found
    · next there =>
      refine ⟨by simpa using there, ?_⟩
      split at found
      · next idle =>
        cases found
        exact .inl ⟨idle, rfl⟩
      · next named =>
        have named : Path.isIdle part = false := by simpa using named
        split at found
        · next up =>
          cases found
          exact .inr (.inl ⟨named, by simpa using up, rfl⟩)
        · next down =>
          split at found
          · next present =>
            cases found
            exact .inr (.inr ⟨named, by simpa using down, present, rfl⟩)
          · cases found
  · rintro ⟨there, ⟨idle, rfl⟩ | ⟨named, rfl, rfl⟩ | ⟨named, down, present, rfl⟩⟩
    · simp [there, idle]
    · simp [there, named]
    · simp [there, named, down, present]

/-- No directory of a tree is lost in the other one, and paths start at the same place. -/
structure Keeps (tree other : FileTree) : Prop where
  workingDirectory_eq : other.workingDirectory = tree.workingDirectory
  isDirectoryAt : ∀ location, tree.isDirectoryAt location = true →
    other.isDirectoryAt location = true

theorem Keeps.start_eq (keeps : Keeps tree other) (path : String) :
    other.start path = tree.start path := by
  unfold FileTree.start
  rw [keeps.workingDirectory_eq]

/-- A part of a path leads where it did, if that is still there. -/
theorem Keeps.step? (keeps : Keeps tree other) {next : Location} {part : String}
    (found : tree.step? location part = some next)
    (present : (tree.node? next).isSome = true → (other.node? next).isSome = true) :
    other.step? location part = some next := by
  rw [step?_eq_some_iff] at found ⊢
  obtain ⟨there, idle | up | ⟨named, down, some, next_eq⟩⟩ := found
  · exact ⟨keeps.isDirectoryAt _ there, .inl idle⟩
  · exact ⟨keeps.isDirectoryAt _ there, .inr (.inl up)⟩
  · exact ⟨keeps.isDirectoryAt _ there, .inr (.inr ⟨named, down, present some, next_eq⟩)⟩

/-- A way that leads to a directory starts at one. -/
theorem isDirectoryAt_of_follow? {directory : Location} {parts : List String}
    (found : tree.follow? location parts = some directory)
    (ends : tree.isDirectoryAt directory = true) : tree.isDirectoryAt location = true := by
  cases parts with
  | nil =>
    cases found
    exact ends
  | cons part parts =>
    rw [follow?_cons] at found
    obtain ⟨next, step, _⟩ := Option.bind_eq_some_iff.1 found
    exact (step?_eq_some_iff.1 step).1

/-- A way that leads to a directory passes directories only. -/
theorem Keeps.follow? (keeps : Keeps tree other) {directory : Location} {parts : List String}
    (found : tree.follow? location parts = some directory)
    (ends : tree.isDirectoryAt directory = true) :
    other.follow? location parts = some directory := by
  induction parts generalizing location with
  | nil => exact found
  | cons part parts ih =>
    rw [follow?_cons] at found ⊢
    obtain ⟨next, step, rest⟩ := Option.bind_eq_some_iff.1 found
    have next_there := keeps.isDirectoryAt next (isDirectoryAt_of_follow? rest ends)
    rw [isDirectoryAt_iff] at next_there
    have step_other := keeps.step? step fun _ => by rw [next_there]; rfl
    rw [step_other]
    exact ih rest

/-- A way leads where it did when nothing on it is lost. -/
theorem Keeps.follow?_of_nodes (keeps : Keeps tree other)
    (nodes : ∀ place, (tree.node? place).isSome = true → (other.node? place).isSome = true)
    {last : Location} {parts : List String} (found : tree.follow? location parts = some last) :
    other.follow? location parts = some last := by
  induction parts generalizing location with
  | nil => exact found
  | cons part parts ih =>
    rw [follow?_cons] at found ⊢
    obtain ⟨next, step, rest⟩ := Option.bind_eq_some_iff.1 found
    rw [keeps.step? step (nodes next)]
    exact ih rest

theorem Keeps.locate?_of_nodes (keeps : Keeps tree other)
    (nodes : ∀ place, (tree.node? place).isSome = true → (other.node? place).isSome = true)
    {path : String} {location : Location} (found : tree.locate? path = some location) :
    other.locate? path = some location := by
  unfold FileTree.locate? at found ⊢
  split at found
  · cases found
  · next named => rw [if_neg named, keeps.start_eq, keeps.follow?_of_nodes nodes found]

/-! ## Names in directories -/

/-- A path gives a name to something in a directory that is there. -/
structure Names (tree : FileTree) (path : String) (directory : Location) (name : String) :
    Prop where
  way : ∃ parts, Path.parts path = parts ++ [name]
    ∧ tree.follow? (tree.start path) parts = some directory
  there : tree.isDirectoryAt directory = true
  named : Path.isIdle name = false
  down : name ≠ ".."

variable {path name : String} {directory location : Location}

theorem Names.keeps (names : tree.Names path directory name) (keeps : Keeps tree other) :
    other.Names path directory name := by
  obtain ⟨parts, parts_eq, found⟩ := names.way
  refine ⟨⟨parts, parts_eq, ?_⟩, keeps.isDirectoryAt _ names.there, names.named, names.down⟩
  rw [keeps.start_eq]
  exact keeps.follow? found names.there

/-- A path that names something is not empty. -/
theorem Names.isEmpty_eq_false (names : tree.Names path directory name) :
    path.isEmpty = false := by
  obtain ⟨parts, parts_eq, _⟩ := names.way
  have named := names.named
  cases empty : path.isEmpty with
  | false => rfl
  | true =>
    have nothing : path = "" := String.isEmpty_iff.1 empty
    have single : Path.parts "" = [""] := rfl
    rw [nothing, single] at parts_eq
    cases parts with
    | nil =>
      cases parts_eq
      cases named
    | cons part parts =>
      have lengths := congrArg List.length parts_eq
      simp at lengths

/-- A path leads to what it names, if there is something. -/
theorem Names.locate? (names : tree.Names path directory name)
    (present : (tree.node? (directory ++ [name])).isSome = true) :
    tree.locate? path = some (directory ++ [name]) := by
  obtain ⟨parts, parts_eq, found⟩ := names.way
  unfold FileTree.locate?
  rw [names.isEmpty_eq_false, parts_eq, follow?_append, found]
  show tree.follow? directory [name] = _
  rw [follow?_singleton, step?_eq_some_iff]
  exact ⟨names.there, .inr (.inr ⟨names.named, names.down, present, rfl⟩)⟩

theorem Names.target? (names : tree.Names path directory name) (fits : fits name = true) :
    tree.target? path = some (directory ++ [name]) := by
  obtain ⟨parts, parts_eq, found⟩ := names.way
  unfold FileTree.target?
  rw [parts_eq, List.getLast?_concat, List.dropLast_concat, found]
  dsimp only
  rw [names.named, beq_false_of_ne names.down, fits, Option.bind_some, names.there]
  rfl

/-- A path puts a file where it names one, if the name fits. -/
theorem target?_eq_some_iff :
    tree.target? path = some location
      ↔ ∃ directory name, tree.Names path directory name ∧ fits name = true
        ∧ location = directory ++ [name] := by
  constructor
  · intro target
    unfold target? at target
    split at target
    · cases target
    · next name last =>
      obtain ⟨parts, parts_eq⟩ := List.getLast?_eq_some_iff.1 last
      rw [parts_eq, List.dropLast_concat] at target
      split at target
      · cases target
      · next proper =>
        simp only [Bool.or_eq_true, not_or, Bool.not_eq_true, beq_eq_false_iff_ne] at proper
        obtain ⟨directory, found, target⟩ := Option.bind_eq_some_iff.1 target
        split at target
        · next there =>
          cases target
          exact ⟨directory, name, ⟨⟨parts, parts_eq, found⟩, there, proper.1.1, proper.1.2⟩,
            by simpa using proper.2, rfl⟩
        · cases target
  · rintro ⟨directory, name, names, fits, rfl⟩
    exact names.target? fits

/-- Every path has parts. -/
theorem parts_ne_nil (path : String) : Path.parts path ≠ [] := by
  have fields_ne_nil : Text.fields Path.separator path.toList ≠ [] := by
    cases path.toList with
    | nil => exact List.cons_ne_nil _ _
    | cons c cs =>
      rw [Text.fields]
      split
      · exact List.cons_ne_nil _ _
      · cases Text.fields Path.separator cs <;> exact List.cons_ne_nil _ _
  intro none
  exact fields_ne_nil (List.map_eq_nil_iff.1 none)

/-- A path that leads to a file names it, unless it ends on the way up. -/
theorem names_of_locate? {content : ByteArray} (found : tree.locate? path = some location)
    (file : tree.node? location = some (.file content))
    (down : (Path.parts path).getLast? ≠ some "..") :
    ∃ directory name, tree.Names path directory name ∧ location = directory ++ [name] := by
  obtain ⟨parts, part, parts_eq⟩ : ∃ parts part, Path.parts path = parts ++ [part] := by
    obtain ⟨part, last⟩ := Option.ne_none_iff_exists'.1
      (mt List.getLast?_eq_none_iff.1 (parts_ne_nil path))
    obtain ⟨parts, parts_eq⟩ := List.getLast?_eq_some_iff.1 last
    exact ⟨parts, part, parts_eq⟩
  rw [parts_eq, List.getLast?_concat] at down
  unfold FileTree.locate? at found
  split at found
  · cases found
  · rw [parts_eq, follow?_append] at found
    obtain ⟨middle, found_middle, last⟩ := Option.bind_eq_some_iff.1 found
    rw [follow?_singleton] at last
    obtain ⟨there, ⟨_, same⟩ | ⟨_, up, _⟩ | ⟨named, not_up, _, location_eq⟩⟩ :=
      step?_eq_some_iff.1 last
    · -- An idle part leads to the directory in which it is looked up.
      rw [← same, isDirectoryAt_of_file file] at there
      cases there
    · exact absurd (congrArg some up) down
    · exact ⟨middle, part, ⟨⟨parts, parts_eq, found_middle⟩, there, named, not_up⟩, location_eq⟩

/-! ## Changes that keep directories -/

/-- A file that is put where no directory is takes no directory away. -/
theorem keeps_put (free : tree.isDirectoryAt location = false) (node : FileNode) :
    Keeps tree (tree.put location node) := by
  refine ⟨rfl, fun place there => ?_⟩
  have different : place ≠ location := by
    rintro rfl
    rw [free] at there
    cases there
  rw [isDirectoryAt_iff] at there ⊢
  rw [node?_put_of_ne different, there]

theorem keeps_erase (free : tree.isDirectoryAt location = false) :
    Keeps tree (tree.erase location) := by
  refine ⟨rfl, fun place there => ?_⟩
  have different : place ≠ location := by
    rintro rfl
    rw [free] at there
    cases there
  rw [isDirectoryAt_iff] at there ⊢
  rw [node?_erase_of_ne different, there]

theorem Keeps.trans {last : FileTree} (h : Keeps tree other) (k : Keeps other last) :
    Keeps tree last :=
  ⟨k.workingDirectory_eq.trans h.workingDirectory_eq,
    fun place there => k.isDirectoryAt place (h.isDirectoryAt place there)⟩

/-! ## Writing and renaming -/

/-- A file that is written is where its path leads. -/
theorem writeFile?_eq_some {content : ByteArray} (written : tree.writeFile? path content = some other) :
    ∃ directory name, tree.Names path directory name ∧ fits name = true
      ∧ tree.isDirectoryAt (directory ++ [name]) = false
      ∧ other = tree.put (directory ++ [name]) (.file content)
      ∧ other.locate? path = some (directory ++ [name]) := by
  unfold writeFile? at written
  obtain ⟨location, target, written⟩ := Option.bind_eq_some_iff.1 written
  split at written
  · cases written
  · next free =>
    have free : tree.isDirectoryAt location = false := by simpa using free
    cases written
    obtain ⟨directory, name, names, fits, rfl⟩ := target?_eq_some_iff.1 target
    have below : directory ++ [name] ≠ [] := List.append_ne_nil_of_right_ne_nil _ (by simp)
    have present : ((tree.put (directory ++ [name]) (.file content)).node?
        (directory ++ [name])).isSome = true := by
      rw [node?_put_self below]
      rfl
    exact ⟨directory, name, names, fits, free, rfl,
      (names.keeps (keeps_put free _)).locate? present⟩

/-- A file that gets another path is where that path leads. -/
theorem rename?_eq_some {source target : String} {old : Location} {content : ByteArray}
    (found : tree.locate? source = some old) (file : tree.node? old = some (.file content))
    (renamed : tree.rename? source target = some other) :
    other.lookup? target = some (.file content) ∧ Keeps tree other := by
  unfold rename? at renamed
  rw [found] at renamed
  cases aimed : tree.target? target with
  | none =>
    rw [aimed] at renamed
    cases renamed
  | some location =>
    rw [aimed] at renamed
    dsimp only at renamed
    rw [file] at renamed
    dsimp only at renamed
    split at renamed
    · cases renamed
    · next free =>
      have free : tree.isDirectoryAt location = false := by simpa using free
      cases renamed
      obtain ⟨directory, name, names, _, rfl⟩ := target?_eq_some_iff.1 aimed
      have below : directory ++ [name] ≠ [] := List.append_ne_nil_of_right_ne_nil _ (by simp)
      have keeps_old := keeps_erase (isDirectoryAt_of_file file)
      have still_free := @isDirectoryAt_erase tree (directory ++ [name]) old free
      have keeps := keeps_old.trans (keeps_put still_free (.file content))
      have there : ((tree.erase old).put (directory ++ [name]) (.file content)).node?
          (directory ++ [name]) = some (.file content) := node?_put_self below _
      have led := (names.keeps keeps).locate? (by rw [there]; rfl)
      refine ⟨?_, keeps⟩
      unfold FileTree.lookup?
      rw [led]
      exact there

/-- A file that is there can get a path that leads to it. -/
theorem rename?_ne_none {source target : String} {old : Location} {content : ByteArray}
    (found : tree.locate? source = some old) (file : tree.node? old = some (.file content))
    (aimed : tree.target? target = some old) : tree.rename? source target ≠ none := by
  unfold rename?
  rw [found, aimed]
  dsimp only
  rw [file]
  dsimp only
  rw [isDirectoryAt_of_file file]
  exact Option.some_ne_none _

/-! ## Making directories -/

/-- Between the two trees some directories were made where nothing was. -/
structure Grown (tree other : FileTree) : Prop where
  workingDirectory_eq : other.workingDirectory = tree.workingDirectory
  node?_eq : ∀ place, other.node? place = tree.node? place
    ∨ tree.node? place = none ∧ other.node? place = some .directory

theorem Grown.refl (tree : FileTree) : Grown tree tree := ⟨rfl, fun _ => .inl rfl⟩

theorem grown_put (free : tree.node? location = none) :
    Grown tree (tree.put location .directory) := by
  refine ⟨rfl, fun place => ?_⟩
  by_cases same : place = location
  · have below : location ≠ [] := ne_nil_of_node? (by rw [free]; exact (Option.some_ne_none _).symm)
    rw [same]
    exact .inr ⟨free, node?_put_self below _⟩
  · exact .inl (node?_put_of_ne same _)

theorem Grown.trans {last : FileTree} (h : Grown tree other) (k : Grown other last) :
    Grown tree last := by
  refine ⟨k.workingDirectory_eq.trans h.workingDirectory_eq, fun place => ?_⟩
  rcases k.node?_eq place with same | ⟨none, made⟩
  · rw [same]
    exact h.node?_eq place
  · rcases h.node?_eq place with same | ⟨_, made_before⟩
    · rw [same] at none
      exact .inr ⟨none, made⟩
    · rw [made_before] at none
      cases none

theorem grown_makeFrom (tree : FileTree) (location : Location) (parts : List String) :
    Grown tree (tree.makeFrom location parts).1 := by
  induction parts generalizing tree location with
  | nil => exact .refl tree
  | cons part parts ih =>
    rw [makeFrom]
    split
    · exact ih tree location
    · split
      · exact ih tree location.dropLast
      · dsimp only
        split
        · exact ih tree (location ++ [part])
        · exact .refl tree
        · next free =>
          split
          · exact (grown_put free).trans (ih _ _)
          · exact .refl tree

theorem grown_makeParents (tree : FileTree) (path : String) :
    Grown tree (tree.makeParents path).1 := grown_makeFrom tree _ _

namespace Grown

variable (grown : Grown tree other)
include grown

theorem keeps : Keeps tree other := by
  refine ⟨grown.workingDirectory_eq, fun place there => ?_⟩
  rw [isDirectoryAt_iff] at there ⊢
  rcases grown.node?_eq place with same | ⟨none, _⟩
  · rw [same, there]
  · rw [none] at there
    cases there

/-- Nothing is lost. -/
theorem node?_of_some {node : FileNode} (present : tree.node? location = some node) :
    other.node? location = some node := by
  rcases grown.node?_eq location with same | ⟨none, _⟩
  · rw [same, present]
  · rw [none] at present
    cases present

/-- No file is new. -/
theorem node?_of_file {content : ByteArray}
    (file : other.node? location = some (.file content)) :
    tree.node? location = some (.file content) := by
  rcases grown.node?_eq location with same | ⟨_, made⟩
  · rw [← same, file]
  · rw [made] at file
    cases file

/-- A path that leads somewhere goes on leading there. -/
theorem locate? (found : tree.locate? path = some location) :
    other.locate? path = some location := by
  refine grown.keeps.locate?_of_nodes (fun place present => ?_) found
  obtain ⟨node, node_eq⟩ := Option.isSome_iff_exists.1 present
  rw [grown.node?_of_some node_eq]
  rfl

end Grown

/-! ## Files that stay -/

/-- The file at a path stays: if the path led to a file, then it leads to one of the same content,
and if it leads to a file now, then that was there before, with the same content. -/
structure Spares (tree : FileTree) (path : String) (other : FileTree) : Prop where
  kept : ∀ content, tree.lookup? path = some (.file content) →
    other.lookup? path = some (.file content)
  known : ∀ location content, other.locate? path = some location →
    other.node? location = some (.file content) → tree.node? location = some (.file content)

theorem Spares.refl (tree : FileTree) (path : String) : Spares tree path tree :=
  ⟨fun _ => id, fun _ _ _ => id⟩

/-- Directories that are made leave all files. -/
theorem Grown.spares (grown : Grown tree other) (path : String) : Spares tree path other := by
  refine ⟨fun content there => ?_, fun location content _ file => grown.node?_of_file file⟩
  obtain ⟨location, found, file⟩ := Option.bind_eq_some_iff.1 there
  unfold lookup?
  rw [grown.locate? found]
  exact grown.node?_of_some file

/-- A file that is put somewhere else leaves the file at a path. -/
theorem Grown.spares_put {last : FileTree} (grown : Grown tree other) {content : ByteArray}
    (last_eq : last = other.put location (.file content))
    (free : other.isDirectoryAt location = false) (apart : last.locate? path ≠ some location) :
    Spares tree path last := by
  have keeps : Keeps other last := by
    rw [last_eq]
    exact keeps_put free _
  have below : location ≠ [] := by
    rintro rfl
    cases free
  have elsewhere {place : Location} (different : place ≠ location) :
      last.node? place = other.node? place := by
    rw [last_eq]
    exact node?_put_of_ne different _
  refine ⟨fun kept there => ?_, fun place known found file => ?_⟩
  · obtain ⟨place, found, file⟩ :=
      Option.bind_eq_some_iff.1 ((grown.spares path).kept kept there)
    have led : last.locate? path = some place := by
      refine keeps.locate?_of_nodes (fun place present => ?_) found
      by_cases same : place = location
      · rw [last_eq, same, node?_put_self below]
        rfl
      · rw [elsewhere same, present]
    have different : place ≠ location := by
      rintro rfl
      exact apart led
    unfold lookup?
    rw [led]
    exact (elsewhere different).trans file
  · have different : place ≠ location := by
      rintro rfl
      exact apart found
    rw [elsewhere different] at file
    exact grown.node?_of_file file

end ScriptHost.FileTree
