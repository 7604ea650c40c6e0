import Mathlib.Data.Finset.Card
import ScriptHost.Proofs.CommandLine.Endings
import ScriptHost.Proofs.Entries
import ScriptHost.Proofs.Files.Contents
import ScriptHost.Proofs.Instance.Registered

/-!
# What a check covers

A check reports on the scripts of a directory by their relative paths. A relative path has a `/` for
each backslash, so two scripts can have the same one, and then the check leaves one of them out.
This is so when a cut at each backslash makes their names the same.

* `wellFormed_run` : the files that a check sees are well formed, whatever commands ran before it.
* `IsScript`, `mem_scriptFiles_iff` : the scripts of a directory.
* `relativePath_eq_iff` : which scripts have the same relative path.
* `Collects`, `exists_loadScripts` : what is read, by induction on the scripts that are found.
* `Tried`, `Reports` : what an entry says on a script.
* `check_reports` : the entries of a check and its exit code.
-/

namespace ScriptHost.CommandLine

variable {files : FileTree} {root location other : Location} {content : ByteArray}

/-! ## Well-formed trees -/

theorem SavedState.wellFormed_save (proper : files.WellFormed) (path : String)
    (state : SavedState) : (SavedState.save files path state).2.WellFormed := by
  have made := proper.makeParents path
  unfold SavedState.save
  dsimp only
  split
  · exact made
  · split
    · exact made
    · next staged staged_eq =>
      have written := made.writeFile? staged_eq
      split
      · exact written
      · next renamed_eq => exact written.rename? renamed_eq

theorem wellFormed_runScript (proper : files.WellFormed) (options : RunOptions) :
    (runScript files options).files.WellFormed := by
  unfold runScript
  split
  · exact proper
  · next report _ _ =>
    dsimp only
    split
    · exact proper
    · next path _ =>
      have saved := SavedState.wellFormed_save proper path
        { script := report.script, entries := report.entries }
      split
      · next save_eq =>
        rw [save_eq] at saved
        exact saved
      · next save_eq =>
        rw [save_eq] at saved
        exact saved

theorem wellFormed_carryOut (proper : files.WellFormed) (command : Command) :
    (carryOut files command).files.WellFormed := by
  cases command with
  | inspect script =>
    show (inspect files script).files.WellFormed
    unfold inspect
    split
    · exact proper
    · split <;> exact proper
  | check directory =>
    show (check files directory).files.WellFormed
    unfold check
    split
    · exact proper
    · dsimp only
      split <;> exact proper
  | call script function arguments =>
    show (call files script function arguments).files.WellFormed
    unfold call
    split <;> exact proper
  | run options => exact wellFormed_runScript proper options

/-- Every command line leaves a well-formed tree. -/
theorem wellFormed_run {room? : Option Nat} {arguments : List String} {after : Outcome}
    (proper : files.WellFormed) (ended : run room? files arguments = some after) :
    after.files.WellFormed := by
  unfold run at ended
  split at ended
  · cases ended
    exact proper
  · next command _ =>
    rcases files_execute ended with same | changed
    · rw [same]
      exact proper
    · rw [changed]
      exact wellFormed_carryOut proper command

/-! ## Scripts -/

theorem isScriptFile_iff {name : String} :
    isScriptFile name = true ↔ ∃ stem, stem ≠ "" ∧ name = stem ++ ".lua" := by
  have free : '.' ∉ scriptExtension.toList := by decide
  have ending (stem : String) : stem ++ "." ++ scriptExtension = stem ++ ".lua" := by
    rw [String.append_assoc]
    rfl
  unfold isScriptFile
  rw [beq_iff_eq, Path.extensionOf?_eq_some_iff, and_iff_right free]
  simp only [ending]

/-- A file below a directory that is a script by its name. -/
structure IsScript (files : FileTree) (root location : Location) (content : ByteArray) : Prop where
  node?_eq : files.node? (root ++ location) = some (.file content)
  named : ∃ folder stem, stem ≠ "" ∧ location = folder ++ [stem ++ ".lua"]

theorem mem_scriptFiles_iff (proper : files.WellFormed) :
    (location, content) ∈ scriptFiles files root ↔ IsScript files root location content := by
  unfold scriptFiles
  rw [List.mem_filter, proper.mem_filesBelow_iff]
  constructor
  · rintro ⟨⟨_, file⟩, script⟩
    split at script
    · next name last =>
      obtain ⟨folder, location_eq⟩ := List.getLast?_eq_some_iff.1 last
      obtain ⟨stem, proper_stem, rfl⟩ := isScriptFile_iff.1 script
      exact ⟨file, folder, stem, proper_stem, location_eq⟩
    · cases script
  · rintro ⟨file, folder, stem, proper_stem, rfl⟩
    refine ⟨⟨List.append_ne_nil_of_right_ne_nil folder (List.cons_ne_nil _ _), file⟩, ?_⟩
    dsimp only
    rw [List.getLast?_concat]
    exact isScriptFile_iff.2 ⟨stem, proper_stem, rfl⟩

theorem IsScript.ne_nil (script : IsScript files root location content) : location ≠ [] := by
  obtain ⟨folder, stem, _, rfl⟩ := script.named
  exact List.append_ne_nil_of_right_ne_nil folder (List.cons_ne_nil _ _)

theorem IsScript.content_eq {bytes : ByteArray} (script : IsScript files root location content)
    (same : IsScript files root location bytes) : bytes = content := by
  have nodes := script.node?_eq
  rw [same.node?_eq] at nodes
  cases nodes
  rfl

theorem IsScript.location_named (proper : files.WellFormed)
    (script : IsScript files root location content) : FileTree.Named location :=
  fun name m => proper.named_of_node? script.node?_eq name (List.mem_append_right root m)

/-! ## Relative paths -/

/-- What stands in a relative path for a character. -/
def slashed (c : Char) : Char := if c == '\\' then '/' else c

theorem toList_relativePath (location : Location) :
    (relativePath location).toList
      = (['/'].intercalate (location.map String.toList)).map slashed := by
  unfold relativePath
  rw [String.toList_map, String.toList_intercalate]
  rfl

/-- A name without a separator is cut where it has a backslash. -/
theorem fields_map_slashed {name : List Char} (free : '/' ∉ name) :
    Text.fields '/' (name.map slashed) = Text.fields '\\' name := by
  induction name with
  | nil => rfl
  | cons c name ih =>
    obtain ⟨here, later⟩ := not_or.1 (mt List.mem_cons.2 free)
    rw [List.map_cons, Text.fields, Text.fields, ih later]
    by_cases back : c = '\\'
    · simp [slashed, back]
    · have kept : slashed c = c := by simp [slashed, back]
      rw [kept, if_neg (Ne.symm here), if_neg back]

/-- The names on the way to a file, cut at each backslash. -/
def finerNames (location : Location) : List (List Char) :=
  location.flatMap fun name => Text.fields '\\' name.toList

theorem fields_relativePath (below : location ≠ []) (named : FileTree.Named location) :
    Text.fields '/' (relativePath location).toList = finerNames location := by
  rw [toList_relativePath]
  induction location with
  | nil => exact absurd rfl below
  | cons name location ih =>
    obtain ⟨here, later⟩ := List.forall_mem_cons.1 named
    have first := fields_map_slashed here
    cases location with
    | nil => simpa [finerNames] using first
    | cons next location =>
      have rest := ih (List.cons_ne_nil next location) later
      have slash : slashed '/' = '/' := by decide
      rw [List.map_cons, List.map_cons, List.intercalate_cons_cons, ← List.map_cons,
        List.append_assoc, List.singleton_append, List.map_append, List.map_cons, slash,
        Text.fields_append, first, rest]
      rfl

/-- Files have the same relative path when a cut at each backslash makes their names the same. -/
theorem relativePath_eq_iff (below : location ≠ []) (named : FileTree.Named location)
    (below_other : other ≠ []) (named_other : FileTree.Named other) :
    relativePath location = relativePath other ↔ finerNames location = finerNames other := by
  rw [← fields_relativePath below named, ← fields_relativePath below_other named_other]
  constructor
  · intro same
    rw [same]
  · intro same
    have joined := (Text.fields_eq_iff.1 same).2.2
    rw [← (Text.fields_eq_iff.1 rfl).2.2] at joined
    exact String.toList_inj.1 joined

/-- No two scripts of a directory have the same relative path. -/
def Apart (files : FileTree) (root : Location) : Prop :=
  ∀ location content other bytes, IsScript files root location content →
    IsScript files root other bytes → relativePath location = relativePath other → location = other

/-- Names without backslashes are not cut. -/
theorem finerNames_eq (free : ∀ name ∈ location, '\\' ∉ name.toList) :
    finerNames location = location.map String.toList := by
  induction location with
  | nil => rfl
  | cons name location ih =>
    obtain ⟨here, later⟩ := List.forall_mem_cons.1 free
    have whole : Text.fields '\\' name.toList = [name.toList] := by
      apply Text.fields_eq_iff.2
      simp [here]
    have rest := ih later
    unfold finerNames at rest ⊢
    rw [List.flatMap_cons, whole, rest]
    rfl

theorem apart_of_free (proper : files.WellFormed)
    (free : ∀ location content, IsScript files root location content →
      ∀ name ∈ location, '\\' ∉ name.toList) : Apart files root := by
  intro location content other bytes script script_other same
  rw [relativePath_eq_iff script.ne_nil (script.location_named proper) script_other.ne_nil
    (script_other.location_named proper), finerNames_eq (free _ _ script),
    finerNames_eq (free _ _ script_other)] at same
  exact List.map_injective_iff.2 (fun _ _ => String.toList_inj.1) same

/-! ## Reading -/

/-- The texts of some files by their relative paths. -/
def textsOf (scripts : List (Location × ByteArray)) : List (String × String) :=
  scripts.filterMap fun script =>
    (String.fromUTF8? script.2).map fun source => (relativePath script.1, source)

theorem mem_textsOf_iff {scripts : List (Location × ByteArray)} {path source : String} :
    (path, source) ∈ textsOf scripts
      ↔ ∃ location content, (location, content) ∈ scripts
        ∧ String.fromUTF8? content = some source ∧ relativePath location = path := by
  unfold textsOf
  simp [List.mem_filterMap]

/-- When all files are texts, each is read in turn. -/
theorem readScripts_eq {scripts : List (Location × ByteArray)}
    (readable : ∀ script ∈ scripts, (String.fromUTF8? script.2).isSome = true) (path : String)
    (read : Entries String) :
    readScripts path read scripts
      = .ok ((textsOf scripts).foldl (fun entries pair => Entries.insert pair.1 pair.2 entries)
        read) := by
  induction scripts generalizing read with
  | nil => rfl
  | cons script scripts ih =>
    obtain ⟨location, content⟩ := script
    obtain ⟨here, later⟩ := List.forall_mem_cons.1 readable
    obtain ⟨source, source_eq⟩ := Option.isSome_iff_exists.1 here
    have first : textsOf ((location, content) :: scripts)
        = (relativePath location, source) :: textsOf scripts := by
      unfold textsOf
      rw [List.filterMap_cons, source_eq]
      rfl
    rw [readScripts, source_eq, first, List.foldl_cons]
    exact ih later _

/-- The texts of the scripts of a directory. Each stands under the relative path of its script, and
there is one under every relative path. -/
structure Collects (files : FileTree) (root : Location) (scripts : Entries String) : Prop where
  ascending : scripts.Ascending
  of_script : ∀ path source, (path, source) ∈ scripts →
    ∃ location content, IsScript files root location content
      ∧ String.fromUTF8? content = some source ∧ relativePath location = path
  mem_keys : ∀ location content, IsScript files root location content →
    relativePath location ∈ scripts.keys

theorem collects_ofList (proper : files.WellFormed)
    (readable : ∀ location content, IsScript files root location content →
      (String.fromUTF8? content).isSome = true) :
    Collects files root (Entries.ofList (textsOf (scriptFiles files root))) where
  ascending := Entries.ascending_ofList _
  of_script := by
    intro path source m
    obtain ⟨location, content, found, rest⟩ := mem_textsOf_iff.1 (Entries.mem_of_mem_ofList m)
    exact ⟨location, content, (mem_scriptFiles_iff proper).1 found, rest⟩
  mem_keys := by
    intro location content script
    obtain ⟨source, source_eq⟩ := Option.isSome_iff_exists.1 (readable location content script)
    apply Entries.mem_keys_ofList.2
    exact List.mem_map_of_mem (mem_textsOf_iff.2
      ⟨location, content, (mem_scriptFiles_iff proper).2 script, source_eq, rfl⟩)

/-- The scripts of a directory can be read when there are some and all are texts. -/
theorem exists_loadScripts {path : String} (proper : files.WellFormed)
    (found : files.locate? (absolutePath files path) = some root)
    (directory : files.isDirectoryAt root = true)
    (readable : ∀ location content, IsScript files root location content →
      (String.fromUTF8? content).isSome = true)
    (some_script : ∃ location content, IsScript files root location content) :
    ∃ scripts, loadScripts files path = .ok scripts ∧ Collects files root scripts := by
  have collects := collects_ofList proper readable
  have read : readScripts (absolutePath files path) [] (scriptFiles files root)
      = .ok (Entries.ofList (textsOf (scriptFiles files root))) :=
    readScripts_eq (fun script m => readable _ _ ((mem_scriptFiles_iff proper).1 m)) _ _
  have some_text : (Entries.ofList (textsOf (scriptFiles files root))).isEmpty = false := by
    obtain ⟨location, content, script⟩ := some_script
    rw [List.isEmpty_eq_false_iff]
    intro none
    have key := collects.mem_keys location content script
    rw [none] at key
    cases key
  have there : files.contains (absolutePath files path) = true := by
    unfold FileTree.contains
    rw [found]
    rfl
  refine ⟨_, ?_, collects⟩
  unfold loadScripts existingPath
  simp [there, found, directory, read, some_text, Bind.bind, Except.bind, pure, Except.pure]

/-! ## Reports -/

/-- What comes of a build of a text on its own: the number of names under which functions are found,
or an error. -/
inductive Tried (name source : String) : Except Failure Nat → Prop where
  | built {inst : Instance} {names : Finset String} :
      (Instance.build hostFunctions name source).1 = .ok inst →
      (∀ function, function ∈ names ↔ ∃ arity, (inst.function? function arity).isSome = true) →
      Tried name source (.ok names.card)
  | failed {error : Error} : (Instance.build hostFunctions name source).1 = .error error →
      Tried name source (.error (.ofScript error))

theorem tried_checkScript (path source : String) :
    Tried (checkName path) source (checkScript path source).1.result := by
  have result_eq : (checkScript path source).1.result
      = ((Instance.build hostFunctions (checkName path) source).1.mapError .ofScript).map
        fun inst => inst.registry.names.length := rfl
  rw [result_eq]
  cases built : (Instance.build hostFunctions (checkName path) source).1 with
  | error error => exact .failed built
  | ok inst =>
    have step := Instance.inStep_of_build built
    have once : inst.registry.names.Nodup := step.names_ascending.nodup
    have counted := List.toFinset_card_of_nodup once
    show Tried _ _ (.ok inst.registry.names.length)
    rw [← counted]
    apply Tried.built built
    intro function
    rw [List.mem_toFinset]
    exact step.mem_names_iff

/-- A script on its own can be built. -/
def Builds (location : Location) (content : ByteArray) : Prop :=
  ∃ source inst, String.fromUTF8? content = some source
    ∧ (Instance.build hostFunctions (checkName (relativePath location)) source).1 = .ok inst

/-- An entry of a check says what comes of a script. -/
structure Reports (entry : CheckEntry) (location : Location) (content : ByteArray) : Prop where
  relativePath_eq : entry.relativePath = relativePath location
  tried : ∃ source, String.fromUTF8? content = some source
    ∧ Tried (checkName (relativePath location)) source entry.result

/-- An entry says that a script can be built when it can. -/
theorem Reports.hasFailed_iff {entry : CheckEntry} (reports : Reports entry location content) :
    entry.hasFailed = false ↔ Builds location content := by
  obtain ⟨source, source_eq, tried⟩ := reports.tried
  unfold CheckEntry.hasFailed
  generalize entry.result = result at tried
  cases tried with
  | built built _ =>
    apply iff_of_true rfl
    exact ⟨source, _, source_eq, built⟩
  | failed failed =>
    apply iff_of_false Bool.true_eq_false.mp
    rintro ⟨text, inst, text_eq, built⟩
    rw [source_eq] at text_eq
    cases text_eq
    rw [failed] at built
    cases built

/-- The exit code says whether an entry has failed. -/
theorem exitCode_check_iff {path : String} {entries : List CheckEntry} {journal : List Event}
    (checked : checkScripts files path = .ok (entries, journal)) :
    (check files path).exitCode = 0 ↔ ∀ entry ∈ entries, entry.hasFailed = false := by
  unfold check
  rw [checked]
  dsimp only
  split
  · next none =>
    apply iff_of_true rfl
    simpa using none
  · next some =>
    apply iff_of_false Nat.one_ne_zero
    simpa using some

/-! ## Entries -/

/-- The entries of a check, in the order of their relative paths. Each says what comes of a script,
and there is one with every relative path. -/
structure Covered (files : FileTree) (root : Location) (entries : List CheckEntry) : Prop where
  ascending : entries.Pairwise fun a b => a.relativePath < b.relativePath
  reports : ∀ entry ∈ entries, ∃ location content, IsScript files root location content
    ∧ Reports entry location content
  exists_entry : ∀ location content, IsScript files root location content →
    ∃ entry ∈ entries, entry.relativePath = relativePath location

variable {entries : List CheckEntry} {path : String}

theorem Collects.covered {scripts : Entries String} (collects : Collects files root scripts) :
    Covered files root (scripts.map fun script => (checkScript script.1 script.2).1) where
  ascending := List.pairwise_map.2 collects.ascending
  reports := by
    intro entry m
    obtain ⟨⟨path, source⟩, there, rfl⟩ := List.mem_map.1 m
    obtain ⟨location, content, script, source_eq, rfl⟩ := collects.of_script path source there
    exact ⟨location, content, script, rfl, source, source_eq, tried_checkScript _ source⟩
  exists_entry := by
    intro location content script
    obtain ⟨⟨path, source⟩, there, path_eq⟩ :=
      List.mem_map.1 (collects.mem_keys location content script)
    exact ⟨(checkScript path source).1, List.mem_map_of_mem there, path_eq⟩

/-- A relative path stands in one entry only. -/
theorem Covered.eq_of_relativePath_eq (covered : Covered files root entries) {a b : CheckEntry}
    (here : a ∈ entries) (there : b ∈ entries) (same : a.relativePath = b.relativePath) :
    a = b := by
  have once : (entries.map CheckEntry.relativePath).Nodup := by
    apply List.pairwise_map.2
    apply covered.ascending.imp
    intro a b lt same
    rw [same] at lt
    exact String.lt_irrefl _ lt
  exact List.inj_on_of_nodup_map once here there same

/-- An entry with the relative path of a script is on that script, if no other one has that path. -/
theorem Covered.reports_of_relativePath_eq (covered : Covered files root entries)
    (apart : Apart files root) {entry : CheckEntry} (m : entry ∈ entries)
    (script : IsScript files root location content)
    (path_eq : entry.relativePath = relativePath location) : Reports entry location content := by
  obtain ⟨other, bytes, script_other, reports⟩ := covered.reports entry m
  rw [reports.relativePath_eq] at path_eq
  have same := apart _ _ _ _ script_other script path_eq
  subst same
  rw [script.content_eq script_other] at reports
  exact reports

theorem Covered.existsUnique_entry (covered : Covered files root entries)
    (apart : Apart files root) (script : IsScript files root location content) :
    ∃! entry, entry ∈ entries ∧ Reports entry location content := by
  obtain ⟨entry, m, path_eq⟩ := covered.exists_entry location content script
  refine ⟨entry, ⟨m, covered.reports_of_relativePath_eq apart m script path_eq⟩, ?_⟩
  rintro other ⟨there, reports⟩
  apply covered.eq_of_relativePath_eq there m
  rw [reports.relativePath_eq, path_eq]

theorem Covered.existsUnique_script (covered : Covered files root entries)
    (apart : Apart files root) {entry : CheckEntry} (m : entry ∈ entries) :
    ∃! script : Location × ByteArray,
      IsScript files root script.1 script.2 ∧ Reports entry script.1 script.2 := by
  obtain ⟨location, content, script, reports⟩ := covered.reports entry m
  refine ⟨(location, content), ⟨script, reports⟩, ?_⟩
  rintro ⟨other, bytes⟩ ⟨script_other, reports_other⟩
  have same : other = location := by
    apply apart _ _ _ _ script_other script
    rw [← reports_other.relativePath_eq, reports.relativePath_eq]
  exact Prod.ext same (script.content_eq (same ▸ script_other))

/-- When all scripts can be built, no entry has failed. -/
theorem Covered.hasFailed_eq_false (covered : Covered files root entries)
    (builds : ∀ location content, IsScript files root location content → Builds location content) :
    ∀ entry ∈ entries, entry.hasFailed = false := by
  intro entry m
  obtain ⟨location, content, script, reports⟩ := covered.reports entry m
  exact reports.hasFailed_iff.2 (builds location content script)

theorem Covered.builds (covered : Covered files root entries) (apart : Apart files root)
    (passed : ∀ entry ∈ entries, entry.hasFailed = false)
    (script : IsScript files root location content) : Builds location content := by
  obtain ⟨entry, ⟨m, reports⟩, _⟩ := covered.existsUnique_entry apart script
  exact reports.hasFailed_iff.1 (passed entry m)

theorem exists_checkScripts {scripts : Entries String}
    (loaded : loadScripts files path = .ok scripts) :
    ∃ journal, checkScripts files path
      = .ok (scripts.map fun script => (checkScript script.1 script.2).1, journal) := by
  unfold checkScripts
  rw [loaded]
  refine ⟨_, congrArg Except.ok (Prod.ext ?_ rfl)⟩
  exact List.map_map

/-- A check of a directory with some scripts, all of them texts. The entries come in the order of
their relative paths, each says what comes of a script on its own, and every relative path has an
entry. The exit code is zero when no entry has failed, as it is when all scripts can be built. When
no two scripts have the same relative path, each script has its one entry, and the exit code is zero
only if all can be built; so it is when no name holds a backslash. Of scripts with the same relative
path only one has an entry. What `execute` leaves of a check that a script ends is not said here. -/
theorem check_reports (proper : files.WellFormed)
    (found : files.locate? (absolutePath files path) = some root)
    (directory : files.isDirectoryAt root = true)
    (readable : ∀ location content, IsScript files root location content →
      (String.fromUTF8? content).isSome = true)
    (some_script : ∃ location content, IsScript files root location content) :
    ∃ entries journal, checkScripts files path = .ok (entries, journal)
      ∧ Covered files root entries
      ∧ ((check files path).exitCode = 0 ↔ ∀ entry ∈ entries, entry.hasFailed = false)
      ∧ ((∀ location content, IsScript files root location content → Builds location content) →
        (check files path).exitCode = 0)
      ∧ (Apart files root →
        (∀ location content, IsScript files root location content →
          ∃! entry, entry ∈ entries ∧ Reports entry location content)
        ∧ (∀ entry ∈ entries, ∃! script : Location × ByteArray,
          IsScript files root script.1 script.2 ∧ Reports entry script.1 script.2)
        ∧ ((check files path).exitCode = 0
          ↔ ∀ location content, IsScript files root location content → Builds location content))
      ∧ ((∀ location content, IsScript files root location content →
        ∀ name ∈ location, '\\' ∉ name.toList) → Apart files root) := by
  obtain ⟨scripts, loaded, collects⟩ :=
    exists_loadScripts proper found directory readable some_script
  obtain ⟨journal, checked⟩ := exists_checkScripts loaded
  have covered := collects.covered
  have exit := exitCode_check_iff checked
  refine ⟨_, journal, checked, covered, exit, ?_, ?_, apart_of_free proper⟩
  · intro builds
    exact exit.2 (covered.hasFailed_eq_false builds)
  · intro apart
    refine ⟨?_, ?_, ?_⟩
    · intro location content script
      exact covered.existsUnique_entry apart script
    · intro entry m
      exact covered.existsUnique_script apart m
    · constructor
      · intro zero location content script
        exact covered.builds apart (exit.1 zero) script
      · intro builds
        exact exit.2 (covered.hasFailed_eq_false builds)

/-- A lamp in a directory, and a broken one whose name has a backslash: one of them is left out. -/
theorem check_reports_of_lamps :
    let files : FileTree := ⟨["work"],
      [(["work"], .directory), (["work", "a"], .directory),
        (["work", "a", "lamp.lua"], .file "function on() end".toUTF8),
        (["work", "a\\lamp.lua"], .file "lamp = = 1".toUTF8)]⟩
    ∃ entry journal, checkScripts files "." = .ok ([entry], journal)
      ∧ entry.relativePath = "a/lamp.lua" := by
  intro files
  have proper : files.WellFormed := ⟨by decide, by decide, by decide⟩
  have found : files.locate? (absolutePath files ".") = some ["work"] := by decide +kernel
  have scripts : scriptFiles files ["work"]
      = [(["a", "lamp.lua"], "function on() end".toUTF8),
        (["a\\lamp.lua"], "lamp = = 1".toUTF8)] := by
    decide +kernel
  have named : ∀ location content, IsScript files ["work"] location content →
      (String.fromUTF8? content).isSome = true ∧ relativePath location = "a/lamp.lua" := by
    intro location content script
    have m := (mem_scriptFiles_iff proper).2 script
    rw [scripts] at m
    simp only [List.mem_cons, List.not_mem_nil, or_false, Prod.mk.injEq] at m
    rcases m with ⟨rfl, rfl⟩ | ⟨rfl, rfl⟩ <;> decide +kernel
  have first : IsScript files ["work"] ["a", "lamp.lua"] "function on() end".toUTF8 := by
    apply (mem_scriptFiles_iff proper).1
    rw [scripts]
    exact List.mem_cons_self
  obtain ⟨entries, journal, checked, covered, _⟩ := check_reports proper found (by decide)
    (fun location content script => (named location content script).1) ⟨_, _, first⟩
  obtain ⟨entry, m, path_eq⟩ := covered.exists_entry _ _ first
  have entry_path : entry.relativePath = "a/lamp.lua" := path_eq.trans (named _ _ first).2
  -- Every entry has the one relative path, so there is only one.
  have alone : ∀ other ∈ entries, other = entry := by
    intro other there
    obtain ⟨location, content, script, reports⟩ := covered.reports other there
    apply covered.eq_of_relativePath_eq there m
    rw [reports.relativePath_eq, (named _ _ script).2, entry_path]
  have single : entries = [entry] := by
    cases entries with
    | nil => cases m
    | cons head rest =>
      have head_eq := alone head List.mem_cons_self
      cases rest with
      | nil => rw [head_eq]
      | cons next rest =>
        have next_eq := alone next (List.mem_cons_of_mem _ List.mem_cons_self)
        have lt := (List.pairwise_cons.1 covered.ascending).1 next List.mem_cons_self
        rw [head_eq, next_eq] at lt
        exact absurd lt (String.lt_irrefl _)
  exact ⟨entry, journal, by rw [checked, single], entry_path⟩

end ScriptHost.CommandLine
