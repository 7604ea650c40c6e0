import ScriptHost.CommandLine.SavedState
import ScriptHost.Proofs.Files.Trees
import ScriptHost.Proofs.Json.Pretty

/-!
# Saved states are read back

* `SavedState.parse?_text` : every state is read back from its text.
* `SavedState.load_of_save` : a state that was saved is loaded, if it names no variable twice.
* `SavedState.spares_of_save` : when a state cannot be saved, the file at its path stays.
-/

namespace ScriptHost

open Json

/-! ## Texts -/

namespace EncodedVariable

/-- An encoded variable is read back from its document. -/
theorem ofDocument?_json (depth : Nat) (encoded : EncodedVariable) :
    ofDocument? (depth + 1) encoded.json.document = some encoded := rfl

/-- A list of encoded variables is read back from its document. -/
theorem listOfDocument?_json (depth : Nat) (entries : List EncodedVariable) :
    listOfDocument? (depth + 2) (Json.array (entries.map json)).document = some entries := by
  show (documents (entries.map json)).mapM (ofDocument? (depth + 1)) = some entries
  induction entries with
  | nil => rfl
  | cons entry entries ih =>
    rw [List.map_cons, documents, List.mapM_cons, ofDocument?_json, ih]
    rfl

end EncodedVariable

namespace CommandLine.SavedState

variable {files out : FileTree} {path : String} {state : SavedState}

/-- Every state is read back from its text. -/
theorem parse?_text (state : SavedState) : parse? state.text = some state := by
  have read := EncodedVariable.listOfDocument?_json 124 state.entries
  unfold parse? text
  rw [parse?_pretty]
  show (EncodedVariable.listOfDocument? 126
    (Json.array (state.entries.map EncodedVariable.json)).document).bind
      (fun entries => some (SavedState.mk state.layout state.script entries)) = some state
  rw [read]
  rfl

/-! ## Names -/

/-- No name is repeated if they differ from each other and from those seen before. -/
theorem firstRepeated?_eq_none_iff (seen names : List String) :
    firstRepeated? seen names = none ↔ names.Nodup ∧ ∀ name ∈ names, name ∉ seen := by
  induction names generalizing seen with
  | nil => simp [firstRepeated?]
  | cons name names ih =>
    rw [firstRepeated?]
    by_cases again : name ∈ seen
    · simp [again]
    · rw [if_neg (by simpa using again), ih, List.nodup_cons]
      constructor
      · rintro ⟨nodup, fresh⟩
        refine ⟨⟨fun m => fresh name m List.mem_cons_self, nodup⟩, ?_⟩
        intro other m
        rcases List.mem_cons.1 m with rfl | m
        · exact again
        · exact fun k => fresh other m (List.mem_cons_of_mem name k)
      · rintro ⟨⟨first, nodup⟩, fresh⟩
        refine ⟨nodup, fun other m k => ?_⟩
        rcases List.mem_cons.1 k with rfl | k
        · exact first m
        · exact fresh other (List.mem_cons_of_mem name m) k

/-- A state that is accepted names no variable twice. -/
theorem nodup_of_accept {script : String} {accepted : SavedState}
    (h : accept path script state = .ok accepted) :
    accepted = state ∧ (state.entries.map EncodedVariable.name).Nodup := by
  unfold accept at h
  split at h
  · cases h
  · split at h
    · cases h
    · split at h
      · cases h
      · next different =>
        cases h
        exact ⟨rfl, ((firstRepeated?_eq_none_iff _ _).1 different).1⟩

theorem nodup_of_load {script : String} (loaded : load files path script = .ok state) :
    (state.entries.map EncodedVariable.name).Nodup := by
  unfold load at loaded
  split at loaded
  · cases loaded
  · split at loaded
    · cases loaded
    · split at loaded
      · cases loaded
      · obtain ⟨rfl, nodup⟩ := nodup_of_accept loaded
        exact nodup

/-! ## Files -/

/-- The state in a file with its text is loaded, if it has the known layout and names no variable
twice. -/
theorem load_of_lookup? (there : files.lookup? path = some (.file state.text.toUTF8))
    (layout : state.layout = stateLayout)
    (nodup : (state.entries.map EncodedVariable.name).Nodup) :
    load files path state.script = .ok state := by
  have isFile : files.isFile path = true := by
    unfold FileTree.isFile
    rw [there]
  have text : files.readText? path = some state.text := by
    unfold FileTree.readText?
    rw [there]
    exact Text.Utf8.fromUTF8?_toUTF8 state.text
  have distinct : firstRepeated? [] (state.entries.map EncodedVariable.name) = none :=
    (firstRepeated?_eq_none_iff _ _).2 ⟨nodup, fun _ _ => List.not_mem_nil⟩
  unfold load
  rw [isFile, text]
  dsimp only
  rw [parse?_text]
  show accept path state.script state = .ok state
  unfold accept
  rw [if_neg (not_not_intro layout), if_neg (not_not_intro rfl), distinct]

/-- The steps of saving a state: the directories are made, the text is written to another file, and
that file takes the place of the old one. -/
theorem save_cases (files : FileTree) (path : String) (state : SavedState) :
    FileTree.Grown files (save files path state).2 ∧ (save files path state).1 ≠ .ok ()
      ∨ ∃ grown written, FileTree.Grown files grown
        ∧ grown.writeFile? (stagingPath path) state.text.toUTF8 = some written
        ∧ (save files path state = (.error (.stateNotWritten path), written)
            ∧ written.rename? (stagingPath path) path = none
          ∨ ∃ renamed, save files path state = (.ok (), renamed)
            ∧ written.rename? (stagingPath path) path = some renamed) := by
  have grown := FileTree.grown_makeParents files path
  unfold save
  split
  next made_files made made_eq =>
  rw [made_eq] at grown
  dsimp only at grown ⊢
  split
  · exact .inl ⟨grown, by simp⟩
  · split
    · exact .inl ⟨grown, by simp⟩
    · next written wrote =>
      refine .inr ⟨made_files, written, grown, wrote, ?_⟩
      split
      · next none => exact .inl ⟨rfl, none⟩
      · next renamed done => exact .inr ⟨renamed, rfl, done⟩

/-- A state that is not saved could not be written. -/
theorem eq_stateNotWritten_of_save {failure : Failure}
    (saved : save files path state = (.error failure, out)) : failure = .stateNotWritten path := by
  unfold save at saved
  split at saved
  split at saved
  · cases saved
    rfl
  · split at saved
    · cases saved
      rfl
    · split at saved
      · cases saved
        rfl
      · cases saved

/-- A state that was saved is loaded. -/
theorem load_of_save (saved : save files path state = (.ok (), out))
    (layout : state.layout = stateLayout)
    (nodup : (state.entries.map EncodedVariable.name).Nodup) :
    load out path state.script = .ok state
      ∧ out.workingDirectory = files.workingDirectory := by
  rcases save_cases files path state with ⟨_, failed⟩ | ⟨grown, written, grows, wrote, ended⟩
  · rw [saved] at failed
    exact absurd rfl failed
  · obtain ⟨directory, name, names, fits, free, written_eq, led⟩ :=
      FileTree.writeFile?_eq_some wrote
    have below : directory ++ [name] ≠ [] := List.append_ne_nil_of_right_ne_nil _ (by simp)
    have file : written.node? (directory ++ [name]) = some (.file state.text.toUTF8) := by
      rw [written_eq]
      exact FileTree.node?_put_self below _
    rcases ended with ⟨failed, _⟩ | ⟨renamed, done, rename_eq⟩
    · rw [saved] at failed
      cases failed
    · rw [saved] at done
      cases done
      obtain ⟨there, keeps⟩ := FileTree.rename?_eq_some led file rename_eq
      refine ⟨load_of_lookup? there layout nodup, ?_⟩
      rw [keeps.workingDirectory_eq, written_eq]
      exact grows.workingDirectory_eq

/-- The last component of a path that ends on the way up. -/
theorem getLast?_components_of_up (up : (Path.parts path).getLast? = some "..") :
    (Path.components path).getLast? = some ".." := by
  have kept (parts : List String) :
      ((parts ++ [".."]).filter fun part => !Path.isIdle part).getLast? = some ".." := by
    rw [List.filter_append]
    exact List.getLast?_concat
  obtain ⟨parts, parts_eq⟩ := List.getLast?_eq_some_iff.1 up
  unfold Path.components
  rw [parts_eq]
  split
  · next rest same =>
    cases parts with
    | nil => exact absurd (List.cons.inj same).1 (by decide)
    | cons first parts =>
      have rest_eq : rest = parts ++ [".."] := (List.cons.inj same).2.symm
      rw [rest_eq, List.getLast?_cons, kept]
      rfl
  · exact kept parts

/-- A path that ends on the way up names no file, and has no other extension. -/
theorem stagingPath_of_up (up : (Path.parts path).getLast? = some "..") :
    stagingPath path = path := by
  have unnamed : Path.fileName? path = none := by
    unfold Path.fileName?
    rw [getLast?_components_of_up up]
    rfl
  unfold stagingPath Path.withExtension
  rw [unnamed]

/-- When a state cannot be saved, the file at its path stays. -/
theorem spares_of_save {failure : Failure} (saved : save files path state = (.error failure, out)) :
    FileTree.Spares files path out := by
  rcases save_cases files path state with ⟨grown, _⟩ | ⟨grown, written, grows, wrote, ended⟩
  · rw [saved] at grown
    exact grown.spares path
  · obtain ⟨directory, name, names, fits, free, written_eq, led⟩ :=
      FileTree.writeFile?_eq_some wrote
    have below : directory ++ [name] ≠ [] := List.append_ne_nil_of_right_ne_nil _ (by simp)
    have file : written.node? (directory ++ [name]) = some (.file state.text.toUTF8) := by
      rw [written_eq]
      exact FileTree.node?_put_self below _
    rcases ended with ⟨failed, not_renamed⟩ | ⟨renamed, done, _⟩
    · rw [saved] at failed
      cases failed
      refine grows.spares_put written_eq free fun found => ?_
      -- If the path led to the file that was written, then that could take its own place.
      have down : (Path.parts path).getLast? ≠ some ".." := by
        intro up
        obtain ⟨parts, parts_eq, _⟩ := names.way
        rw [stagingPath_of_up up] at parts_eq
        rw [parts_eq, List.getLast?_concat] at up
        exact names.down (Option.some.inj up)
      obtain ⟨place, last, place_names, same⟩ := FileTree.names_of_locate? found file down
      obtain ⟨_, last_eq⟩ := List.append_inj' same rfl
      cases last_eq
      have aimed := place_names.target? fits
      rw [← same] at aimed
      exact FileTree.rename?_ne_none led file aimed not_renamed
    · rw [saved] at done
      cases done

end CommandLine.SavedState

end ScriptHost
