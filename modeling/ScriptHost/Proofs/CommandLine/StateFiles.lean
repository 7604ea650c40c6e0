import ScriptHost.CommandLine.Run
import ScriptHost.Proofs.CommandLine.Life
import ScriptHost.Proofs.CommandLine.SavedStates
import ScriptHost.Proofs.Component.Errors
import ScriptHost.Proofs.Component.Lasting
import ScriptHost.Proofs.Instance.Capture

/-!
# The states that runs leave

A run can leave its captured variables in a file, from which a later run starts. What a run leaves
is always taken, and a run that fails leaves the file of an earlier one as it is.

* `Lasting.keeps_drive`, `onlyBuildFails_drive` : what a run keeps, and how it fails.
* `runReport_cases` : the ends of a run whose script does not end the program.
* `nodup_of_runReport` : a report names no variable twice.
* `isOfState_of_runReport` : a run that has its state does not fail for it.
* `stateOut_of_runScript` : the file of such a run afterwards.
* `execute_stateOut` : the file of any run afterwards.
-/

namespace ScriptHost

open Component

/-! ## Driving -/

namespace Component.Lasting

variable {property : Component → Prop} (h : Lasting property)
include h

theorem keeps_startUp : startUp.Keeps property :=
  .attempt h.keeps_awake (fun _ => rfl) fun _ =>
    .attempt h.keeps_enable (fun _ => rfl) fun _ => .bind h.keeps_start fun _ => .pure _

theorem keeps_driveFrame (reloads : Bool) : (CommandLine.driveFrame reloads).Keeps property := by
  refine .attempt (h.keeps_update _) (fun _ => rfl) fun _ => .bind h.keeps_fixedUpdate fun _ => ?_
  split
  · exact h.keeps_notifySourceModified
  · exact .pure _

theorem keeps_driveFrames (reloadAt? : Option Nat) (reloads first count : Nat) :
    (CommandLine.driveFrames reloadAt? reloads first count).Keeps property := by
  induction count generalizing reloads first with
  | zero => exact .pure _
  | succ count ih =>
    exact .attempt (h.keeps_driveFrame _) (fun _ => rfl) fun _ => ih _ _

theorem keeps_drive (frames : Nat) (reloadAt? : Option Nat) :
    (CommandLine.drive frames reloadAt?).Keeps property := by
  refine .attempt h.keeps_startUp (fun _ => rfl) fun _ => ?_
  refine .attempt (h.keeps_driveFrames reloadAt? 0 0 frames) (fun _ => rfl) fun reloads => ?_
  exact .bind h.keeps_disable fun _ => .pure _

theorem keeps_drop : Component.drop.Keeps property := by
  refine .bind .get fun component => ?_
  split
  · exact .pure _
  · exact .bind (.modify fun other => h.of_live other none) fun _ => h.keeps_note _

end Component.Lasting

namespace CommandLine

theorem onlyBuildFails_driveFrame (reloads : Bool) : (driveFrame reloads).OnlyBuildFails := by
  refine .attempt (onlyBuildFails_update frameDelta) (fun _ => rfl) fun _ => .bind fun _ => ?_
  split
  · exact onlyBuildFails_notifySourceModified
  · exact .ok ()

theorem onlyBuildFails_driveFrames (reloadAt? : Option Nat) (reloads first count : Nat) :
    (driveFrames reloadAt? reloads first count).OnlyBuildFails := by
  induction count generalizing reloads first with
  | zero => exact .ok reloads
  | succ count ih =>
    exact .attempt (onlyBuildFails_driveFrame _) (fun _ => rfl) fun _ => ih _ _

/-- A run that has started fails with an error of a build. -/
theorem onlyBuildFails_drive (frames : Nat) (reloadAt? : Option Nat) :
    (drive frames reloadAt?).OnlyBuildFails := by
  refine .attempt onlyBuildFails_startUp (fun _ => rfl) fun _ => ?_
  refine .attempt (onlyBuildFails_driveFrames reloadAt? 0 0 frames) (fun _ => rfl) fun reloads => ?_
  exact .bind fun _ => .ok reloads

/-! ## Names -/

/-- A capture takes no variable twice, so a component holds none twice, if it did not before. -/
theorem lasting_nodup_names :
    Lasting fun component => (component.snapshot.map CapturedVariable.name).Nodup where
  of_live _ _ nodup := nodup
  of_journal _ _ nodup := nodup
  of_exposed _ _ nodup := nodup
  of_pendingReload _ _ nodup := nodup
  of_given _ _ := List.nodup_nil
  of_captured _ inst _ := Instance.nodup_capture inst

/-- The variables that can be kept as text have the names of the captured ones, less those of
references. -/
theorem names_encoded (snapshot : Snapshot) :
    (snapshot.encoded.map EncodedVariable.name).Sublist (snapshot.map CapturedVariable.name) := by
  induction snapshot with
  | nil => exact .refl []
  | cons captured snapshot ih =>
    cases captured with
    | native name reference => exact ih.cons name
    | encoded entry => exact ih.cons_cons entry.name

theorem names_map_encoded (entries : List EncodedVariable) :
    (entries.map CapturedVariable.encoded).map CapturedVariable.name
      = entries.map EncodedVariable.name := by
  rw [List.map_map]
  rfl

/-! ## Failures -/

/-- Whether a failure is one of state files, by its code. -/
def Failure.isOfState (failure : Failure) : Bool :=
  "CLI_STATE_".toList.isPrefixOf failure.code.toList

theorem isOfState_ofScript {error : Error} (h : error.isOfBuild) :
    (Failure.ofScript error).isOfState = false := by
  have others : ∀ code ∈
      ["SOURCE_READ", "SCRIPT_COMPILE_ERROR", "SCRIPT_LOAD_ERROR", "SCRIPT_GLOBAL_ERROR"],
      "CLI_STATE_".toList.isPrefixOf code.toList = false := by decide
  exact others error.code (Error.code_of_isOfBuild h)

section

variable {files out : FileTree} {options : RunOptions} {path : String}

/-- What a script is called hangs on its path only. -/
theorem name_of_loadScript {script : LoadedScript} (found : loadScript files path = .ok script) :
    script.name = scriptName (absolutePath files path) := by
  rcases loadScript_cases files path with ⟨source, loaded, _⟩ | ⟨failure, failed, _⟩
  · rw [loaded] at found
    cases found
    rfl
  · rw [failed] at found
    cases found

/-- That a script cannot be read is no fault of a state file. -/
theorem isOfState_of_loadScript {failure : Failure}
    (failed : loadScript files path = .error failure) : failure.isOfState = false := by
  have others : ∀ code ∈ ["CLI_SOURCE_NOT_FOUND", "CLI_SOURCE_NOT_FILE", "CLI_SOURCE_READ"],
      "CLI_STATE_".toList.isPrefixOf code.toList = false := by decide
  rcases loadScript_cases files path with ⟨source, loaded, _⟩ | ⟨reason, lost, code⟩
  · rw [loaded] at failed
    cases failed
  · rw [lost] at failed
    cases failed
    exact others _ code

/-! ## Preparing -/

/-- What a run starts from has no two variables of one name. -/
theorem nodup_of_initialEntries {script : LoadedScript} {entries : List EncodedVariable}
    {journal : List Event}
    (started : initialEntries files script options.stateIn? = .ok (entries, journal)) :
    (entries.map EncodedVariable.name).Nodup := by
  cases given : options.stateIn? with
  | none =>
    rw [given] at started
    cases started
    exact List.nodup_nil
  | some path =>
    rw [given] at started
    cases loaded : SavedState.load files path script.name with
    | error failure =>
      simp only [initialEntries, loaded, Bind.bind, Except.bind] at started
      cases started
    | ok state =>
      simp only [initialEntries, loaded, Bind.bind, Except.bind] at started
      cases started
      exact SavedState.nodup_of_load loaded

theorem nodup_of_prepare {component : Component} {name : String}
    (prepared : prepare files options = .ok (component, name)) :
    name = scriptName (absolutePath files options.script)
      ∧ (component.snapshot.map CapturedVariable.name).Nodup := by
  unfold prepare at prepared
  cases found : loadScript files options.script with
  | error failure =>
    rw [found] at prepared
    cases prepared
  | ok script =>
    cases started : initialEntries files script options.stateIn? with
    | error failure =>
      simp only [found, started, Bind.bind, Except.bind] at prepared
      cases prepared
    | ok start =>
      obtain ⟨entries, journal⟩ := start
      simp only [found, started, Bind.bind, Except.bind] at prepared
      cases prepared
      refine ⟨name_of_loadScript found, ?_⟩
      show ((entries.map CapturedVariable.encoded).map CapturedVariable.name).Nodup
      rw [names_map_encoded]
      exact nodup_of_initialEntries started

/-- The state that a run starts from can be loaded, if it starts from one. -/
def CanStart (files : FileTree) (options : RunOptions) : Prop :=
  ∀ path, options.stateIn? = some path → ∃ state,
    SavedState.load files path (scriptName (absolutePath files options.script)) = .ok state

/-- A run whose state can be loaded is not refused for it. -/
theorem isOfState_of_prepare {failure : Failure} (loads : CanStart files options)
    (failed : prepare files options = .error failure) : failure.isOfState = false := by
  unfold prepare at failed
  cases found : loadScript files options.script with
  | error reason =>
    rw [found] at failed
    cases failed
    exact isOfState_of_loadScript found
  | ok script =>
    cases given : options.stateIn? with
    | none =>
      rw [found, given] at failed
      cases failed
    | some path =>
      obtain ⟨state, loaded⟩ := loads path given
      rw [← name_of_loadScript found] at loaded
      simp only [found, given, initialEntries, loaded, Bind.bind, Except.bind] at failed
      cases failed

/-! ## Reports -/

/-- The ends of a run: it cannot be prepared, a build fails, or there is a report. -/
theorem runReport_cases (files : FileTree) (options : RunOptions) :
    (∃ failure, prepare files options = .error failure
        ∧ (runReport files options).1 = .error failure)
      ∨ ∃ component name, prepare files options = .ok (component, name)
        ∧ ((∃ error, error.isOfBuild ∧ (runReport files options).1 = .error (.ofScript error))
          ∨ ∃ reloads, (runReport files options).1 = .ok ⟨name, options.frames, reloads,
            (Component.drop.after files ((drive options.frames options.reloadAt?).after files
              component)).snapshot.encoded⟩) := by
  cases prepared : prepare files options with
  | error failure =>
    rw [runReport_of_prepare_error prepared]
    exact .inl ⟨failure, rfl, rfl⟩
  | ok start =>
    obtain ⟨component, name⟩ := start
    have ran := runReport_of_prepare_ok prepared
    dsimp only at ran
    rw [ran]
    refine .inr ⟨component, name, rfl, ?_⟩
    have blamed := onlyBuildFails_drive options.frames options.reloadAt? files component
    cases driven : (drive options.frames options.reloadAt?).result files component with
    | error error => exact .inl ⟨error, blamed error driven, rfl⟩
    | ok reloads => exact .inr ⟨reloads, rfl⟩

/-- A report is one of the script at the path of the run, and names no variable twice. -/
theorem nodup_of_runReport {report : RunReport}
    (reported : (runReport files options).1 = .ok report) :
    report.script = scriptName (absolutePath files options.script)
      ∧ (report.entries.map EncodedVariable.name).Nodup := by
  rcases runReport_cases files options with
    ⟨_, _, ended⟩ | ⟨component, name, prepared, ⟨_, _, ended⟩ | ⟨reloads, ended⟩⟩
  · rw [reported] at ended
    cases ended
  · rw [reported] at ended
    cases ended
  · rw [reported] at ended
    cases ended
    obtain ⟨named, nodup⟩ := nodup_of_prepare prepared
    refine ⟨named, ?_⟩
    have driven := lasting_nodup_names.keeps_drive options.frames options.reloadAt? files _ nodup
    have dropped := lasting_nodup_names.keeps_drop files _ driven
    exact dropped.sublist (names_encoded _)

/-- A run whose state can be loaded does not fail for it. -/
theorem isOfState_of_runReport {failure : Failure} (loads : CanStart files options)
    (failed : (runReport files options).1 = .error failure) : failure.isOfState = false := by
  rcases runReport_cases files options with
    ⟨_, refused, ended⟩ | ⟨component, name, _, ⟨_, blamed, ended⟩ | ⟨reloads, ended⟩⟩
  · rw [failed] at ended
    cases ended
    exact isOfState_of_prepare loads refused
  · rw [failed] at ended
    cases ended
    exact isOfState_ofScript blamed
  · rw [failed] at ended
    cases ended

/-! ## Outcomes -/

/-- The state that a run leaves. -/
def RunReport.state (report : RunReport) : SavedState :=
  { script := report.script, entries := report.entries }

theorem runScript_of_error {failure : Failure}
    (failed : (runReport files options).1 = .error failure) :
    runScript files options = .failed files (runReport files options).2 [] failure := by
  unfold runScript
  rw [← Prod.eta (runReport files options), failed]

section

variable {report : RunReport} (reported : (runReport files options).1 = .ok report)
include reported

theorem runScript_of_unwanted (unwanted : options.stateOut? = none) :
    runScript files options
      = .succeeded files (runReport files options).2 (reportLines report none) := by
  unfold runScript
  rw [← Prod.eta (runReport files options), reported, unwanted]

theorem runScript_of_not_saved {failure : Failure} (wanted : options.stateOut? = some path)
    (not_saved : SavedState.save files path report.state = (.error failure, out)) :
    runScript files options = .failed out (runReport files options).2 [] failure := by
  unfold RunReport.state at not_saved
  unfold runScript
  rw [← Prod.eta (runReport files options), reported, wanted]
  dsimp only
  rw [not_saved]

theorem runScript_of_saved (wanted : options.stateOut? = some path)
    (saved : SavedState.save files path report.state = (.ok (), out)) :
    runScript files options
      = .succeeded out (.stateSaved report.script path report.entries.length
          :: (runReport files options).2) (reportLines report (some path)) := by
  unfold RunReport.state at saved
  unfold runScript
  rw [← Prod.eta (runReport files options), reported, wanted]
  dsimp only
  rw [saved]

end

/-- The lines of a command that failed tell the code of the failure. -/
theorem code_eq_of_failureLines {failure other : Failure}
    (same : failureLines failure = failureLines other) : failure.code = other.code := by
  have line : "ERROR_CODE:" ++ failure.code = "ERROR_CODE:" ++ other.code :=
    (List.cons.inj (List.cons.inj same).2).1
  have chars := congrArg String.toList line
  rw [String.toList_append, String.toList_append] at chars
  exact String.toList_inj.1 (List.append_cancel_left chars)

/-- The lines of a command that went well are not those of one that failed. -/
theorem succeeded_lines_ne (lines : List String) (failure : Failure) :
    successLine :: lines ≠ failureLines failure := by
  intro same
  exact absurd (List.cons.inj same).1 (by decide)

/-- A run whose state can be loaded is refused for a state only if it cannot write its own. -/
theorem refused_of_runScript {failure : Failure} (loads : CanStart files options)
    (refused : (runScript files options).lines = failureLines failure) (state : failure.isOfState) :
    ∃ target, options.stateOut? = some target
      ∧ failure.code = (Failure.stateNotWritten target).code := by
  cases ran : (runReport files options).1 with
  | error reason =>
    -- The lines tell the code only, but that is all that makes it a failure of state files.
    rw [runScript_of_error ran] at refused
    have code : reason.code = failure.code := code_eq_of_failureLines refused
    have other : reason.isOfState = false := isOfState_of_runReport loads ran
    unfold Failure.isOfState at other state
    rw [code, state] at other
    cases other
  | ok report =>
    cases wanted : options.stateOut? with
    | none =>
      rw [runScript_of_unwanted ran wanted] at refused
      exact absurd refused (succeeded_lines_ne _ failure)
    | some target =>
      refine ⟨target, rfl, ?_⟩
      cases saved : SavedState.save files target report.state with
      | mk result left =>
        cases result with
        | ok _ =>
          rw [runScript_of_saved ran wanted saved] at refused
          exact absurd refused (succeeded_lines_ne _ failure)
        | error reason =>
          rw [runScript_of_not_saved ran wanted saved] at refused
          rw [← SavedState.eq_stateNotWritten_of_save saved]
          exact (code_eq_of_failureLines refused).symm

/-! ## State files -/

/-- What a run has saved is loaded for the name of its script, so a later run of the script can start
from it. -/
theorem canStart_of_saved {report : RunReport} (ran : (runReport files options).1 = .ok report)
    (saved : SavedState.save files path report.state = (.ok (), out)) :
    SavedState.load out path (scriptName (absolutePath files options.script)) = .ok report.state
      ∧ ∀ later : RunOptions, later.script = options.script → later.stateIn? = some path →
        CanStart out later := by
  obtain ⟨named, nodup⟩ := nodup_of_runReport ran
  obtain ⟨loaded, directory⟩ := SavedState.load_of_save saved rfl nodup
  have taken : SavedState.load out path (scriptName (absolutePath files options.script))
      = .ok report.state := by
    rw [← named]
    exact loaded
  refine ⟨taken, ?_⟩
  intro later same given other given_other
  rw [given] at given_other
  cases given_other
  -- The working directory stays, so the script has its name in the later run too.
  have absolute : absolutePath out later.script = absolutePath files options.script := by
    unfold absolutePath
    rw [same, directory]
  rw [absolute]
  exact ⟨_, taken⟩

/-- The state file of a run whose script does not end the program. When the run goes well, the file
has the variables of its report, and a later run of the script can start from it. When the run fails,
wherever that is, the file is what it was. -/
theorem stateOut_of_runScript (files : FileTree) (wanted : options.stateOut? = some path) :
    let after := runScript files options
    (after.exitCode = 0 ∧ ∃ report, (runReport files options).1 = .ok report
        ∧ after.lines = successLine :: reportLines report (some path)
        ∧ SavedState.load after.files path (scriptName (absolutePath files options.script))
          = .ok { script := report.script, entries := report.entries }
        ∧ ∀ later : RunOptions, later.script = options.script → later.stateIn? = some path →
          CanStart after.files later)
      ∨ (after.exitCode = 1 ∧ FileTree.Spares files path after.files) := by
  intro after
  cases ran : (runReport files options).1 with
  | error failure =>
    have ended : after = .failed files (runReport files options).2 [] failure :=
      runScript_of_error ran
    rw [ended]
    exact .inr ⟨rfl, .refl files path⟩
  | ok report =>
    cases saved : SavedState.save files path report.state with
    | mk result left =>
      cases result with
      | error failure =>
        have ended : after = .failed left (runReport files options).2 [] failure :=
          runScript_of_not_saved ran wanted saved
        rw [ended]
        exact .inr ⟨rfl, SavedState.spares_of_save saved⟩
      | ok _ =>
        obtain ⟨taken, starts⟩ := canStart_of_saved ran saved
        have ended : after = .succeeded left _ (reportLines report (some path)) :=
          runScript_of_saved ran wanted saved
        rw [ended]
        exact .inl ⟨rfl, report, rfl, rfl, taken, starts⟩

/-! ## What is seen of a run -/

/-- Saving a state does not end the program. -/
theorem endingOf?_runScript (files : FileTree) (options : RunOptions) :
    Event.endingOf? (runScript files options).journal
      = Event.endingOf? (runReport files options).2 := by
  cases ran : (runReport files options).1 with
  | error failure =>
    rw [runScript_of_error ran]
    rfl
  | ok report =>
    cases wanted : options.stateOut? with
    | none =>
      rw [runScript_of_unwanted ran wanted]
      rfl
    | some path =>
      cases saved : SavedState.save files path report.state with
      | mk result left =>
        cases result with
        | error failure =>
          rw [runScript_of_not_saved ran wanted saved]
          rfl
        | ok _ =>
          rw [runScript_of_saved ran wanted saved]
          exact Event.endingOf?_cons rfl _

/-- A run that has an outcome is what it would be otherwise, or its script leaves the program. -/
theorem execute_run_cases {room? : Option Nat} {after : Outcome}
    (ended : execute room? files (.run options) = some after) :
    ((runFrames files options).1 = .ok (runReport files options).1
        ∧ after = (runScript files options).printed room?)
      ∨ (runFrames files options).1.isOk = false ∧ after.lines = [] ∧ after.files = files := by
  obtain ⟨settled, settled_eq, rfl⟩ := Option.map_eq_some_iff.1 ended
  have same := endingOf?_runScript files options
  rcases settle_cases settled_eq with ⟨goes_on, rfl⟩ | ⟨code, left, rfl⟩
  · have all := Event.watched_of_goes_on (same.symm.trans goes_on)
    exact .inl ⟨congrArg Prod.fst all, rfl⟩
  · have part := Event.watched_of_ended (same.symm.trans left)
    have ended_eq : (runFrames files options).1 = .error (.exit code) := congrArg Prod.fst part
    refine .inr ⟨?_, ?_, files_printed room? _⟩
    · rw [ended_eq]
      rfl
    · cases room? <;> rfl

/-- A run whose state can be loaded is not refused for it, whatever its script does. -/
theorem refused_of_execute {failure : Failure} {after : Outcome} (loads : CanStart files options)
    (ended : execute none files (.run options) = some after)
    (refused : after.lines = failureLines failure) (state : failure.isOfState) :
    ∃ target, options.stateOut? = some target
      ∧ failure.code = (Failure.stateNotWritten target).code := by
  rcases execute_run_cases ended with ⟨_, rfl⟩ | ⟨_, silent, _⟩
  · exact refused_of_runScript loads refused state
  · rw [silent] at refused
    cases refused

/-- The state file of a run. When the run goes well and its script does not end the program, the file
has the variables of its report, as `SavedState.load` gives them for the name of the script, and a
later run of the script that starts from the file is not refused for it: if it is refused for a state
at all, then for one of its own that it cannot write. When the run fails, wherever that is, the file
is what it was, unless the run fails because its report cannot be printed. The file is what it was
too when the script leaves the program, whatever the exit code. -/
theorem execute_stateOut {room? : Option Nat} {after : Outcome}
    (wanted : options.stateOut? = some path)
    (ended : execute room? files (.run options) = some after) :
    let ran := (runFrames files options).1
    (after.exitCode = 0 → ran.isOk = true → ∃ report, ran = .ok (.ok report)
        ∧ after.lines = successLine :: reportLines report (some path)
        ∧ SavedState.load after.files path (scriptName (absolutePath files options.script))
          = .ok { script := report.script, entries := report.entries }
        ∧ ∀ later next failure, later.script = options.script → later.stateIn? = some path →
          execute none after.files (.run later) = some next →
          next.lines = failureLines failure → failure.isOfState →
          ∃ target, later.stateOut? = some target
            ∧ failure.code = (Failure.stateNotWritten target).code)
      ∧ (after.exitCode ≠ 0 →
        (∀ report room, ran = .ok (.ok report) → room? = some room →
          (reportLines report (some path)).length < room) →
        FileTree.Spares files path after.files)
      ∧ (ran.isOk = false → FileTree.Spares files path after.files) := by
  intro ran
  rcases execute_run_cases ended with ⟨comes_to, rfl⟩ | ⟨has_ended, _, same⟩
  · have ran_eq : ran = .ok (runReport files options).1 := comes_to
    rw [ran_eq, files_printed]
    refine ⟨?_, ?_, fun not_ok => absurd rfl (Bool.eq_false_iff.1 not_ok)⟩
    · intro exit _
      have all := printed_of_exitCode_zero exit
      rw [all] at exit ⊢
      rcases stateOut_of_runScript files wanted with
        ⟨_, report, reported, printed, taken, starts⟩ | ⟨failed, _⟩
      · refine ⟨report, by rw [reported], printed, taken, ?_⟩
        intro later next failure same given ended_later refused state
        exact refused_of_execute (starts later same given) ended_later refused state
      · rw [exit] at failed
        cases failed
    · intro exit fits
      rcases stateOut_of_runScript files wanted with
        ⟨well, report, reported, printed, _⟩ | ⟨_, spares⟩
      · refine absurd ?_ exit
        rw [printed_of_fits, well]
        intro room given
        have short := fits report room (by rw [reported]) given
        rw [printed]
        exact short
      · exact spares
  · rw [same]
    refine ⟨fun _ is_ok => ?_, fun _ _ => .refl files path, fun _ => .refl files path⟩
    have not_ok : ran.isOk = false := has_ended
    rw [not_ok] at is_ok
    cases is_ok

/-- A lamp is on in the file of one run. A run of a script that is not there leaves that file. -/
theorem execute_stateOut_of_lamp :
    let source := "#Serialize lit\nfunction shine() end\nlit = true"
    let files : FileTree := ⟨[], [(["lamp.lua"], .file source.toUTF8)]⟩
    let options : RunOptions := { script := "lamp.lua", frames := 0, stateOut? := some "lamp.json" }
    let lost : RunOptions := { options with script := "lost.lua" }
    ∃ left last, execute none files (.run options) = some left
      ∧ SavedState.load left.files "lamp.json" "lamp"
        = .ok { script := "lamp", entries := [⟨"lit", "lua.boolean", "true"⟩] }
      ∧ execute none left.files (.run lost) = some last
      ∧ last.exitCode = 1
      ∧ FileTree.Spares left.files "lamp.json" last.files := by
  intro source files options lost
  have went_well : ∃ left ∈ execute none files (.run options), left.exitCode = 0
      ∧ ∃ ran ∈ (runFrames files options).1.toOption, ∃ report ∈ ran.toOption,
        report.script = "lamp" ∧ report.entries = [⟨"lit", "lua.boolean", "true"⟩] := by
    decide +kernel
  have failed : ∃ left ∈ execute none files (.run options),
      ∃ last ∈ execute none left.files (.run lost), last.exitCode = 1 := by
    decide +kernel
  have named : scriptName (absolutePath files options.script) = "lamp" := by decide +kernel
  obtain ⟨left, ended, exit, ran, seen, report, ran_eq, script, entries⟩ := went_well
  obtain ⟨other, same, last, ended_last, exit_last⟩ := failed
  have left_eq : other = left := Option.some.inj (same.symm.trans ended)
  rw [left_eq] at ended_last
  have report_eq : (runFrames files options).1 = .ok (.ok report) := by
    rw [eq_ok_of_mem_toOption seen, eq_ok_of_mem_toOption ran_eq]
  have wanted : options.stateOut? = some "lamp.json" := rfl
  obtain ⟨reported, found, _, loaded, _⟩ := (execute_stateOut wanted ended).1 exit (by
    rw [report_eq]
    rfl)
  have reported_eq : reported = report :=
    Except.ok.inj (Except.ok.inj (found.symm.trans report_eq))
  rw [named, reported_eq, script, entries] at loaded
  have wanted_again : lost.stateOut? = some "lamp.json" := rfl
  have fails : last.exitCode ≠ 0 := by
    rw [exit_last]
    exact Nat.one_ne_zero
  refine ⟨left, last, ended, loaded, ended_last, exit_last, ?_⟩
  exact (execute_stateOut wanted_again ended_last).2.1 fails fun _ _ _ nowhere => nomatch nowhere

/-- A lamp leaves the program when it wakes up, with the exit code of success, and there is no state
file. The report of another lamp cannot be printed, so the run fails, but its state is saved. -/
theorem unsaved_of_exit :
    let options : RunOptions := { script := "lamp.lua", stateOut? := some "lamp.json" }
    (let source := "#Awake\nfunction go() os.exit(0) end"
      let files : FileTree := ⟨[], [(["lamp.lua"], .file source.toUTF8)]⟩
      ∃ after ∈ execute none files (.run options), after.exitCode = 0
        ∧ (SavedState.load after.files "lamp.json" "lamp").isOk = false)
      ∧ (let source := "#Serialize lit\nlit = true"
        let files : FileTree := ⟨[], [(["lamp.lua"], .file source.toUTF8)]⟩
        ∃ after ∈ execute (some 0) files (.run options), after.exitCode ≠ 0
          ∧ files.readText? "lamp.json" = none
          ∧ (after.files.readText? "lamp.json").isSome = true) := by
  decide +kernel

end

end CommandLine

end ScriptHost
