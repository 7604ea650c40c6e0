import ScriptHost.Proofs.CommandLine.Endings
import ScriptHost.Proofs.Component.Stations

/-!
# The life of a script in a run

A run takes a script through all stations of its life. Which they are hangs on the number of frames
and on the frame after which it reloads, and on nothing that its functions do.

* `lifeOperations`, `lifeStations` : the operations of a run, and the stations of its script.
* `passes_driveFrames` : the stations of some frames, by induction on their number.
* `yields_drive` : the stations of a whole life.
* `runReport_eq` : what a run reports, and what happens to its script, if it ends.
* `runFrames_life` : what is seen of a run.
-/

namespace ScriptHost.CommandLine

open Component

/-! ## Stations -/

/-- The operations of a frame; `reloads` says whether the script reloads after it. -/
def frameOperations (reloads : Bool) : List Operation :=
  [.update frameDelta, .fixedUpdate] ++ if reloads then [.notifySourceModified] else []

/-- The stations of a frame. -/
def frameStations (reloads : Bool) : List Station :=
  [.told updateTag, .told fixedUpdateTag]
    ++ if reloads then [.told disableTag, .renewed, .told enableTag] else []

/-- The operations of a run. -/
def lifeOperations (frames : Nat) (reloadAt? : Option Nat) : List Operation :=
  [.awake, .enable, .start]
    ++ (List.range frames).flatMap (fun frame => frameOperations (reloadAt? == some frame))
    ++ [.disable]

/-- The stations of a run. -/
def lifeStations (frames : Nat) (reloadAt? : Option Nat) : List Station :=
  [.told awakeTag, .resumed, .told enableTag, .told startTag]
    ++ (List.range frames).flatMap (fun frame => frameStations (reloadAt? == some frame))
    ++ [.told disableTag, .ended]

section

variable {files : FileTree} {editor : Bool} {fresh : Instance}

/-! ## Frames -/

theorem passes_driveFrame (reloads : Bool) :
    (driveFrame reloads).Passes files editor fresh (frameOperations reloads)
      (frameStations reloads) (· = .ok ()) := by
  show (driveFrame reloads).Passes files editor fresh
    ([.update frameDelta] ++ ([.fixedUpdate] ++ _))
    ([.told updateTag] ++ ([.told fixedUpdateTag] ++ _)) _
  refine passes_bind (passes_update frameDelta) ?_
  rintro _ rfl
  refine passes_bind passes_fixedUpdate fun _ _ => ?_
  cases reloads with
  | false => exact passes_pure rfl
  | true => exact passes_notifySourceModified

/-- The frames are passed one after the other, and the reloads among them are counted. -/
theorem passes_driveFrames (reloadAt? : Option Nat) (reloads first count : Nat) :
    (driveFrames reloadAt? reloads first count).Passes files editor fresh
      ((List.range' first count).flatMap fun frame => frameOperations (reloadAt? == some frame))
      ((List.range' first count).flatMap fun frame => frameStations (reloadAt? == some frame))
      (· = .ok (reloads
        + (List.range' first count).countP fun frame => reloadAt? == some frame)) := by
  induction count generalizing reloads first with
  | zero => exact passes_pure rfl
  | succ count ih =>
    rw [List.range'_succ, List.flatMap_cons, List.flatMap_cons, List.countP_cons]
    refine passes_bind (passes_driveFrame _) ?_
    rintro _ rfl
    have rest := ih (if reloadAt? == some first then reloads + 1 else reloads) (first + 1)
    have counted : (if reloadAt? == some first then reloads + 1 else reloads)
          + (List.range' (first + 1) count).countP (fun frame => reloadAt? == some frame)
        = reloads + ((List.range' (first + 1) count).countP (fun frame => reloadAt? == some frame)
          + if reloadAt? == some first then 1 else 0) := by
      split <;> omega
    rw [counted] at rest
    exact rest

/-- At most one of the frames is the one after which the script reloads. -/
theorem countP_reloads (reloadAt? : Option Nat) (frames : Nat) :
    (List.range frames).countP (fun frame => reloadAt? == some frame)
      = if reloadAt?.any (· < frames) then 1 else 0 := by
  cases reloadAt? with
  | none =>
    have none_counts : (List.range frames).countP (fun frame => none == some frame) = 0 :=
      List.countP_eq_zero.2 fun _ _ => Bool.false_ne_true
    exact none_counts
  | some reload =>
    have counts : (List.range frames).countP (fun frame => some reload == some frame)
        = (List.range frames).count reload := by
      refine List.countP_congr fun frame _ => ?_
      rw [beq_iff_eq, beq_iff_eq, Option.some.injEq]
      exact eq_comm
    rw [counts, List.nodup_range.count]
    simp

/-! ## A whole life -/

/-- A component without a script wakes up: a script is built and told so. -/
theorem leads_awake {component : Component} (idle : component.live? = none)
    (built : rebuilt files component.config component.bindings component.host = .ok fresh)
    (isEditor_eq : component.config.isEditor = editor) (settled : component.pendingReload? = none)
    (given : component.snapshot = []) :
    awake.Leads files editor fresh component fresh [.awake] [.told awakeTag] (· = .ok ()) := by
  have tidy : component.Tidy := by
    intro inst live
    rw [idle] at live
    cases live
  have records : Records component [] (ensureLive.after files component) :=
    records_ensureLive files tidy
  have made := yields_ensureLive_idle files idle
  rw [built] at made
  obtain ⟨ok, journal, after⟩ := made
  have lives : Lives files editor fresh (ensureLive.after files component) fresh := by
    have taken := records.tidy fresh (by rw [after])
    rw [after]
    exact ⟨rfl, taken, built, isEditor_eq, settled, given⟩
  have told : awake.Yields files component fun result other =>
      result = .ok ()
        ∧ other = (dispatchEvent awakeTag).after files (ensureLive.after files component) := by
    refine yields_bind (yields_of_eq fun result other result_eq other_eq => ?_)
    rw [← result_eq, ok, ← other_eq]
    refine yields_bind ?_
    exact ⟨rfl, rfl⟩
  refine ⟨told.1, rfl, ?_, ?_⟩
  · show Operation.history files component .awake ++ [] = _
    rw [List.append_nil, Operation.history, ok]
    dsimp only
    rw [tellings_live lives.live]
    rfl
  · rw [told.2]
    exact lives.dispatchEvent awakeTag

theorem leads_startUp {component : Component} (idle : component.live? = none)
    (built : rebuilt files component.config component.bindings component.host = .ok fresh)
    (isEditor_eq : component.config.isEditor = editor) (settled : component.pendingReload? = none)
    (given : component.snapshot = []) :
    startUp.Leads files editor fresh component fresh [.awake, .enable, .start]
      [.told awakeTag, .resumed, .told enableTag, .told startTag] (· = .ok ()) := by
  show startUp.Leads files editor fresh component fresh ([.awake] ++ ([.enable] ++ [.start]))
    ([.told awakeTag] ++ ([.resumed, .told enableTag] ++ [.told startTag])) _
  refine leads_bind (leads_awake idle built isEditor_eq settled given) ?_
  rintro _ rfl
  refine passes_bind passes_enable ?_
  rintro _ rfl
  exact passes_bind passes_start fun _ _ => passes_pure rfl

/-- Telling a live script that it is off and tearing it down is the end of its life. -/
theorem yields_disable_lives {component : Component} {inst : Instance}
    (lives : Lives files editor fresh component inst) :
    disable.Yields files component fun _ other =>
      other.live? = none ∧ other.snapshot = (inst.told editor disableTag).captures
        ∧ Operation.history files component .disable
          = inst.way editor fresh [.told disableTag, .ended] := by
  obtain ⟨journal, torn⟩ := yields_disable_live files lives.live
  have off : component.toldOff inst = inst.told editor disableTag := by
    rw [← lives.isEditor_eq]
    rfl
  have last : component.lastVariables inst = (inst.told editor disableTag).captures := by
    rw [← off]
    rfl
  refine ⟨?_, ?_, ?_⟩
  · rw [torn]
  · rw [torn]
    exact last
  · rw [Operation.history, tearings_live lives.live, off, last]
    rfl

/-- A whole life goes well. The operations are those of a run, and the script passes the stations of
a run. -/
theorem yields_drive {component : Component} (idle : component.live? = none)
    (built : rebuilt files component.config component.bindings component.host = .ok fresh)
    (isEditor_eq : component.config.isEditor = editor) (settled : component.pendingReload? = none)
    (given : component.snapshot = []) (frames : Nat) (reloadAt? : Option Nat) :
    (drive frames reloadAt?).Yields files component fun result other =>
      result = .ok (if reloadAt?.any (· < frames) then 1 else 0)
        ∧ other = Component.run component (steps files (lifeOperations frames reloadAt?))
        ∧ history component (steps files (lifeOperations frames reloadAt?))
          = fresh.way editor fresh (lifeStations frames reloadAt?)
        ∧ other.live? = none
        ∧ other.snapshot
          = (fresh.leave editor fresh (lifeStations frames reloadAt?)).captures := by
  have started := leads_startUp idle built isEditor_eq settled given
  refine yields_bind (started.mono ?_)
  rintro _ other ⟨rfl, rfl, happened, lives⟩
  refine yields_bind ((passes_driveFrames reloadAt? 0 0 frames _ _ lives).mono ?_)
  rw [← List.range_eq_range', countP_reloads, Nat.zero_add]
  rintro _ later ⟨rfl, rfl, happened_later, lives_later⟩
  obtain ⟨torn, captured, off⟩ := yields_disable_lives lives_later
  refine yields_bind (yields_of_eq fun _ last _ last_eq => yields_pure ?_)
  rw [← last_eq]
  refine ⟨rfl, ?_, ?_, torn, ?_⟩
  · rw [lifeOperations, steps_append, steps_append, run_append, run_append]
    rfl
  · rw [lifeOperations, lifeStations, steps_append, steps_append, history_append, history_append,
      Instance.way_append, Instance.way_append, run_append, happened, happened_later,
      Instance.leave_append, ← off]
    exact congrArg _ (List.append_nil _)
  · rw [captured, lifeStations, Instance.leave_append, Instance.leave_append]
    rfl

end

/-! ## Runs -/

/-- The component that a run drives, and the name of its script. -/
def prepare (files : FileTree) (options : RunOptions) : Except Failure (Component × String) := do
  let script ← loadScript files options.script
  let (entries, journal) ← initialEntries files script options.stateIn?
  let component : Component :=
    { config := runConfig options script, host := hostFunctions
      snapshot := entries.map .encoded, journal }
  return (component, script.name)

section

variable {files : FileTree} {options : RunOptions}

theorem runReport_of_prepare_error {failure : Failure}
    (failed : prepare files options = .error failure) :
    runReport files options = (.error failure, []) := by
  unfold prepare at failed
  unfold runReport
  rw [failed]

/-- A run drives the component that it prepares, lets it go and reports what was captured. -/
theorem runReport_of_prepare_ok {component : Component} {name : String}
    (prepared : prepare files options = .ok (component, name)) :
    let driven := (drive options.frames options.reloadAt?).after files component
    let left := Component.drop.after files driven
    runReport files options
      = (match (drive options.frames options.reloadAt?).result files component with
        | .error error => .error (.ofScript error)
        | .ok reloads => .ok ⟨name, options.frames, reloads, left.snapshot.encoded⟩,
          left.journal) := by
  intro driven left
  unfold prepare at prepared
  unfold runReport
  rw [prepared]
  dsimp only
  have ran : (drive options.frames options.reloadAt?).run files component
      = ((drive options.frames options.reloadAt?).result files component, driven) := rfl
  have dropped : Component.drop.run files driven = ((), left) := rfl
  rw [ran]
  dsimp only
  rw [dropped]
  cases (drive options.frames options.reloadAt?).result files component <;> rfl

/-- A component without a live script has nothing to let go. -/
theorem drop_of_idle {component : Component} (asleep : component.live? = none) :
    Component.drop.after files component = component := by
  show Component.drop.Yields files component fun _ other => other = component
  refine yields_bind (yields_get ?_)
  rw [asleep]
  exact yields_pure rfl

end

section

variable {files : FileTree} {options : RunOptions} {script : LoadedScript} {first : Instance}

theorem isEditor_runConfig (options : RunOptions) (script : LoadedScript) :
    (runConfig options script).isEditor = options.editor := by
  unfold runConfig Config.isEditor
  cases options.editor <;> rfl

/-- A script is read from the absolute form of its path, which also gives its name. What fails is one
of the steps to its text. -/
theorem loadScript_cases (files : FileTree) (path : String) :
    (∃ source, loadScript files path
          = .ok ⟨scriptName (absolutePath files path), absolutePath files path, source⟩
        ∧ files.readText? (absolutePath files path) = some source)
      ∨ ∃ failure, loadScript files path = .error failure
        ∧ failure.code ∈ ["CLI_SOURCE_NOT_FOUND", "CLI_SOURCE_NOT_FILE", "CLI_SOURCE_READ"] := by
  unfold loadScript existingPath
  by_cases there : files.contains (absolutePath files path)
  · simp only [there, if_true, Bind.bind, Except.bind]
    split
    · exact .inr ⟨_, rfl, by simp [Failure.code]⟩
    · split
      · next source read => exact .inl ⟨source, rfl, read⟩
      · exact .inr ⟨_, rfl, by simp [Failure.code]⟩
  · rw [if_neg there]
    exact .inr ⟨_, rfl, by simp [Failure.code]⟩

/-- A script that was read from a file can be read from its path again. -/
theorem readText?_of_loadScript {path : String} (found : loadScript files path = .ok script) :
    files.readText? script.path = some script.source := by
  rcases loadScript_cases files path with ⟨source, loaded, read⟩ | ⟨failure, failed, _⟩
  · rw [loaded] at found
    cases found
    exact read
  · rw [failed] at found
    cases found

/-- Without bindings and configured variables, a script whose text can be built is built from its
file. -/
theorem exists_rebuilt (read : files.readText? script.path = some script.source)
    (built : (Instance.build hostFunctions script.name script.source).1 = .ok first) :
    ∃ fresh, rebuilt files (runConfig options script) [] hostFunctions = .ok fresh := by
  have loaded : (runConfig options script).source.load files = .ok script.source := by
    unfold runConfig ScriptSource.load
    dsimp only
    rw [read]
  have built_named : (Instance.build hostFunctions (runConfig options script).name
      script.source).1 = .ok first := built
  have bound : ((setBindings []).run first).1 = .ok () := rfl
  unfold rebuilt
  simp only [loaded, built_named, bound, Bind.bind, Except.bind]
  exact ⟨_, rfl⟩

/-- A run of a script that can be built, and that starts from no saved variables, goes well as long
as the script does not end the program. Whatever the functions of the script do, and if they raise
errors, the stations stay. -/
theorem runReport_eq (found : loadScript files options.script = .ok script)
    (built : (Instance.build hostFunctions script.name script.source).1 = .ok first)
    (anew : options.stateIn? = none) :
    let start := idle (runConfig options script) hostFunctions
    let life := steps files (lifeOperations options.frames options.reloadAt?)
    let stations := lifeStations options.frames options.reloadAt?
    ∃ fresh, rebuilt files (runConfig options script) [] hostFunctions = .ok fresh
      ∧ runReport files options
        = (.ok
            { script := script.name
              frames := options.frames
              reloads := if options.reloadAt?.any (· < options.frames) then 1 else 0
              entries := (fresh.leave options.editor fresh stations).captures.encoded },
          (Component.run start life).journal)
      ∧ history start life = fresh.way options.editor fresh stations
      ∧ Event.calls (Component.run start life).journal
        = (fresh.way options.editor fresh stations).flatMap (Happening.calls options.editor) := by
  intro start life stations
  have made_any : ∃ fresh, rebuilt files (runConfig options script) [] hostFunctions = .ok fresh :=
    exists_rebuilt (readText?_of_loadScript found) built
  obtain ⟨fresh, made⟩ := made_any
  have asleep : start.live? = none := rfl
  have editor : start.config.isEditor = options.editor := isEditor_runConfig options script
  have made_start : rebuilt files start.config start.bindings start.host = .ok fresh := made
  obtain ⟨result, ran, happened, torn, captured⟩ :=
    yields_drive asleep made_start editor rfl rfl options.frames options.reloadAt?
  have prepared : prepare files options = .ok (start, script.name) := by
    unfold prepare
    rw [found, anew]
    rfl
  let last := (drive options.frames options.reloadAt?).after files start
  have reported := runReport_of_prepare_ok prepared
  dsimp only at reported
  rw [result, drop_of_idle torn] at reported
  dsimp only at reported
  have last_eq : last = Component.run start life := ran
  have way_eq : history start life = fresh.way options.editor fresh stations := happened
  have records : Records start (history start life) (Component.run start life) :=
    records_run (tidy_idle _ _) life
  have calls := records.calls_eq
  rw [way_eq, editor] at calls
  refine ⟨fresh, made, ?_, way_eq, calls⟩
  rw [reported, captured, ← last_eq]

/-- A run of a script that can be built, and that starts from no saved variables. When nothing in the
script's life ends the program, the run goes well. The script passes the stations of its life, each
in the state in which the one before left it, and at a reload what a build gives goes on with its
variables. The journal shows the calls, with the tags of the stations. The run reports whether there
was a reload, and the variables that the script has at the end. Whatever the functions of the script
do, and if they raise errors, the stations stay. When the script ends the program, it has been told
the first of the tags. -/
theorem runFrames_life (found : loadScript files options.script = .ok script)
    (built : (Instance.build hostFunctions script.name script.source).1 = .ok first)
    (anew : options.stateIn? = none) :
    let ran := runFrames files options
    let start := idle (runConfig options script) hostFunctions
    let life := steps files (lifeOperations options.frames options.reloadAt?)
    let lived := (Component.run start life).journal
    let stations := lifeStations options.frames options.reloadAt?
    ∃ fresh, rebuilt files (runConfig options script) [] hostFunctions = .ok fresh
      ∧ (Event.endingOf? lived = none →
        ran
          = (.ok (.ok
              { script := script.name
                frames := options.frames
                reloads := if options.reloadAt?.any (· < options.frames) then 1 else 0
                entries := (fresh.leave options.editor fresh stations).captures.encoded }),
            lived)
        ∧ history start life = fresh.way options.editor fresh stations
        ∧ Event.calls ran.2
          = (fresh.way options.editor fresh stations).flatMap (Happening.calls options.editor)
        ∧ (Event.calls ran.2).filterMap Event.tag? = stations.filterMap Station.tag?)
      ∧ (∀ ending, Event.endingOf? lived = some ending → ran.1 = .error ending)
      ∧ (Event.calls ran.2).filterMap Event.tag? <+: stations.filterMap Station.tag? := by
  intro ran start life lived stations
  obtain ⟨fresh, made, reported, way_eq, shown⟩ := runReport_eq found built anew
  have told : (Event.calls lived).filterMap Event.tag? = stations.filterMap Station.tag? := by
    rw [shown]
    exact tags_calls_way options.editor fresh fresh stations
  have journal_eq : (runReport files options).2 = lived := congrArg Prod.snd reported
  refine ⟨fresh, made, fun goes_on => ?_, fun ending ended => ?_, ?_⟩
  · have ran_eq : ran = (.ok (runReport files options).1, lived) := by
      rw [← journal_eq] at goes_on ⊢
      exact Event.watched_of_goes_on goes_on
    rw [ran_eq]
    exact ⟨by rw [reported], way_eq, shown, told⟩
  · rw [← journal_eq] at ended
    exact congrArg Prod.fst (Event.watched_of_ended ended)
  · rw [← told, ← journal_eq]
    exact (Event.calls_watched (runReport files options)).filterMap Event.tag?

/-- A lamp that is driven for two frames and reloads after the first, and whose functions raise
errors. -/
theorem runFrames_life_of_lamp :
    let source := "#Update\nfunction flicker() error('dark') end\n#OnDisable\nfunction off() fade() end"
    let files : FileTree := ⟨[], [(["lamp.lua"], .file source.toUTF8)]⟩
    let options : RunOptions := { script := "lamp.lua", frames := 2, reloadAt? := some 0 }
    (∃ entries, (runFrames files options).1 = .ok (.ok ⟨"lamp", 2, 1, entries⟩))
      ∧ (Event.calls (runFrames files options).2).filterMap Event.tag?
        = ["Awake", "OnEnable", "Start", "Update", "FixedUpdate", "OnDisable", "OnEnable",
          "Update", "FixedUpdate", "OnDisable"] := by
  intro source files options
  have readable : ∃ script, script ∈ (loadScript files options.script).toOption
      ∧ script.name = "lamp"
      ∧ (∃ first, first ∈ (Instance.build hostFunctions script.name script.source).1.toOption
        ∧ first.name = "lamp")
      ∧ Event.endingOf? (Component.run (idle (runConfig options script) hostFunctions)
          (steps files (lifeOperations options.frames options.reloadAt?))).journal = none := by
    decide +kernel
  obtain ⟨script, found, named, ⟨first, built, _⟩, goes_on⟩ := readable
  obtain ⟨fresh, _, comes_to, _⟩ := runFrames_life (eq_ok_of_mem_toOption found)
    (eq_ok_of_mem_toOption built) (rfl : options.stateIn? = none)
  obtain ⟨ran_eq, _, _, tags⟩ := comes_to goes_on
  rw [named] at ran_eq
  exact ⟨⟨_, congrArg Prod.fst ran_eq⟩, tags⟩

/-- A lamp that leaves the program in its first frame is told nothing more, and there is no report.
Another lamp has a number that is read back as its neighbour, so the variables that are restored on
a reload are not those that were captured. -/
theorem cut_of_exit :
    (let source := "#Update\nfunction flicker() os.exit(3) end"
      let files : FileTree := ⟨[], [(["lamp.lua"], .file source.toUTF8)]⟩
      let ran := runFrames files { script := "lamp.lua" }
      ran.1.isOk = false ∧ (Event.calls ran.2).filterMap Event.tag?
        = ["Awake", "OnEnable", "Start", "Update"])
      ∧ (let source := "#Serialize x\nx = 9007199254740991.0"
        let files : FileTree := ⟨[], [(["lamp.lua"], .file source.toUTF8)]⟩
        ∃ ran ∈ (runFrames files { script := "lamp.lua", reloadAt? := some 0 }).1.toOption,
          ∃ report ∈ ran.toOption,
            report.entries = [⟨"x", "lua.number", "9007199254740990.0"⟩]) := by
  decide +kernel

end

end ScriptHost.CommandLine
