import ScriptHost.Proofs.Component.Recovery

/-!
# The stations of a script

A script that is live is told things by its component, and is replaced by a fresh one when it
reloads, which is given its variables. As long as the builds go well and no edit waits, the stations
that it passes are known beforehand, whatever its functions do.

* `Station`, `Instance.leave`, `Instance.way` : the stations of a script, and what happens at them.
* `Component.Lives` : a component with a live script, whose builds go well.
* `Component.Action.Passes` : the operations that an action does, and the stations that the live
  script passes meanwhile.
* `Component.passes_update`, `Component.passes_notifySourceModified`, … : the stations of the
  operations.
-/

namespace ScriptHost

/-- What happens to a script at one point of its life. -/
inductive Station where
  /-- Its functions with a tag are called. -/
  | told (tag : String)
  /-- It is given the variables that wait, of which there are none. -/
  | resumed
  /-- Its variables are captured, and a fresh script is given them. -/
  | renewed
  /-- Its variables are captured. -/
  | ended
  deriving DecidableEq

namespace Instance

/-- An instance after its functions with a tag were called. -/
def told (inst : Instance) (editor : Bool) (tag : String) : Instance :=
  { ((Component.broadcast editor tag []).run inst).2 with journal := [] }

/-- The variables that are captured from an instance. -/
def captures (inst : Instance) : Snapshot := (capture.run inst).1

end Instance

namespace Station

/-- The tag of the functions that are called. -/
def tag? : Station → Option String
  | told tag => some tag
  | resumed | renewed | ended => none

/-- The instance after a station; `fresh` is what a build gives. -/
def leave (editor : Bool) (fresh inst : Instance) : Station → Instance
  | told tag => inst.told editor tag
  | renewed => fresh.given inst.captures
  | resumed | ended => inst

/-- What happens to instances at a station. -/
def happenings (fresh inst : Instance) : Station → List Happening
  | told tag => [.told inst tag []]
  | resumed => [.restored inst []]
  | renewed => [.captured inst inst.captures, .restored fresh inst.captures]
  | ended => [.captured inst inst.captures]

end Station

namespace Instance

/-- The instance after some stations. -/
def leave (inst : Instance) (editor : Bool) (fresh : Instance) (road : List Station) : Instance :=
  road.foldl (Station.leave editor fresh) inst

/-- What happens to instances at some stations. -/
def way (inst : Instance) (editor : Bool) (fresh : Instance) : List Station → List Happening
  | [] => []
  | station :: road =>
    station.happenings fresh inst ++ way (station.leave editor fresh inst) editor fresh road

variable {editor : Bool} {fresh : Instance}

theorem leave_append (inst : Instance) (road more : List Station) :
    inst.leave editor fresh (road ++ more) = (inst.leave editor fresh road).leave editor fresh more :=
  List.foldl_append

theorem way_append (inst : Instance) (road more : List Station) :
    inst.way editor fresh (road ++ more)
      = inst.way editor fresh road ++ (inst.leave editor fresh road).way editor fresh more := by
  induction road generalizing inst with
  | nil => rfl
  | cons station road ih =>
    rw [List.cons_append, way, ih, way, List.append_assoc]
    rfl

end Instance

/-! ## Calls -/

/-- The tag of the functions that are called. -/
def Event.tag? : Event → Option String
  | .broadcast _ tag => some tag
  | _ => none

theorem tags_calls_told (editor : Bool) (inst : Instance) (tag : String) :
    ((Happening.told inst tag []).calls editor).filterMap Event.tag? = [tag] := by
  have none_told (functions : List String) (arity : Nat) :
      (inst.invocations arity functions).filterMap Event.tag? = [] := by
    refine List.filterMap_eq_nil_iff.2 fun event m => ?_
    obtain ⟨name, _, rfl⟩ := List.mem_map.1 m
    rfl
  unfold Happening.calls
  rw [List.filterMap_cons, none_told]
  rfl

/-- The calls at some stations are those with the tags of the stations. -/
theorem tags_calls_way (editor : Bool) (fresh inst : Instance) (road : List Station) :
    ((inst.way editor fresh road).flatMap (Happening.calls editor)).filterMap Event.tag?
      = road.filterMap Station.tag? := by
  induction road generalizing inst with
  | nil => rfl
  | cons station road ih =>
    rw [Instance.way, List.flatMap_append, List.filterMap_append, ih]
    cases station with
    | told tag =>
      rw [Station.happenings, List.flatMap_singleton, tags_calls_told]
      rfl
    | resumed | renewed | ended => rfl

namespace Component

variable {α β : Type} {files : FileTree} {editor : Bool} {fresh inst : Instance}
  {component : Component}

/-! ## Operations in a row -/

/-- Some operations with the same files. -/
def steps (files : FileTree) (operations : List Operation) : List (FileTree × Operation) :=
  operations.map (files, ·)

theorem steps_append (files : FileTree) (operations later : List Operation) :
    steps files (operations ++ later) = steps files operations ++ steps files later :=
  List.map_append

theorem run_append (component : Component) (first second : List (FileTree × Operation)) :
    run component (first ++ second) = run (run component first) second :=
  List.foldl_append

theorem history_append (component : Component) (first second : List (FileTree × Operation)) :
    history component (first ++ second)
      = history component first ++ history (run component first) second := by
  induction first generalizing component with
  | nil => rfl
  | cons step first ih =>
    rw [List.cons_append, history, ih, history, List.append_assoc]
    rfl

/-! ## Live scripts -/

/-- An instance is live in a component whose builds give `fresh`, and nothing waits. -/
structure Lives (files : FileTree) (editor : Bool) (fresh : Instance) (component : Component)
    (inst : Instance) : Prop where
  live : component.live? = some inst
  taken : inst.journal = []
  built : rebuilt files component.config component.bindings component.host = .ok fresh
  isEditor_eq : component.config.isEditor = editor
  settled : component.pendingReload? = none
  given : component.snapshot = []

/-- From a component, an action does what some operations do one after the other, and meanwhile an
instance passes some stations. The action gives a result with the property, and the instance that it
leaves is live. -/
def Action.Leads (files : FileTree) (editor : Bool) (fresh : Instance) (component : Component)
    (inst : Instance) (action : Action α) (operations : List Operation) (road : List Station)
    (gives : α → Prop) : Prop :=
  action.Yields files component fun result other =>
    gives result ∧ other = run component (steps files operations)
      ∧ history component (steps files operations) = inst.way editor fresh road
      ∧ Lives files editor fresh other (inst.leave editor fresh road)

/-- The same from every component that the instance lives in. -/
def Action.Passes (files : FileTree) (editor : Bool) (fresh : Instance) (action : Action α)
    (operations : List Operation) (road : List Station) (gives : α → Prop) : Prop :=
  ∀ component inst, Lives files editor fresh component inst →
    action.Leads files editor fresh component inst operations road gives

theorem leads_bind {action : Action α} {next : α → Action β} {operations later : List Operation}
    {road more : List Station} {gives : α → Prop} {gives_next : β → Prop}
    (h : action.Leads files editor fresh component inst operations road gives)
    (k : ∀ a, gives a → (next a).Passes files editor fresh later more gives_next) :
    (action >>= next).Leads files editor fresh component inst (operations ++ later) (road ++ more)
      gives_next := by
  refine yields_bind (h.mono ?_)
  rintro a other ⟨given, rfl, happened, lives_other⟩
  refine (k a given _ _ lives_other).mono ?_
  rintro b last ⟨given_next, rfl, happened_next, lives_last⟩
  rw [steps_append, run_append, history_append, happened, happened_next, Instance.leave_append,
    Instance.way_append]
  exact ⟨given_next, rfl, rfl, lives_last⟩

theorem passes_pure {a : α} {gives : α → Prop} (h : gives a) :
    (pure a : Action α).Passes files editor fresh [] [] gives :=
  fun _ _ lives => yields_pure ⟨h, rfl, rfl, lives⟩

theorem passes_bind {action : Action α} {next : α → Action β} {operations later : List Operation}
    {road more : List Station} {gives : α → Prop} {gives_next : β → Prop}
    (h : action.Passes files editor fresh operations road gives)
    (k : ∀ a, gives a → (next a).Passes files editor fresh later more gives_next) :
    (action >>= next).Passes files editor fresh (operations ++ later) (road ++ more)
      gives_next :=
  fun component inst lives => leads_bind (h component inst lives) k

/-- One operation is an operation in a row. -/
theorem passes_operation {action : Action α} {operation : Operation} {road : List Station}
    {gives : α → Prop}
    (same : ∀ component, action.after files component = operation.after files component)
    (h : ∀ component inst, Lives files editor fresh component inst →
      gives (action.result files component)
        ∧ operation.history files component = inst.way editor fresh road
        ∧ Lives files editor fresh (operation.after files component)
          (inst.leave editor fresh road)) :
    action.Passes files editor fresh [operation] road gives := by
  intro component inst lives
  obtain ⟨given, happened, lives_after⟩ := h component inst lives
  rw [← same] at lives_after
  exact ⟨given, same component, (List.append_nil _).trans happened, lives_after⟩

/-! ## The stations of the operations -/

/-- Telling a live script something changes it and the journal only. -/
theorem yields_dispatchEvent_live (files : FileTree) (live : component.live? = some inst)
    (tag : String) :
    (dispatchEvent tag).Yields files component fun _ other => ∃ journal, other
      = { component with live? := some (inst.told component.config.isEditor tag), journal } := by
  refine yields_bind (yields_get (yields_bind (yields_bind (yields_get ?_))))
  rw [live]
  exact yields_bind (yields_onInstance (yields_bind (yields_modify (yields_pure ⟨_, rfl⟩))))

theorem tellings_live (live : component.live? = some inst) (tag : String) :
    tellings tag [] component = [.told inst tag []] := by
  unfold tellings
  rw [live]
  rfl

/-- A live script that is told something lives on. -/
theorem Lives.dispatchEvent (lives : Lives files editor fresh component inst) (tag : String) :
    Lives files editor fresh ((dispatchEvent tag).after files component)
      (inst.told editor tag) := by
  obtain ⟨journal, after⟩ := yields_dispatchEvent_live files lives.live tag
  rw [after, lives.isEditor_eq]
  exact ⟨rfl, rfl, lives.built, lives.isEditor_eq, lives.settled, lives.given⟩

theorem passes_start :
    start.Passes files editor fresh [.start] [.told startTag] fun _ => True :=
  passes_operation (fun _ => rfl) fun _ _ lives =>
    ⟨trivial, tellings_live lives.live startTag, lives.dispatchEvent startTag⟩

theorem passes_fixedUpdate :
    fixedUpdate.Passes files editor fresh [.fixedUpdate] [.told fixedUpdateTag] fun _ => True :=
  passes_operation (fun _ => rfl) fun _ _ lives =>
    ⟨trivial, tellings_live lives.live fixedUpdateTag, lives.dispatchEvent fixedUpdateTag⟩

/-- Unless a reload that was due has failed, an update tells the script that time has passed. -/
theorem update_of_advanced {delta : Nat}
    (advanced : (advancePending delta).result files component = .ok ()) :
    (update delta).result files component = .ok ()
      ∧ (update delta).after files component
        = (dispatchEvent updateTag).after files ((advancePending delta).after files component)
      ∧ Operation.history files component (.update delta)
        = advancings files component
          ++ tellings updateTag [] ((advancePending delta).after files component) := by
  have updated : (update delta).Yields files component fun result other =>
      result = .ok ()
        ∧ other
          = (dispatchEvent updateTag).after files ((advancePending delta).after files component) := by
    refine yields_bind (yields_of_eq fun given other given_eq other_eq => ?_)
    rw [← given_eq, ← other_eq, advanced]
    exact yields_bind ⟨rfl, rfl⟩
  refine ⟨updated.1, updated.2, ?_⟩
  rw [Operation.history, advanced]

/-- As no edit waits, time that passes does not make the script reload. -/
theorem passes_update (delta : Nat) :
    (update delta).Passes files editor fresh [.update delta] [.told updateTag] (· = .ok ()) := by
  refine passes_operation (fun _ => rfl) fun component inst lives => ?_
  have advanced : (advancePending delta).Yields files component fun result other =>
      result = .ok () ∧ other = component := by
    refine yields_bind (yields_get ?_)
    rw [lives.settled]
    exact yields_pure ⟨rfl, rfl⟩
  have quiet : advancings files component = [] := by
    unfold advancings
    rw [lives.settled]
  obtain ⟨result, after, happened⟩ := update_of_advanced advanced.1
  rw [advanced.2] at after happened
  refine ⟨result, ?_, ?_⟩
  · rw [happened, quiet, tellings_live lives.live updateTag]
    rfl
  · show Lives _ _ _ ((update delta).after files component) _
    rw [after]
    exact lives.dispatchEvent updateTag

/-- A live script that is given no variables is the same afterwards. -/
theorem yields_restore_nothing (lives : Lives files editor fresh component inst) :
    restore.Yields files component fun _ other =>
      ∃ journal, other = { component with live? := some inst, snapshot := [], journal } := by
  have untouched : { ((Instance.restoreVariables []).run inst).2 with journal := [] } = inst := by
    show ({ inst with journal := [] } : Instance) = inst
    rw [← lives.taken]
  refine yields_bind (yields_get ?_)
  rw [lives.live, lives.given]
  refine yields_bind (yields_modify (yields_bind (yields_onInstance ?_)))
  refine yields_bind (yields_modify (yields_note ?_))
  rw [untouched]
  exact ⟨_, rfl⟩

theorem passes_enable :
    enable.Passes files editor fresh [.enable] [.resumed, .told enableTag] (· = .ok ()) := by
  refine passes_operation (fun _ => rfl) fun component inst lives => ?_
  have awake : ensureLive.Yields files component fun result other =>
      result = .ok () ∧ other = component := by
    refine yields_bind (yields_get ?_)
    rw [isActive_of_live lives.live]
    exact yields_pure ⟨rfl, rfl⟩
  obtain ⟨result, after⟩ := awake
  obtain ⟨journal, restored⟩ := yields_restore_nothing lives
  let resumed : Component := { component with live? := some inst, snapshot := [], journal }
  have restored_eq : restore.after files component = resumed := restored
  have lives_resumed : Lives files editor fresh resumed inst :=
    ⟨rfl, lives.taken, lives.built, lives.isEditor_eq, lives.settled, rfl⟩
  have enabled : enable.Yields files component fun result other =>
      result = .ok () ∧ other = (dispatchEvent enableTag).after files resumed := by
    refine yields_bind (yields_of_eq fun given other given_eq other_eq => ?_)
    rw [← given_eq, ← other_eq, result, after]
    refine yields_bind (yields_of_eq fun _ other _ other_eq => ?_)
    rw [← other_eq, restored_eq]
    refine yields_bind ?_
    exact ⟨rfl, rfl⟩
  have happened : enablings files component = [.restored inst [], .told inst enableTag []] := by
    have given : restorings component = [.restored inst []] := by
      unfold restorings
      rw [lives.live, lives.given]
      rfl
    unfold enablings
    rw [result, after]
    dsimp only
    rw [given, restored_eq, tellings_live lives_resumed.live]
    rfl
  refine ⟨enabled.1, happened, ?_⟩
  show Lives _ _ _ (enable.after files component) _
  rw [enabled.2]
  exact lives_resumed.dispatchEvent enableTag

/-! ## Reloads that go well -/

/-- A live script whose component can be built is torn down on a reload, and a fresh one is given its
last variables before it is told that it is on. -/
theorem yields_reload_building (live : component.live? = some inst)
    (built : rebuilt files component.config component.bindings component.host = .ok fresh) :
    reloadings files component
        = [.told inst disableTag [], .captured (component.toldOff inst) (component.lastVariables inst),
          .restored fresh (component.lastVariables inst),
          .told (fresh.given (component.lastVariables inst)) enableTag []]
      ∧ reload.Yields files component fun result other => result = .ok () ∧ ∃ journal, other
        = { component with
            live? := some ((fresh.given (component.lastVariables inst)).told
              component.config.isEditor enableTag)
            snapshot := []
            exposed := exposedVariables fresh.tags.tags
            journal } := by
  let noted := { component with journal := .reloading component.config.name :: component.journal }
  have live_noted : noted.live? = some inst := live
  obtain ⟨journal, torn⟩ := yields_disable_live files live_noted
  let off : Component :=
    { component with live? := none, snapshot := component.lastVariables inst, journal }
  have torn_off : disable.after files noted = off := torn
  have idle : off.live? = none := rfl
  have built_off : rebuilt files off.config off.bindings off.host = .ok fresh := built
  constructor
  · show tearings noted ++ enablings files (disable.after files noted) = _
    rw [tearings_live live_noted, torn_off, enablings_idle idle built_off]
    rfl
  · have enabled : enable.Yields files off fun result other => result = .ok () ∧ ∃ journal, other
        = { component with
            live? := some ((fresh.given (component.lastVariables inst)).told
              component.config.isEditor enableTag)
            snapshot := []
            exposed := exposedVariables fresh.tags.tags
            journal } := by
      refine (yields_enable_idle idle built_off).mono ?_
      rintro result last ⟨rfl, first, rfl⟩
      have live_opened : (off.opened fresh first).live?
          = some (fresh.given (component.lastVariables inst)) := rfl
      obtain ⟨second, told⟩ := yields_dispatchEvent_live files live_opened enableTag
      rw [told]
      exact ⟨rfl, second, rfl⟩
    refine yields_bind (yields_get (yields_bind (yields_note (yields_bind ?_))))
    refine yields_of_eq fun _ other _ after_eq => ?_
    have other_eq : other = off := after_eq.symm.trans torn_off
    rw [other_eq]
    exact enabled

theorem passes_notifySourceModified :
    notifySourceModified.Passes files editor fresh [.notifySourceModified]
      [.told disableTag, .renewed, .told enableTag] (· = .ok ()) := by
  refine passes_operation (fun _ => rfl) fun component inst lives => ?_
  have active := isActive_of_live lives.live
  obtain ⟨happened, ok, journal, after⟩ := yields_reload_building lives.live lives.built
  have off : component.toldOff inst = inst.told editor disableTag := by
    rw [← lives.isEditor_eq]
    rfl
  have last : component.lastVariables inst = (inst.told editor disableTag).captures := by
    rw [← off]
    rfl
  have notified : notifySourceModified.Yields files component fun result other =>
      result = .ok () ∧ other = reload.after files component := by
    refine yields_bind (yields_get ?_)
    rw [active]
    exact ⟨ok, rfl⟩
  refine ⟨notified.1, ?_, ?_⟩
  · show (if component.isActive then reloadings files component else []) = _
    rw [active, if_pos rfl, happened, off, last]
    rfl
  · have road : inst.leave editor fresh [.told disableTag, .renewed, .told enableTag]
        = (fresh.given (inst.told editor disableTag).captures).told editor enableTag := by
      simp only [Instance.leave, List.foldl_cons, List.foldl_nil, Station.leave]
    have after_eq : Operation.notifySourceModified.after files component
        = reload.after files component := notified.2
    rw [road, after_eq, after, last, lives.isEditor_eq]
    exact ⟨rfl, rfl, lives.built, lives.isEditor_eq, lives.settled, rfl⟩

end Component

end ScriptHost
