import ScriptHost.Proofs.Component.Blind
import ScriptHost.Proofs.Component.Edits
import ScriptHost.Proofs.Component.History

/-!
# What becomes of captured variables

The variables that a component holds wait for an instance. They are given to the first one that is
enabled, unless an instance is torn down before: then its variables take their place, and nothing
that follows depends on those that were there.

* `Happening.exchanges` : variables are given to an instance, or taken from one.
* `Component.Fate` : what becomes of the variables that wait.
* `Component.fate_after`, `Component.fate_run` : their fate in an operation and in a run.
* `Component.waiting_run` : variables wait, or are given to an instance, or are lost.
-/

namespace ScriptHost

/-- Whether variables are given to an instance or taken from one. -/
def Happening.exchanges : Happening → Bool
  | restored .. | captured .. => true
  | told .. | asked .. => false

namespace Component

variable {α β : Type}

/-! ## The fate of the variables -/

/-- What becomes of the variables that wait, when some things happen while a component takes a
step. -/
inductive Fate (component : Component) (happenings : List Happening)
    (step : Component → α × Component) : Prop
  /-- They go on waiting, and the step has nothing to do with them. -/
  | kept (none : happenings.find? Happening.exchanges = none)
      (blind : ∀ snapshot, step (component.holding snapshot)
        = ((step component).1, (step component).2.holding snapshot))
  /-- They are given to an instance. -/
  | given (target : Instance)
      (first : happenings.find? Happening.exchanges = some (.restored target component.snapshot))
  /-- The variables of an instance take their place. Where the step leads to has nothing to do with
  them. -/
  | lost (target : Instance) (taken : Snapshot)
      (first : happenings.find? Happening.exchanges = some (.captured target taken))
      (same : ∀ snapshot, step (component.holding snapshot) = step component)

/-- An action has a fate for the variables that wait. -/
def Action.Fated (action : Action α) (files : FileTree) (component : Component)
    (happenings : List Happening) : Prop :=
  Fate component happenings (action.run files).run

variable {component : Component} {happenings more : List Happening}

theorem Blind.fate {action : Action α} (h : Blind action)
    (none : happenings.find? Happening.exchanges = none) (files : FileTree) :
    action.Fated files component happenings := .kept none (h files component)

/-- When the variables go on waiting, they are the same afterwards. -/
theorem snapshot_of_blind {step : Component → α × Component}
    (blind : ∀ snapshot, step (component.holding snapshot)
      = ((step component).1, (step component).2.holding snapshot)) :
    (step component).2.snapshot = component.snapshot := by
  have same := congrArg (fun result => result.2.snapshot) (blind component.snapshot)
  exact same

/-- Of two steps in a row, the first that exchanges variables decides on their fate. -/
theorem Fate.bind {first : Component → α × Component} {second : α → Component → β × Component}
    (h : Fate component happenings first)
    (k : Fate (first component).2 more (second (first component).1)) :
    Fate component (happenings ++ more) fun other => second (first other).1 (first other).2 := by
  cases h with
  | kept none blind =>
    have waiting := snapshot_of_blind blind
    cases k with
    | kept none_more blind_more =>
      refine .kept ?_ fun snapshot => ?_
      · rw [List.find?_append, none, none_more]
        rfl
      · rw [blind]
        exact blind_more snapshot
    | given target given =>
      refine .given target ?_
      rw [List.find?_append, none, given, waiting]
      rfl
    | lost target taken lost same =>
      refine .lost target taken ?_ fun snapshot => ?_
      · rw [List.find?_append, none, lost]
        rfl
      · rw [blind]
        exact same snapshot
  | given target given =>
    refine .given target ?_
    rw [List.find?_append, given]
    rfl
  | lost target taken lost same =>
    refine .lost target taken ?_ fun snapshot => ?_
    · rw [List.find?_append, lost]
      rfl
    · rw [same]

/-- The fate depends on where the step leads from the component, with whatever variables. -/
theorem Fate.congr {step other : Component → α × Component} (h : Fate component happenings step)
    (same : ∀ snapshot, other (component.holding snapshot) = step (component.holding snapshot)) :
    Fate component happenings other := by
  have self : other component = step component := same component.snapshot
  cases h with
  | kept none blind =>
    refine .kept none fun snapshot => ?_
    rw [same, self, blind]
  | given target first => exact .given target first
  | lost target taken first lost =>
    refine .lost target taken first fun snapshot => ?_
    rw [same, self, lost]

section

variable (files : FileTree)

theorem fated_bind {action : Action α} {next : α → Action β}
    (h : action.Fated files component happenings)
    (k : (next (action.result files component)).Fated files (action.after files component) more) :
    (action >>= next).Fated files component (happenings ++ more) :=
  @Fate.bind _ _ _ _ _ (action.run files).run (fun a => ((next a).run files).run) h k

/-- What is looked at is not the variables. -/
theorem fated_get {next : Component → Action α}
    (same : ∀ snapshot, next (component.holding snapshot) = next component)
    (h : (next component).Fated files component happenings) :
    ((get : Action Component) >>= next).Fated files component happenings := by
  refine Fate.congr h fun snapshot => ?_
  show ((next (component.holding snapshot)).run files).run (component.holding snapshot) = _
  rw [same]

/-! ## Operations -/

theorem exchanges_tellings (tag : String) (arguments : List Value) (component : Component) :
    (tellings tag arguments component).find? Happening.exchanges = none := by
  unfold tellings
  cases component.live? <;> rfl

/-- A live instance is given the variables. -/
theorem fated_restore : restore.Fated files component (restorings component) := by
  unfold restorings
  cases live : component.live? with
  | none =>
    refine .kept rfl fun snapshot => ?_
    cases component
    cases live
    rfl
  | some inst => exact .given inst rfl

/-- The variables of a live instance take the place of those that wait. -/
theorem fated_disable : disable.Fated files component (tearings component) := by
  unfold tearings
  cases live : component.live? with
  | none =>
    refine .kept rfl fun snapshot => ?_
    cases component
    cases live
    rfl
  | some inst =>
    refine .lost _ _ rfl fun snapshot => ?_
    cases component
    cases live
    rfl

theorem fated_enable : enable.Fated files component (enablings files component) := by
  have built : ensureLive.Fated files component [] := blind_ensureLive.fate rfl files
  unfold enablings
  refine fated_bind files built ?_
  cases ensureLive.result files component with
  | error error => exact (Blind.pure _).fate rfl files
  | ok _ =>
    exact fated_bind files (fated_restore files)
      ((Blind.bind (blind_dispatch enableTag []) fun _ => .pure _).fate
        (exchanges_tellings _ _ _) files)

theorem fated_reload : reload.Fated files component (reloadings files component) := by
  have noted : (note (.reloading component.config.name)).Fated files component [] :=
    (Blind.note _).fate rfl files
  have rest : (do disable; enable).Fated files
      ((note (.reloading component.config.name)).after files component)
      (reloadings files component) :=
    fated_bind files (fated_disable files) (fated_enable files)
  have all : (do note (.reloading component.config.name); disable; enable).Fated files component
      (reloadings files component) :=
    @fated_bind _ _ component [] _ files _ (fun _ => do disable; enable) noted rest
  exact fated_get files (fun _ => rfl) all

theorem fated_advancePending (delta : Nat) :
    (advancePending delta).Fated files component (advancings files component) := by
  refine fated_get files (fun _ => rfl) ?_
  unfold advancings
  cases component.pendingReload? with
  | none => exact (Blind.pure _).fate rfl files
  | some remaining =>
    cases remaining with
    | zero =>
      have settled : (modify fun component => { component with pendingReload? := none } :
          Action Unit).Fated files component [] :=
        (Blind.modified fun _ _ => rfl).fate rfl files
      have rest : (if component.isActive then reload else return .ok ()).Fated files
          { component with pendingReload? := none }
          (if component.isActive then
            reloadings files { component with pendingReload? := none } else []) := by
        split
        · exact fated_reload files
        · exact (Blind.pure _).fate rfl files
      exact fated_bind files settled rest
    | succ remaining =>
      exact (Blind.bind (.modified fun _ _ => rfl) fun _ => .pure _).fate rfl files

theorem fated_update (delta : Nat) :
    (update delta).Fated files component
      (Operation.history files component (.update delta)) := by
  unfold Operation.history
  refine fated_bind files (fated_advancePending files delta) ?_
  cases (advancePending delta).result files component with
  | error error => exact (Blind.pure _).fate rfl files
  | ok _ =>
    exact (Blind.bind (blind_dispatch updateTag []) fun _ => .pure _).fate
      (exchanges_tellings _ _ _) files

theorem fated_notifySourceModified :
    notifySourceModified.Fated files component
      (Operation.history files component .notifySourceModified) := by
  refine fated_get files (fun _ => rfl) ?_
  unfold Operation.history
  dsimp only
  split
  · exact fated_reload files
  · exact (Blind.pure _).fate rfl files

/-- The result of a step has no part in the fate. -/
theorem Fate.forget {step : Component → α × Component} (h : Fate component happenings step) :
    Fate component happenings fun other => ((), (step other).2) := by
  cases h with
  | kept none blind =>
    refine .kept none fun snapshot => ?_
    rw [blind]
  | given target first => exact .given target first
  | lost target taken first same =>
    refine .lost target taken first fun snapshot => ?_
    rw [same]

/-- Every operation has a fate for the variables that wait, unless it brings others. -/
theorem fate_after {operation : Operation} (quiet : ∀ entries, operation ≠ .loadSnapshot entries) :
    Fate component (operation.history files component)
      fun other => ((), operation.after files other) := by
  cases operation with
  | awake =>
    refine (blind_awake.fate ?_ files).forget
    unfold Operation.history
    dsimp only
    split
    · rfl
    · exact exchanges_tellings _ _ _
  | enable => exact (fated_enable files).forget
  | start =>
    exact ((blind_dispatch startTag []).bind fun _ => .pure _).fate (exchanges_tellings _ _ _) files
      |>.forget
  | update delta => exact (fated_update files delta).forget
  | fixedUpdate =>
    exact ((blind_dispatch fixedUpdateTag []).bind fun _ => .pure _).fate
      (exchanges_tellings _ _ _) files |>.forget
  | disable => exact (fated_disable files).forget
  | reload => exact (fated_reload files).forget
  | setSourceText text => exact ((blind_setSourceText text).fate rfl files).forget
  | notifySourceModified => exact (fated_notifySourceModified files).forget
  | loadSnapshot entries => exact absurd rfl (quiet entries)
  | bind name value => exact .kept rfl fun _ => rfl
  | dispatch tag arguments =>
    exact ((blind_dispatch tag arguments).fate (exchanges_tellings _ _ _) files).forget
  | call name arguments =>
    refine ((blind_call name arguments).fate ?_ files).forget
    unfold Operation.history
    cases component.live? <;> rfl

end

/-- A run has a fate for the variables that wait. -/
theorem fate_run {steps : List (FileTree × Operation)}
    (quiet : ∀ step ∈ steps, ∀ entries, step.2 ≠ .loadSnapshot entries) :
    Fate component (history component steps) fun other => ((), run other steps) := by
  induction steps generalizing component with
  | nil => exact .kept rfl fun _ => rfl
  | cons step steps ih =>
    have first : Fate component (step.2.history step.1 component)
        fun other => ((), step.2.after step.1 other) :=
      fate_after step.1 (quiet step List.mem_cons_self)
    have rest : Fate (step.2.after step.1 component) (history (step.2.after step.1 component) steps)
        fun other => ((), run other steps) :=
      ih fun other m => quiet other (List.mem_cons_of_mem step m)
    exact @Fate.bind _ _ component _ _ _ (fun _ other => ((), run other steps)) first rest

/-! ## Components that are only enabled -/

/-- When nothing is live, an instance is made, or nothing is live afterwards. -/
theorem yields_ensureLive_of_live?_eq_none (files : FileTree) (idle : component.live? = none) :
    ensureLive.Yields files component fun result other =>
      (∃ error, result = .error error) ∧ other.live? = none
        ∨ result = .ok () ∧ ∃ inst, other.live? = some inst := by
  refine (yields_ensureLive_idle files idle).mono ?_
  intro result other made
  split at made
  · next inst _ =>
    obtain ⟨rfl, journal, rfl⟩ := made
    exact .inr ⟨rfl, inst, rfl⟩
  · next error _ =>
    obtain ⟨rfl, journal, rfl⟩ := made
    exact .inl ⟨⟨error, rfl⟩, idle⟩

/-- Either no variables are exchanged and nothing is live afterwards, or variables are given to an
instance before any are taken from one. -/
def Spares (happenings : List Happening) (other : Component) : Prop :=
  happenings.find? Happening.exchanges = none ∧ other.live? = none
    ∨ ∃ target snapshot,
      happenings.find? Happening.exchanges = some (.restored target snapshot)

theorem SameLife.live?_eq_none {other : Component} (h : SameLife component other)
    (idle : component.live? = none) : other.live? = none := by
  obtain ⟨live?, journal, rfl, rel⟩ := h
  rw [idle] at rel
  cases rel
  rfl

/-- A component that is enabled gives the variables to the instance that is made, if one is. -/
theorem spares_enable (files : FileTree) (idle : component.live? = none) :
    Spares (enablings files component) (enable.after files component) := by
  have made := yields_ensureLive_of_live?_eq_none files idle
  show enable.Yields files component fun _ other => Spares (enablings files component) other
  refine yields_bind (yields_of_eq fun result other result_eq after_eq => ?_)
  unfold Action.Yields at made
  rw [result_eq, after_eq] at made
  rw [enablings, result_eq, after_eq]
  obtain ⟨⟨error, rfl⟩, idle⟩ | ⟨rfl, inst, live⟩ := made
  · exact yields_pure (.inl ⟨rfl, idle⟩)
  · refine yields_of_eq fun _ last _ _ => .inr ⟨inst, other.snapshot, ?_⟩
    have given : restorings other = [.restored inst other.snapshot] := by
      unfold restorings
      rw [live]
      rfl
    show (restorings other ++ _).find? _ = _
    rw [given]
    rfl

theorem spares_reload (files : FileTree) (idle : component.live? = none) :
    Spares (reloadings files component) (reload.after files component) := by
  -- There is nothing to be torn down, so that a reload enables the component.
  have torn : tearings ((note (.reloading component.config.name)).after files component) = [] := by
    show component.live?.toList.flatMap _ = []
    rw [idle]
    rfl
  have disabled := (yields_disable files
    ((note (.reloading component.config.name)).after files component)).1
  have enabled := spares_enable files disabled
  unfold reloadings
  dsimp only
  rw [torn, List.nil_append]
  exact enabled

theorem yields_advancePending_of_live?_eq_none (files : FileTree) (idle : component.live? = none)
    (delta : Nat) :
    (advancePending delta).Yields files component fun result other =>
      result = .ok () ∧ other.live? = none := by
  refine yields_bind (yields_get ?_)
  split
  · exact yields_pure ⟨rfl, idle⟩
  · refine yields_bind (yields_modify ?_)
    rw [isActive_of_idle idle]
    exact yields_pure ⟨rfl, idle⟩
  · exact yields_bind (yields_modify (yields_pure ⟨rfl, idle⟩))

theorem spares_update (files : FileTree) (idle : component.live? = none) (delta : Nat) :
    (update delta).Yields files component fun _ other =>
      Spares (Operation.history files component (.update delta)) other := by
  have advanced := yields_advancePending_of_live?_eq_none files idle delta
  have quiet : advancings files component = [] := by
    unfold advancings
    rw [isActive_of_idle idle]
    split <;> rfl
  refine yields_bind (yields_of_eq fun result other result_eq after_eq => ?_)
  unfold Action.Yields at advanced
  rw [result_eq, after_eq] at advanced
  rw [Operation.history, quiet, result_eq, after_eq]
  obtain ⟨rfl, idle⟩ := advanced
  refine yields_bind ((yields_dispatch updateTag [] files other).mono fun _ last same => ?_)
  exact yields_pure (.inl ⟨exchanges_tellings _ _ _, same.live?_eq_none idle⟩)

theorem yields_setSourceText (files : FileTree) (text : String) :
    (setSourceText text).Yields files component fun _ other =>
      other.live? = component.live? := by
  refine yields_bind (yields_get ?_)
  split
  · exact yields_bind (yields_note (yields_pure rfl))
  · split
    · exact yields_pure rfl
    · exact yields_bind (yields_modify (yields_pure rfl))

theorem spares_notifySourceModified (files : FileTree) (idle : component.live? = none) :
    notifySourceModified.Yields files component fun _ other =>
      Spares (Operation.history files component .notifySourceModified) other := by
  refine yields_bind (yields_get ?_)
  rw [Operation.history, isActive_of_idle idle]
  exact yields_pure (.inl ⟨rfl, idle⟩)

/-- When nothing is live, no operation but a wake-up puts the variables at risk. -/
theorem spares_after (files : FileTree) (idle : component.live? = none) {operation : Operation}
    (asleep : operation ≠ .awake) :
    Spares (operation.history files component) (operation.after files component) := by
  have told (tag : String) (arguments : List Value) :
      ((dispatch tag arguments).after files component).live? = none := by
    have same : SameLife component ((dispatch tag arguments).after files component) :=
      yields_dispatch tag arguments files component
    exact same.live?_eq_none idle
  cases operation with
  | awake => exact absurd rfl asleep
  | enable => exact spares_enable files idle
  | start => exact .inl ⟨exchanges_tellings _ _ _, told startTag []⟩
  | update delta => exact spares_update files idle delta
  | fixedUpdate => exact .inl ⟨exchanges_tellings _ _ _, told fixedUpdateTag []⟩
  | disable =>
    refine .inl ⟨?_, (yields_disable files component).1⟩
    show (tearings component).find? _ = none
    rw [tearings, idle]
    rfl
  | reload => exact spares_reload files idle
  | setSourceText text => exact .inl ⟨rfl, (yields_setSourceText files text).trans idle⟩
  | notifySourceModified => exact spares_notifySourceModified files idle
  | loadSnapshot entries => exact .inl ⟨rfl, idle⟩
  | bind name value => exact .inl ⟨rfl, idle⟩
  | dispatch tag arguments => exact .inl ⟨exchanges_tellings _ _ _, told tag arguments⟩
  | call name arguments =>
    refine .inl ⟨?_, (yields_call name arguments files component).live?_eq_none idle⟩
    show (component.live?.toList.map _).find? _ = none
    rw [idle]
    rfl

/-- As long as a component is not woken, an instance is given the variables before any are taken
from it. -/
theorem not_lost_of_asleep (idle : component.live? = none) {steps : List (FileTree × Operation)}
    (asleep : ∀ step ∈ steps, step.2 ≠ .awake) (target : Instance) (taken : Snapshot) :
    (history component steps).find? Happening.exchanges ≠ some (.captured target taken) := by
  induction steps generalizing component with
  | nil =>
    intro first
    cases first
  | cons step steps ih =>
    intro first
    rw [history, List.find?_append] at first
    obtain ⟨none, idle_after⟩ | ⟨given, snapshot, found⟩ :=
      spares_after step.1 idle (asleep step List.mem_cons_self)
    · rw [none] at first
      exact ih idle_after (fun other m => asleep other (List.mem_cons_of_mem step m)) first
    · rw [found] at first
      cases first

/-! ## Whole runs -/

/-- Until other variables are brought, the variables that wait in a component either go on waiting,
or they are given to an instance, or the variables of an instance that was not given them take
their place, and then nothing that follows depends on them. The last cannot come about as long as the
component is not woken. -/
theorem waiting_run (component : Component) (steps : List (FileTree × Operation))
    (quiet : ∀ step ∈ steps, ∀ entries, step.2 ≠ .loadSnapshot entries) :
    ((history component steps).find? Happening.exchanges = none
          ∧ (run component steps).snapshot = component.snapshot
        ∨ (∃ target, (history component steps).find? Happening.exchanges
            = some (.restored target component.snapshot))
        ∨ ∃ target taken, (history component steps).find? Happening.exchanges
              = some (.captured target taken)
            ∧ ∀ snapshot, run { component with snapshot } steps = run component steps)
      ∧ (component.live? = none → (∀ step ∈ steps, step.2 ≠ .awake) → ∀ target taken,
          (history component steps).find? Happening.exchanges ≠ some (.captured target taken)) := by
  constructor
  · cases fate_run quiet with
    | kept none blind =>
      have waiting := @snapshot_of_blind Unit component (fun other => ((), run other steps)) blind
      exact .inl ⟨none, waiting⟩
    | given target first => exact .inr (.inl ⟨target, first⟩)
    | lost target taken first same =>
      refine .inr (.inr ⟨target, taken, first, fun snapshot => ?_⟩)
      exact congrArg Prod.snd (same snapshot)
  · exact fun idle asleep => not_lost_of_asleep idle asleep

/-- The hit points that a door had when a reload failed are lost when the door is woken before it is
enabled, and torn down. -/
theorem waiting_run_of_door :
    let door := run (idle { name := "door", source := .literal "#Serialize hp\nhp = 7" } .empty)
      [(.empty [], .enable), (.empty [], .setSourceText "hp = = 1"), (.empty [], .reload),
        (.empty [], .setSourceText "#Serialize hp\nhp = 1")]
    let steps := [(FileTree.empty [], Operation.awake), (.empty [], .disable)]
    door.snapshot = [.encoded ⟨"hp", "lua.integer", "7"⟩]
      ∧ (run door steps).snapshot = [.encoded ⟨"hp", "lua.integer", "1"⟩]
      ∧ ∀ snapshot, run { door with snapshot } steps = run door steps := by
  intro door steps
  have taken : ((history door steps).find? Happening.exchanges).map
      (fun happening => match happening with
        | .captured .. => true
        | _ => false) = some true := by
    decide +kernel
  have quiet : ∀ step ∈ steps, ∀ entries, step.2 ≠ .loadSnapshot entries := by simp [steps]
  refine ⟨by decide +kernel, by decide +kernel, ?_⟩
  rcases (waiting_run door steps quiet).1 with ⟨none, _⟩ | ⟨target, given⟩ | ⟨_, _, _, lost⟩
  · rw [none] at taken
    cases taken
  · rw [given] at taken
    cases taken
  · exact lost

end Component

end ScriptHost
