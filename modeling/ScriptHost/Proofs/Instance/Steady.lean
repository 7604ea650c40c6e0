import ScriptHost.Component

/-!
# What operations leave of an instance

An instance keeps what it was built from: its name, its text, its declarations, its registry and
its tags. Operations change the state of the script and the journal only, and most of them call no
functions of the script for the host.

* `Instance.Noting` : the actions that look at an instance, run its script, and note events of some
  kinds.
* `Instance.SameBuild`, `Instance.Noting.steady` : such an action leads to a state of the same
  build.
* `Event.calls`, `Instance.Silent.calls_eq` : the calls in a journal, to which an action that notes
  none adds none.
* `Instance.silent_capture`, `Instance.silent_restoreVariables`, … : the operations that call
  nothing.
* `Instance.source_build` : the text of an instance is the one that it was built from.
-/

namespace ScriptHost

theorem eq_ok_of_mem_toOption {ε α : Type} {result : Except ε α} {a : α}
    (h : a ∈ result.toOption) : result = .ok a := by
  cases result with
  | error _ => cases h
  | ok _ =>
    cases h
    rfl

/-- The error of what went wrong. -/
def errorOf? {ε α : Type} : Except ε α → Option ε
  | .ok _ => none
  | .error error => some error

theorem eq_error_of_mem_errorOf? {ε α : Type} {result : Except ε α} {error : ε}
    (h : error ∈ errorOf? result) : result = .error error := by
  cases result with
  | ok _ => cases h
  | error _ =>
    cases h
    rfl

/-! ## Calls in a journal -/

namespace Event

/-- Whether the host calls a function, or all functions with a tag. -/
def isCall : Event → Bool
  | broadcast .. | invoked .. => true
  | _ => false

/-- The calls in a journal, the earliest first. -/
def calls (journal : List Event) : List Event := (journal.filter isCall).reverse

@[simp] theorem calls_append (later earlier : List Event) :
    calls (later ++ earlier) = calls earlier ++ calls later := by
  simp [calls]

theorem calls_cons_of_isCall {event : Event} (h : event.isCall = true) (journal : List Event) :
    calls (event :: journal) = calls journal ++ [event] := by
  simp [calls, h]

theorem calls_cons_of_not_isCall {event : Event} (h : event.isCall = false)
    (journal : List Event) : calls (event :: journal) = calls journal := by
  simp [calls, h]

/-- What a host function does is no call. -/
@[simp] theorem calls_effectEvents (effects : List Effect) :
    calls (Instance.effectEvents effects) = [] := by
  have none : (Instance.effectEvents effects).filter isCall = [] := by
    refine List.filter_eq_nil_iff.2 fun event m => ?_
    obtain ⟨effect, _, rfl⟩ := List.mem_map.1 (List.mem_reverse.1 m)
    exact Bool.false_ne_true
  rw [calls, none, List.reverse_nil]

end Event

namespace Instance

variable {α β : Type}

/-! ## What actions are made of -/

/-- An action that looks at an instance, runs its script, and notes events with a property only. -/
inductive Noting (allowed : Event → Prop) : {α : Type} → Action α → Prop
  | pure {α : Type} (a : α) : Noting allowed (Pure.pure a : Action α)
  | get : Noting allowed (MonadState.get : Action Instance)
  | bind {α β : Type} {action : Action α} {next : α → Action β} :
      Noting allowed action → (∀ a, Noting allowed (next a)) → Noting allowed (action >>= next)
  | note {event : Event} : allowed event → Noting allowed (Instance.note event)
  | onScript {α : Type}
      (operation : Script.Interpreter → Script.Interpreter.Outcome α × Script.Interpreter) :
      Noting allowed (Instance.onScript operation)

/-- An action that calls no function of the script for the host. -/
abbrev Silent (action : Action α) : Prop := Noting (fun event => event.isCall = false) action

/-! ## States of one build -/

/-- Two instances that differ in the state of the script and in the journal only. -/
def SameBuild (inst other : Instance) : Prop :=
  ∃ script journal, other = { inst with script, journal }

theorem SameBuild.refl (inst : Instance) : SameBuild inst inst := ⟨inst.script, inst.journal, rfl⟩

theorem SameBuild.trans {first second third : Instance} (h : SameBuild first second)
    (k : SameBuild second third) : SameBuild first third := by
  obtain ⟨_, _, rfl⟩ := h
  obtain ⟨script, journal, rfl⟩ := k
  exact ⟨script, journal, rfl⟩

/-- States of one build have the same text. -/
theorem SameBuild.source_eq {inst other : Instance} (h : SameBuild inst other) :
    other.source = inst.source := by
  obtain ⟨_, _, rfl⟩ := h
  rfl

/-- States of one build have the same tags. -/
theorem SameBuild.tags_eq {inst other : Instance} (h : SameBuild inst other) :
    other.tags = inst.tags := by
  obtain ⟨_, _, rfl⟩ := h
  rfl

/-- An action that changes the state of the script and the journal only. -/
def Steady (action : Action α) : Prop := ∀ inst, SameBuild inst (action.run inst).2

theorem Noting.steady {allowed : Event → Prop} {action : Action α} (h : Noting allowed action) :
    Steady action := by
  induction h with
  | pure a => exact SameBuild.refl
  | get => exact SameBuild.refl
  | bind _ _ ih_action ih_next => exact fun inst => (ih_action inst).trans (ih_next _ _)
  | note _ => exact fun inst => ⟨inst.script, _, rfl⟩
  | onScript operation => exact fun inst => ⟨_, _, rfl⟩

/-- An action that calls nothing adds no calls to the journal. -/
theorem Silent.calls_eq {action : Action α} (h : Silent action) (inst : Instance) :
    Event.calls (action.run inst).2.journal = Event.calls inst.journal := by
  induction h generalizing inst with
  | pure a => rfl
  | get => rfl
  | bind _ _ ih_action ih_next => exact (ih_next _ _).trans (ih_action inst)
  | note other => exact Event.calls_cons_of_not_isCall other inst.journal
  | onScript operation =>
    refine (Event.calls_append _ inst.journal).trans ?_
    rw [Event.calls_effectEvents, List.append_nil]

/-! ## The operations that call functions -/

theorem noting_call (name : String) (arguments : List Value) :
    Noting (fun _ => True) (call name arguments) := by
  refine .bind .get fun inst => ?_
  cases inst.function? name arguments.length with
  | none => exact .pure _
  | some handle => exact .bind (.note trivial) fun _ => .onScript _

theorem noting_tryCallOutcome (name : String) (arguments : List Value) :
    Noting (fun _ => True) (tryCallOutcome name arguments) := by
  refine .bind .get fun inst => ?_
  cases inst.function? name arguments.length with
  | none => exact .pure _
  | some handle =>
    refine .bind (.note trivial) fun _ => .bind (.onScript _) fun result => ?_
    cases result with
    | ok _ => exact .pure _
    | error failure => exact .bind (.note trivial) fun _ => .pure _

theorem noting_tryCall (name : String) (arguments : List Value) :
    Noting (fun _ => True) (tryCall name arguments) :=
  .bind (noting_tryCallOutcome name arguments) fun _ => .pure _

theorem noting_callEach (arguments : List Value) (names : List String) :
    Noting (fun _ => True) (callEach arguments names) := by
  induction names with
  | nil => exact .pure _
  | cons name names ih =>
    exact .bind (noting_tryCall name arguments) fun _ => .bind ih fun _ => .pure _

theorem noting_broadcast (editor : Bool) (tag : String) (arguments : List Value) :
    Noting (fun _ => True) (Component.broadcast editor tag arguments) :=
  .bind .get fun _ => .bind (.note trivial) fun _ => noting_callEach _ _

/-! ## The operations that call nothing -/

theorem silent_global (name : String) : Silent (global name) := .onScript _

theorem silent_setGlobal (name : String) (value : Value) : Silent (setGlobal name value) :=
  .onScript _

theorem silent_captureVariable? (name : String) : Silent (captureVariable? name) := by
  refine .bind .get fun inst => .bind (silent_global name) fun result => ?_
  have skipped (reason : Error) : Silent (do
      Instance.note (.captureSkipped inst.name name reason)
      return (none : Option CapturedVariable)) :=
    .bind (.note rfl) fun _ => .pure _
  split
  · exact skipped _
  · exact .pure _
  · exact .pure _
  · split
    · exact .pure _
    · exact skipped _

theorem silent_captureEach (names : List String) : Silent (captureEach names) := by
  induction names with
  | nil => exact .pure _
  | cons name names ih =>
    exact .bind (silent_captureVariable? name) fun _ => .bind ih fun _ => .pure _

theorem silent_capture : Silent capture := by
  have each : Silent captureVariables := .bind .get fun _ => silent_captureEach _
  exact .bind each fun _ => .bind .get fun _ => .bind (.note rfl) fun _ => .pure _

theorem silent_restoreVariable (captured : CapturedVariable) :
    Silent (restoreVariable captured) := by
  refine .bind .get fun inst => ?_
  have skipped (reason : Error) : Silent (do
      Instance.note (.restoreFailed inst.name captured.name reason)
      return false) :=
    .bind (.note rfl) fun _ => .pure _
  cases captured.value with
  | error reason => exact skipped _
  | ok value =>
    refine .bind (silent_setGlobal _ _) fun result => ?_
    cases result with
    | ok _ => exact .pure _
    | error reason => exact skipped _

theorem silent_restoreVariables (snapshot : Snapshot) : Silent (restoreVariables snapshot) := by
  induction snapshot with
  | nil => exact .pure _
  | cons captured rest ih =>
    exact .bind (silent_restoreVariable captured) fun _ => .bind ih fun _ => .pure _

theorem silent_setBindings (bindings : Entries Value) :
    Silent (Component.setBindings bindings) := by
  induction bindings with
  | nil => exact .pure _
  | cons entry rest ih =>
    refine .bind (silent_setGlobal _ _) fun result => ?_
    cases result with
    | ok _ => exact ih
    | error _ => exact .pure _

theorem silent_setExposed (values : Entries Json) (exposed : List ExposedVariable) :
    Silent (setExposed values exposed) := by
  induction exposed with
  | nil => exact .pure _
  | cons entry rest ih =>
    refine .bind (silent_setGlobal _ _) fun result => ?_
    cases result with
    | ok _ => exact ih
    | error _ => exact .bind .get fun _ => .bind (.note rfl) fun _ => ih

theorem silent_noteIncomplete (tags : List String) : Silent (noteIncomplete tags) := by
  induction tags with
  | nil => exact .pure _
  | cons tag rest ih => exact .bind .get fun _ => .bind (.note rfl) fun _ => ih

theorem silent_initialiseExposed (values : Entries Json) : Silent (initialiseExposed values) :=
  .bind .get fun _ => .bind (silent_noteIncomplete _) fun _ =>
    .bind (silent_setExposed _ _) fun _ => .pure _

/-! ## The text of an instance -/

/-- The text of an instance is the one that it was built from. -/
theorem source_build {host : HostFunctions} {name source : String} {inst : Instance}
    (h : (build host name source).1 = .ok inst) : inst.source = source := by
  unfold build at h
  dsimp only at h
  split at h
  · cases h
  · cases h
    rfl

end Instance

end ScriptHost
