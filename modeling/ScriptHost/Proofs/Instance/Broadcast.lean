import ScriptHost.Proofs.Instance.Capture
import ScriptHost.Proofs.Instance.Steady

/-!
# Calls of the functions with a tag

Which functions of an instance a broadcast calls, and that a broadcast in the editor does what the
instance itself does with the tag.

* `Instance.reached` : the functions that a broadcast calls.
* `Instance.calls_broadcast` : a broadcast calls those, and nothing else.
* `Instance.Journaled`, `Instance.journaled_callEach` : what is in the journal does not count for
  calls.
* `Instance.broadcast_editor` : in the editor, a broadcast calls all functions with the tag.
-/

namespace ScriptHost.Instance

open Component (broadcast handlersOf)

/-! ## Which functions are called -/

/-- The functions with a tag that take so many arguments, those for the editor only in the
editor. -/
def reached (editor : Bool) (inst : Instance) (tag : String) (arity : Nat) : List String :=
  (inst.tags.functionsWithTag tag).filter fun function =>
    (editor || !inst.tags.hasTag function Tag.editorOnlyToken)
      && (inst.function? function arity).isSome

/-- Some functions of an instance are called one after the other. -/
def invocations (inst : Instance) (arity : Nat) (functions : List String) : List Event :=
  functions.map fun function => .invoked inst.name function arity

variable {inst : Instance}

theorem SameBuild.function?_eq {other : Instance} (h : SameBuild inst other) (name : String)
    (arity : Nat) : other.function? name arity = inst.function? name arity := by
  obtain ⟨_, _, rfl⟩ := h
  rfl

theorem SameBuild.invocations_eq {other : Instance} (h : SameBuild inst other) :
    other.invocations = inst.invocations := by
  obtain ⟨_, _, rfl⟩ := h
  rfl

/-- When a call is noted, what follows without further calls adds nothing to it. -/
theorem yields_noted_call {α : Type} {event : Event} (isCall : event.isCall = true)
    {next : Unit → Action α} (silent : Silent (next ())) :
    (note event >>= next).Yields inst fun _ after =>
      Event.calls after.journal = Event.calls inst.journal ++ [event] := by
  refine yields_bind (yields_note ?_)
  have quiet := silent.calls_eq { inst with journal := event :: inst.journal }
  exact quiet.trans (Event.calls_cons_of_isCall isCall inst.journal)

/-- A function is called if it takes so many arguments. -/
theorem calls_call (name : String) (arguments : List Value) (inst : Instance) :
    Event.calls ((call name arguments).run inst).2.journal
      = Event.calls inst.journal
        ++ inst.invocations arguments.length
            ([name].filter fun function => (inst.function? function arguments.length).isSome) := by
  show (call name arguments).Yields inst fun _ after => Event.calls after.journal = _
  refine yields_bind (yields_get ?_)
  cases found : inst.function? name arguments.length with
  | none =>
    refine yields_pure ?_
    simp [invocations, found]
  | some handle =>
    refine (yields_noted_call rfl (.onScript _)).mono fun _ after called => ?_
    simp [called, invocations, found]

/-- The same holds when the result is dropped and an error is noted. -/
theorem calls_tryCall (name : String) (arguments : List Value) (inst : Instance) :
    Event.calls ((tryCall name arguments).run inst).2.journal
      = Event.calls inst.journal
        ++ inst.invocations arguments.length
            ([name].filter fun function => (inst.function? function arguments.length).isSome) := by
  show (tryCall name arguments).Yields inst fun _ after => Event.calls after.journal = _
  refine yields_bind (yields_bind (yields_get ?_))
  cases found : inst.function? name arguments.length with
  | none =>
    refine yields_pure (yields_pure ?_)
    simp [invocations, found]
  | some handle =>
    refine (yields_noted_call rfl ?_).mono fun _ after called => yields_pure ?_
    · refine .bind (.onScript _) fun result => ?_
      cases result with
      | ok _ => exact .pure _
      | error failure => exact .bind (.note rfl) fun _ => .pure _
    · simp [called, invocations, found]

/-- Of some functions, those that take so many arguments are called, in order. -/
theorem calls_callEach (arguments : List Value) (names : List String) (inst : Instance) :
    Event.calls ((callEach arguments names).run inst).2.journal
      = Event.calls inst.journal
        ++ inst.invocations arguments.length
            (names.filter fun function => (inst.function? function arguments.length).isSome) := by
  induction names generalizing inst with
  | nil => exact (List.append_nil _).symm
  | cons name names ih =>
    have first := calls_tryCall name arguments inst
    have same := (noting_tryCall name arguments).steady inst
    have rest := ih ((tryCall name arguments).run inst).2
    simp only [same.invocations_eq, same.function?_eq] at rest
    refine rest.trans ?_
    rw [first, List.append_assoc, invocations, invocations, invocations, ← List.map_append,
      ← List.filter_append, List.singleton_append]

/-- A broadcast is noted and calls the functions that it reaches, each once and in order, and
nothing else. -/
theorem calls_broadcast (editor : Bool) (tag : String) (arguments : List Value)
    (inst : Instance) :
    Event.calls ((broadcast editor tag arguments).run inst).2.journal
      = Event.calls inst.journal
        ++ .broadcast inst.name tag
          :: inst.invocations arguments.length (reached editor inst tag arguments.length) := by
  have each := calls_callEach arguments (handlersOf editor inst.tags tag)
    { inst with journal := .broadcast inst.name tag :: inst.journal }
  refine each.trans ?_
  rw [Event.calls_cons_of_isCall rfl, List.append_assoc, List.singleton_append, handlersOf,
    List.filter_filter]
  simp only [reached, Bool.and_comm]
  rfl

/-! ## Broadcasts in the editor -/

/-- Whatever is in the journal, the action gives the same result and leaves the same instance, but
for the journal. -/
def Journaled {α : Type} (action : Action α) : Prop :=
  ∀ inst journal, ∃ after, action.run { inst with journal }
    = ((action.run inst).1, { (action.run inst).2 with journal := after })

namespace Journaled

variable {α β : Type}

theorem pure (a : α) : Journaled (Pure.pure a : Action α) := fun _ journal => ⟨journal, rfl⟩

theorem note (event : Event) : Journaled (Instance.note event) :=
  fun _ journal => ⟨event :: journal, rfl⟩

theorem onScript
    (operation : Script.Interpreter → Script.Interpreter.Outcome α × Script.Interpreter) :
    Journaled (Instance.onScript operation) := fun _ _ => ⟨_, rfl⟩

theorem bind {action : Action α} {next : α → Action β} (h : Journaled action)
    (k : ∀ a, Journaled (next a)) : Journaled (action >>= next) := by
  intro inst journal
  obtain ⟨middle, first⟩ := h inst journal
  obtain ⟨after, second⟩ := k (action.run inst).1 (action.run inst).2 middle
  refine ⟨after, Eq.trans ?_ second⟩
  show (next (action.run { inst with journal }).1).run (action.run { inst with journal }).2 = _
  rw [first]

/-- What is looked at is not the journal. -/
theorem get {next : Instance → Action α} (k : ∀ inst, Journaled (next inst))
    (blind : ∀ inst journal, next { inst with journal } = next inst) :
    Journaled (MonadState.get >>= next) := by
  intro inst journal
  obtain ⟨after, run⟩ := k inst inst journal
  refine ⟨after, Eq.trans ?_ run⟩
  show (next { inst with journal }).run { inst with journal } = _
  rw [blind]

end Journaled

theorem journaled_tryCall (name : String) (arguments : List Value) :
    Journaled (tryCall name arguments) := by
  refine .bind (.get (fun inst => ?_) fun _ _ => rfl) fun _ => .pure _
  cases inst.function? name arguments.length with
  | none => exact .pure _
  | some handle =>
    refine .bind (.note _) fun _ => .bind (.onScript _) fun result => ?_
    cases result with
    | ok _ => exact .pure _
    | error failure => exact .bind (.note _) fun _ => .pure _

theorem journaled_callEach (arguments : List Value) (names : List String) :
    Journaled (callEach arguments names) := by
  induction names with
  | nil => exact .pure _
  | cons name names ih =>
    exact .bind (journaled_tryCall name arguments) fun _ => .bind ih fun _ => .pure _

/-- In the editor, a broadcast does what the instance does when it calls all functions with the
tag. -/
theorem broadcast_editor (tag : String) (arguments : List Value) (inst : Instance) :
    ∃ journal, (broadcast true tag arguments).run inst
      = (((callWithTag tag arguments).run inst).1,
          { ((callWithTag tag arguments).run inst).2 with journal }) := by
  have all : handlersOf true inst.tags tag = inst.tags.functionsWithTag tag :=
    List.filter_eq_self.2 fun _ _ => rfl
  obtain ⟨journal, run⟩ := journaled_callEach arguments (inst.tags.functionsWithTag tag) inst
    (.broadcast inst.name tag :: inst.journal)
  refine ⟨journal, Eq.trans ?_ run⟩
  show (callEach arguments (handlersOf true inst.tags tag)).run
    { inst with journal := .broadcast inst.name tag :: inst.journal } = _
  rw [all]

end ScriptHost.Instance
