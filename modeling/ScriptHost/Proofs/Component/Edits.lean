import ScriptHost.Proofs.Component.Operations

/-!
# Edits of a script reach it

The text of a script can be edited while an instance of it is live. The instance keeps the text
that it was built from, and the edit waits until the script reloads.

* `Component.Settled` : the live instance has the text of the configuration, or an edit is waiting.
* `Component.settled_after` : every operation keeps that so.
* `Component.isReloadPending_of_stale` : whatever was done before, an edit that the live instance
  has not got is waiting.
-/

namespace ScriptHost.Component

variable {α : Type}

/-! ## Settled components -/

/-- The script is part of the configuration, and the live instance was built from its text unless
an edit is waiting. -/
structure Settled (component : Component) : Prop where
  isLiteral : ∃ text, component.config.source = .literal text
  text_of_live : ∀ inst, component.live? = some inst →
    component.isReloadPending = false → component.config.source = .literal inst.source

/-- A component without a live instance has no instance with an old text. -/
theorem settled_of_idle {component : Component} {text : String}
    (source : component.config.source = .literal text) (live : component.live? = none) :
    Settled component := by
  refine ⟨⟨text, source⟩, ?_⟩
  intro inst h
  rw [live] at h
  cases h

/-- Calls of the live script leave its text alone. -/
theorem Settled.of_sameLife {component other : Component} (settled : Settled component)
    (same : SameLife component other) : Settled other := by
  obtain ⟨live?, journal, rfl, lives⟩ := same
  refine ⟨settled.isLiteral, ?_⟩
  intro inst live waiting
  change live? = some inst at live
  rw [live] at lives
  cases before : component.live? with
  | none =>
    rw [before] at lives
    cases lives
  | some first =>
    rw [before] at lives
    cases lives with
    | some built =>
      -- The instance is of the same build, so its text is that of the instance before.
      have text := settled.text_of_live first before waiting
      rw [← built.source_eq] at text
      exact text

/-! ## Parts of operations -/

variable {files : FileTree} {component : Component}

/-- An action that ends in a settled component when it starts in one. -/
def Action.Settles (action : Action α) : Prop :=
  ∀ files component, Settled component →
    action.Yields files component fun _ other => Settled other

theorem settles_dispatchEvent (tag : String) : (dispatchEvent tag).Settles := by
  intro files component settled
  exact (yields_dispatch tag [] files component).mono fun _ _ same => settled.of_sameLife same

/-- A build takes the text as it is now. -/
theorem settles_ensureLive : ensureLive.Settles := by
  intro files component settled
  refine yields_bind (yields_get ?_)
  split
  · exact yields_pure settled
  · refine yields_bind ((yields_build files component).mono ?_)
    rintro result other ⟨built, journal, exposed, rfl⟩
    cases result with
    | error error => exact yields_pure ⟨settled.isLiteral, settled.text_of_live⟩
    | ok inst =>
      refine yields_bind (yields_modify (yields_pure ?_))
      refine ⟨settled.isLiteral, ?_⟩
      intro other live _
      obtain ⟨text, source⟩ := settled.isLiteral
      have loaded := load_of_rebuilt built.symm
      rw [source] at loaded
      cases live
      cases loaded
      exact source

theorem settles_restore : restore.Settles := by
  intro files component settled
  refine yields_bind (yields_get ?_)
  split
  · exact yields_pure settled
  · next inst live =>
    refine yields_bind (yields_modify (yields_bind (yields_onInstance ?_)))
    refine yields_bind (yields_modify (yields_note ?_))
    refine ⟨settled.isLiteral, ?_⟩
    intro other same waiting
    have text := settled.text_of_live inst live waiting
    rw [← ((Instance.silent_restoreVariables component.snapshot).steady inst).source_eq] at text
    cases same
    exact text

theorem settles_enable : enable.Settles := by
  intro files component settled
  refine yields_bind ((settles_ensureLive files component settled).mono ?_)
  intro result other settled
  cases result with
  | error error => exact yields_pure settled
  | ok _ =>
    refine yields_bind ((settles_restore files other settled).mono ?_)
    intro _ other settled
    refine yields_bind ((settles_dispatchEvent enableTag files other settled).mono ?_)
    intro _ other settled
    exact yields_pure settled

theorem settles_awake : awake.Settles := by
  intro files component settled
  refine yields_bind ((settles_ensureLive files component settled).mono ?_)
  intro result other settled
  cases result with
  | error error => exact yields_pure settled
  | ok _ =>
    refine yields_bind ((settles_dispatchEvent awakeTag files other settled).mono ?_)
    intro _ other settled
    exact yields_pure settled

/-- Nothing is live after a component is disabled, and its configuration is as before. -/
theorem yields_disable (files : FileTree) (component : Component) :
    disable.Yields files component fun _ other =>
      other.live? = none ∧ other.config = component.config := by
  refine yields_bind (yields_get ?_)
  split
  · next live => exact yields_pure ⟨live, rfl⟩
  · refine yields_bind (yields_modify (yields_bind (yields_onInstance ?_)))
    exact yields_bind (yields_onInstance (yields_bind (yields_modify (yields_note ⟨rfl, rfl⟩))))

/-- Whatever the live instance was built from, a reload ends with the text as it is now. -/
theorem yields_reload {text : String} (source : component.config.source = .literal text) :
    reload.Yields files component fun _ other => Settled other := by
  refine yields_bind (yields_get (yields_bind (yields_note ?_)))
  refine yields_bind ((yields_disable files _).mono ?_)
  rintro _ other ⟨live, config⟩
  have idle : Settled other := settled_of_idle (by rw [config]; exact source) live
  exact settles_enable files other idle

theorem settles_advancePending (delta : Nat) : (advancePending delta).Settles := by
  intro files component settled
  obtain ⟨text, source⟩ := settled.isLiteral
  refine yields_bind (yields_get ?_)
  split
  · exact yields_pure settled
  · refine yields_bind (yields_modify ?_)
    -- From here on nothing is waiting, so the text of the live instance may be an old one.
    split
    · exact yields_reload source
    · next inactive =>
      refine yields_pure (settled_of_idle source ?_)
      show component.live? = none
      simpa [isActive] using inactive
  · refine yields_bind (yields_modify (yields_pure ?_))
    refine ⟨settled.isLiteral, ?_⟩
    intro inst live waiting
    cases waiting

theorem settles_update (delta : Nat) : (update delta).Settles := by
  intro files component settled
  refine yields_bind ((settles_advancePending delta files component settled).mono ?_)
  intro result other settled
  cases result with
  | error error => exact yields_pure settled
  | ok _ =>
    refine yields_bind ((settles_dispatchEvent updateTag files other settled).mono ?_)
    intro _ other settled
    exact yields_pure settled

theorem settles_notifySourceModified : notifySourceModified.Settles := by
  intro files component settled
  obtain ⟨text, source⟩ := settled.isLiteral
  refine yields_bind (yields_get ?_)
  split
  · exact yields_reload source
  · exact yields_pure settled

theorem settles_setSourceText (text : String) : (setSourceText text).Settles := by
  intro files component settled
  refine yields_bind (yields_get ?_)
  split
  · exact yields_bind (yields_note (yields_pure ⟨settled.isLiteral, settled.text_of_live⟩))
  · split
    · exact yields_pure settled
    · refine yields_bind (yields_modify (yields_pure ⟨⟨text, rfl⟩, ?_⟩))
      intro inst live waiting
      cases waiting

/-! ## All operations -/

/-- An operation ends in a settled component when it starts in one. -/
theorem settled_after (files : FileTree) {component : Component} (settled : Settled component)
    (operation : Operation) : Settled (operation.after files component) := by
  cases operation with
  | awake => exact settles_awake files component settled
  | enable => exact settles_enable files component settled
  | start => exact settles_dispatchEvent startTag files component settled
  | update delta => exact settles_update delta files component settled
  | fixedUpdate => exact settles_dispatchEvent fixedUpdateTag files component settled
  | disable =>
    obtain ⟨text, source⟩ := settled.isLiteral
    obtain ⟨live, config⟩ := yields_disable files component
    exact settled_of_idle (config ▸ source) live
  | reload =>
    obtain ⟨text, source⟩ := settled.isLiteral
    exact yields_reload source
  | setSourceText text => exact settles_setSourceText text files component settled
  | notifySourceModified => exact settles_notifySourceModified files component settled
  | loadSnapshot entries => exact ⟨settled.isLiteral, settled.text_of_live⟩
  | bind name value => exact ⟨settled.isLiteral, settled.text_of_live⟩
  | dispatch tag arguments =>
    exact settled.of_sameLife (yields_dispatch tag arguments files component)
  | call name arguments =>
    exact settled.of_sameLife (yields_call name arguments files component)

theorem settled_run {component : Component} (settled : Settled component)
    (steps : List (FileTree × Operation)) : Settled (run component steps) := by
  induction steps generalizing component with
  | nil => exact settled
  | cons step steps ih => exact ih (settled_after step.1 settled step.2)

/-- Whatever was done with a component whose script is part of its configuration, if its live
instance was built from another text than the configuration has now, then a reload is waiting. -/
theorem isReloadPending_of_stale {config : Config} {first : String}
    (source : config.source = .literal first) (host : HostFunctions)
    (steps : List (FileTree × Operation)) {inst : Instance} {text : String}
    (live : (run (idle config host) steps).live? = some inst)
    (current : (run (idle config host) steps).config.source = .literal text)
    (stale : inst.source ≠ text) :
    (run (idle config host) steps).isReloadPending = true := by
  have start : Settled (idle config host) := settled_of_idle source rfl
  have settled := settled_run start steps
  cases waiting : (run (idle config host) steps).isReloadPending with
  | true => rfl
  | false =>
    have built := settled.text_of_live inst live waiting
    rw [current] at built
    cases built
    exact absurd rfl stale

/-- An edit of a script that is awake waits. -/
theorem isReloadPending_of_edit :
    let edited := run (idle { name := "lamp", source := .literal "x = 1" } .empty)
      [(.empty [], .awake), (.empty [], .setSourceText "x = 2")]
    edited.live?.map Instance.source = some "x = 1" ∧ edited.isReloadPending = true := by
  intro edited
  have texts : edited.live?.map Instance.source = some "x = 1"
      ∧ edited.config.source = .literal "x = 2" := by
    decide +kernel
  obtain ⟨built, current⟩ := texts
  obtain ⟨inst, live, text⟩ := Option.map_eq_some_iff.1 built
  have stale : inst.source ≠ "x = 2" := by
    rw [text]
    decide
  exact ⟨built, isReloadPending_of_stale rfl .empty _ live current stale⟩

end ScriptHost.Component
