import ScriptHost.Proofs.Component.Countdown

/-!
# Edits since the last build

A live script was built from the text that its component had then, and the edits since have changed
that text. A reload waits when there are such edits. It may wait without them, too: a script that is
built for another reason takes the edits with it, and what waits goes on waiting.

* `Component.editsSince` : the edits of a run since the last build.
* `Component.Tracks` : what these edits are to the live script, and `Component.tracks_run` : that
  they are so, whatever was done before.
* `Component.isReloadPending_after` : only an update that finds nothing left to wait for ends the
  waiting.
* `Component.outdated_iff` : when the live script has an old text.
-/

namespace ScriptHost.Component

variable {files : FileTree} {component : Component} {inst : Instance}
  {texts : List String}

/-! ## Builds and edits -/

/-- Whether an operation builds a script: because none is live and one is asked for, or because the
script that is live reloads. -/
def Operation.builds (component : Component) : Operation → Bool
  | awake | enable => !component.isActive
  | reload => true
  | notifySourceModified => component.isActive
  | update _ => component.isActive && component.pendingReload? == some 0
  | start | fixedUpdate | disable | setSourceText _ | loadSnapshot _ | bind .. | dispatch ..
  | call .. => false

/-- The texts that an operation changes the script to: one, if it is an edit that changes it. -/
def Operation.edits (files : FileTree) (component : Component) : Operation → List String
  | setSourceText text =>
    if (Component.setSourceText text).result files component then [text] else []
  | _ => []

/-- The texts that a script was changed to since the last build, after some operations; `edits` are
those before them. -/
def editsSince (component : Component) (edits : List String) :
    List (FileTree × Operation) → List String
  | [] => edits
  | step :: steps =>
    editsSince (step.2.after step.1 component)
      (if step.2.builds component then [] else edits ++ step.2.edits step.1 component) steps

/-- The text is part of the configuration. If a script is live, its text was changed to some texts,
one after the other, each time to another one, and the last is that of the configuration. A reload
waits unless there are none. -/
structure Tracks (component : Component) (texts : List String) : Prop where
  isLiteral : ∃ text, component.config.source = .literal text
  text_of_live : ∀ built, component.live?.map Instance.source = some built →
    component.config.source = .literal (texts.getLast?.getD built)
  chain_of_live : ∀ built, component.live?.map Instance.source = some built →
    (built :: texts).IsChain (· ≠ ·)
  waits_of_live : component.isActive = true → texts ≠ [] → component.isReloadPending = true

namespace Tracks

/-- While nothing is live, edits do not count. -/
theorem of_idle {text : String} (source : component.config.source = .literal text)
    (idle : component.live? = none) (texts : List String) : Tracks component texts := by
  refine ⟨⟨text, source⟩, ?_, ?_, ?_⟩
  · intro built live
    rw [idle] at live
    cases live
  · intro built live
    rw [idle] at live
    cases live
  · intro active
    rw [isActive_of_idle idle] at active
    cases active

/-- A script that was just built has the text of the configuration. -/
theorem of_built (live : component.live? = some inst)
    (source : component.config.source = .literal inst.source) : Tracks component [] := by
  refine ⟨⟨inst.source, source⟩, ?_, ?_, fun _ none_edited => absurd rfl none_edited⟩
  · intro built same
    rw [live] at same
    cases same
    exact source
  · intro built _
    exact .singleton built

/-- Nothing else of a component counts. -/
theorem congr {other : Component} (h : Tracks component texts)
    (source : other.config.source = component.config.source)
    (live : other.live?.map Instance.source = component.live?.map Instance.source)
    (waits : component.isReloadPending = true → other.isReloadPending = true) :
    Tracks other texts := by
  have active : other.isActive = component.isActive := by
    rw [isActive, isActive, ← Option.isSome_map, live, Option.isSome_map]
  refine ⟨?_, ?_, ?_, ?_⟩
  · rw [source]
    exact h.isLiteral
  · rw [source, live]
    exact h.text_of_live
  · rw [live]
    exact h.chain_of_live
  · intro live edited
    rw [active] at live
    exact waits (h.waits_of_live live edited)

theorem of_sameLife {other : Component} (h : Tracks component texts)
    (same : SameLife component other) : Tracks other texts := by
  obtain ⟨live?, journal, rfl, rel⟩ := same
  refine h.congr rfl ?_ id
  change live?.map Instance.source = component.live?.map Instance.source
  generalize component.live? = before at rel
  cases rel with
  | none => rfl
  | some same => exact congrArg some same.source_eq

end Tracks

/-! ## Parts of operations -/

/-- A script is built when none is live. -/
theorem tracks_ensureLive (h : Tracks component texts) :
    ensureLive.Yields files component fun _ other =>
      Tracks other (if component.isActive then texts else []) := by
  obtain ⟨text, source⟩ := h.isLiteral
  cases live : component.live? with
  | some inst =>
    refine yields_bind (yields_get ?_)
    rw [isActive_of_live live]
    exact yields_pure h
  | none =>
    rw [isActive_of_idle live]
    refine (yields_ensureLive_idle files live).mono ?_
    intro _ other made
    split at made
    · next fresh built =>
      -- A build takes the text of the configuration, so that no edit is left over.
      obtain ⟨_, journal, rfl⟩ := made
      have loaded := load_of_rebuilt built
      rw [source] at loaded
      refine .of_built rfl ?_
      rw [← Except.ok.inj loaded]
      exact source
    · obtain ⟨_, journal, rfl⟩ := made
      exact .of_idle (by exact source) (by exact live) _

theorem tracks_restore (h : Tracks component texts) :
    restore.Yields files component fun _ other => Tracks other texts := by
  refine yields_bind (yields_get ?_)
  split
  · exact yields_pure h
  · next inst live =>
    refine yields_bind (yields_modify (yields_bind (yields_onInstance ?_)))
    refine yields_bind (yields_modify (yields_note (h.congr rfl ?_ id)))
    have same := (Instance.silent_restoreVariables component.snapshot).steady inst
    rw [live]
    exact congrArg some same.source_eq

/-- Telling the script something, as the last part of an operation. -/
theorem tracks_dispatchEvent (h : Tracks component texts) (tag : String) :
    (dispatchEvent tag >>= fun _ => (pure (.ok ()) : Action (Except Error Unit))).Yields files
      component fun _ other => Tracks other texts := by
  refine yields_bind ((yields_dispatch tag [] files component).mono fun _ _ same => ?_)
  exact yields_pure (h.of_sameLife same)

theorem tracks_awake (h : Tracks component texts) :
    awake.Yields files component fun _ other =>
      Tracks other (if component.isActive then texts else []) := by
  refine yields_bind ((tracks_ensureLive h).mono ?_)
  intro result other built
  cases result with
  | error error => exact yields_pure built
  | ok _ =>
    exact tracks_dispatchEvent built awakeTag

theorem tracks_enable (h : Tracks component texts) :
    enable.Yields files component fun _ other =>
      Tracks other (if component.isActive then texts else []) := by
  refine yields_bind ((tracks_ensureLive h).mono ?_)
  intro result other built
  cases result with
  | error error => exact yields_pure built
  | ok _ =>
    refine yields_bind ((tracks_restore built).mono fun _ restored given => ?_)
    exact tracks_dispatchEvent given enableTag

/-- Whatever was live, what is live after a reload was built by it. -/
theorem tracks_reload {text : String} (source : component.config.source = .literal text) :
    reload.Yields files component fun _ other => Tracks other [] := by
  refine yields_bind (yields_get (yields_bind (yields_note ?_)))
  refine yields_bind ((yields_disable files _).mono ?_)
  rintro _ other ⟨idle, config⟩
  have torn : Tracks other [] := .of_idle (by rw [config]; exact source) idle []
  refine (tracks_enable torn).mono fun _ last enabled => ?_
  rwa [ite_self] at enabled

/-- An update builds a script if one is live and what waits has nothing left to wait for. -/
theorem tracks_update (h : Tracks component texts) (delta : Nat) :
    (update delta).Yields files component fun _ other =>
      Tracks other (if (Operation.update delta).builds component then [] else texts) := by
  obtain ⟨text, source⟩ := h.isLiteral
  by_cases due : component.pendingReload? = some 0
  · cases live : component.live? with
    | none =>
      have inactive : (Operation.update delta).builds component = false := by
        rw [Operation.builds, isActive_of_idle live]
        rfl
      have advanced : (advancePending delta).Yields files component fun result other =>
          result = .ok () ∧ Tracks other texts := by
        refine yields_bind (yields_get ?_)
        rw [due]
        refine yields_bind (yields_modify ?_)
        rw [isActive_of_idle live]
        exact yields_pure ⟨rfl, .of_idle (by exact source) (by exact live) texts⟩
      rw [inactive]
      refine yields_bind (advanced.mono ?_)
      rintro _ other ⟨rfl, idle⟩
      exact tracks_dispatchEvent idle updateTag
    | some inst =>
      have active : (Operation.update delta).builds component = true := by
        rw [Operation.builds, isActive_of_live live, due]
        rfl
      obtain ⟨_, advanced, _⟩ := @advancePending_due files component inst live due delta
      have reloaded : Tracks ((advancePending delta).after files component) [] := by
        rw [advanced]
        exact tracks_reload (by exact source)
      rw [active, if_pos rfl]
      refine yields_bind (yields_of_eq fun result other _ after_eq => ?_)
      rw [after_eq] at reloaded
      cases result with
      | error error => exact yields_pure reloaded
      | ok _ => exact tracks_dispatchEvent reloaded updateTag
  · have early : (Operation.update delta).builds component = false := by
      simp [Operation.builds, due]
    have counted : Tracks (component.passed delta) texts := by
      refine h.congr rfl rfl fun waits => ?_
      rw [isReloadPending, passed, Option.isSome_map]
      exact waits
    rw [early]
    exact (yields_update_early due files delta).2.mono fun _ _ same => counted.of_sameLife same.2

/-- An edit that changes the text waits. -/
theorem tracks_setSourceText (h : Tracks component texts) (text : String) :
    (setSourceText text).Yields files component fun changed other =>
      Tracks other (texts ++ if changed then [text] else []) := by
  obtain ⟨current, source⟩ := h.isLiteral
  refine yields_bind (yields_get ?_)
  rw [source]
  dsimp only
  split
  · refine yields_pure ?_
    rw [if_neg nofun, List.append_nil]
    exact h
  · next different =>
    refine yields_bind (yields_modify (yields_pure ⟨⟨text, rfl⟩, ?_, ?_, fun _ _ => rfl⟩))
    · intro built _
      rw [if_pos rfl, List.getLast?_concat]
      rfl
    · intro built live
      have last := h.text_of_live built live
      rw [source] at last
      cases last
      rw [if_pos rfl, ← List.cons_append, List.isChain_append]
      -- So far the last text was that of the configuration, and the edit changes it.
      refine ⟨h.chain_of_live built live, .singleton text, ?_⟩
      intro before m after n
      rw [List.getLast?_cons] at m
      cases m
      cases n
      exact different

/-! ## Operations and runs -/

/-- The edits since the last build follow every operation. -/
theorem tracks_after (h : Tracks component texts) (files : FileTree) (operation : Operation) :
    Tracks (operation.after files component)
      (if operation.builds component then [] else texts ++ operation.edits files component) := by
  obtain ⟨text, source⟩ := h.isLiteral
  have unedited : texts ++ [] = texts := List.append_nil texts
  have built : (if !component.isActive then [] else texts)
      = if component.isActive then texts else [] := by
    cases component.isActive <;> rfl
  have told (tag : String) (arguments : List Value) :
      Tracks ((dispatch tag arguments).after files component) texts :=
    h.of_sameLife (yields_dispatch tag arguments files component)
  cases operation with
  | awake =>
    show Tracks _ (if !component.isActive then [] else texts ++ [])
    rw [unedited, built]
    exact tracks_awake h
  | enable =>
    show Tracks _ (if !component.isActive then [] else texts ++ [])
    rw [unedited, built]
    exact tracks_enable h
  | reload => exact tracks_reload source
  | notifySourceModified =>
    show notifySourceModified.Yields files component fun _ other =>
      Tracks other (if component.isActive then [] else texts ++ [])
    refine yields_bind (yields_get ?_)
    split
    · exact tracks_reload source
    · rw [unedited]
      exact yields_pure h
  | update delta =>
    show (update delta).Yields files component fun _ other =>
      Tracks other (if (Operation.update delta).builds component then [] else texts ++ [])
    rw [unedited]
    exact tracks_update h delta
  | disable =>
    obtain ⟨idle, config⟩ := yields_disable files component
    exact .of_idle (config ▸ source) idle _
  | setSourceText text => exact tracks_setSourceText h text
  | start => exact unedited.symm ▸ told startTag []
  | fixedUpdate => exact unedited.symm ▸ told fixedUpdateTag []
  | dispatch tag arguments => exact unedited.symm ▸ told tag arguments
  | call name arguments =>
    exact unedited.symm ▸ h.of_sameLife (yields_call name arguments files component)
  | bind name value => exact unedited.symm ▸ h.congr rfl rfl id
  | loadSnapshot entries => exact unedited.symm ▸ h.congr rfl rfl id

theorem tracks_run (h : Tracks component texts) (steps : List (FileTree × Operation)) :
    Tracks (run component steps) (editsSince component texts steps) := by
  induction steps generalizing component texts with
  | nil => exact h
  | cons step steps ih => exact ih (tracks_after h step.1 step.2)

/-! ## What ends the waiting -/

/-- The property that a reload waits for so long. -/
def Pending (pendingReload? : Option Nat) (component : Component) : Prop :=
  component.pendingReload? = pendingReload?

section

variable {α : Type} (pendingReload? : Option Nat)

theorem keeps_pending_of_sameLife {action : Action α}
    (h : ∀ files component, action.Yields files component fun _ other => SameLife component other) :
    action.Keeps (Pending pendingReload?) := by
  intro files component pending
  refine (h files component).mono ?_
  rintro _ other ⟨_, _, rfl, _⟩
  exact pending

theorem keeps_pending_dispatchEvent (tag : String) :
    (dispatchEvent tag).Keeps (Pending pendingReload?) :=
  keeps_pending_of_sameLife pendingReload? (yields_dispatch tag [])

theorem keeps_pending_ensureLive : ensureLive.Keeps (Pending pendingReload?) := by
  have build : build.Keeps (Pending pendingReload?) := by
    intro files component pending
    refine (yields_build files component).mono ?_
    rintro _ other ⟨_, _, _, rfl⟩
    exact pending
  refine .bind .get fun component => ?_
  split
  · exact .pure _
  · refine .attempt build (fun _ => rfl) fun inst => ?_
    exact .bind (.modify fun _ pending => pending) fun _ => .pure _

theorem keeps_pending_awake : awake.Keeps (Pending pendingReload?) :=
  .attempt (keeps_pending_ensureLive pendingReload?) (fun _ => rfl) fun _ =>
    .bind (keeps_pending_dispatchEvent pendingReload? awakeTag) fun _ => .pure _

theorem keeps_pending_enable : enable.Keeps (Pending pendingReload?) := by
  have restore : restore.Keeps (Pending pendingReload?) := by
    intro files component pending
    refine yields_bind (yields_get ?_)
    split
    · exact yields_pure pending
    · refine yields_bind (yields_modify (yields_bind (yields_onInstance ?_)))
      exact yields_bind (yields_modify (yields_note pending))
  exact .attempt (keeps_pending_ensureLive pendingReload?) (fun _ => rfl) fun _ =>
    .bind restore fun _ =>
      .bind (keeps_pending_dispatchEvent pendingReload? enableTag) fun _ => .pure _

theorem keeps_pending_disable : disable.Keeps (Pending pendingReload?) := by
  intro files component pending
  refine yields_bind (yields_get ?_)
  split
  · exact yields_pure pending
  · refine yields_bind (yields_modify (yields_bind (yields_onInstance ?_)))
    exact yields_bind (yields_onInstance (yields_bind (yields_modify (yields_note pending))))

theorem keeps_pending_reload : reload.Keeps (Pending pendingReload?) :=
  .bind .get fun _ => .bind (.modify fun _ pending => pending) fun _ =>
    .bind (keeps_pending_disable pendingReload?) fun _ => keeps_pending_enable pendingReload?

end

/-- Nothing but an update that finds nothing left to wait for ends the waiting of a reload: a script
that is built in between does not. -/
theorem isReloadPending_after (waits : component.isReloadPending = true) (files : FileTree)
    (operation : Operation) :
    (operation.after files component).isReloadPending = true
      ∨ component.pendingReload? = some 0 ∧ ∃ delta, operation = .update delta := by
  have kept {other : Component} (pending : Pending component.pendingReload? other) :
      other.isReloadPending = true := by
    rw [isReloadPending, show other.pendingReload? = component.pendingReload? from pending]
    exact waits
  have told (tag : String) (arguments : List Value) :=
    kept (keeps_pending_of_sameLife component.pendingReload? (yields_dispatch tag arguments) files
      component rfl)
  cases operation with
  | awake => exact .inl (kept (keeps_pending_awake _ files component rfl))
  | enable => exact .inl (kept (keeps_pending_enable _ files component rfl))
  | start => exact .inl (told startTag [])
  | update delta =>
    by_cases due : component.pendingReload? = some 0
    · exact .inr ⟨due, delta, rfl⟩
    · obtain ⟨_, _, _, after, _⟩ := (yields_update_early due files delta).2
      refine .inl ?_
      show ((update delta).after files component).isReloadPending = true
      rw [after, isReloadPending, passed, Option.isSome_map]
      exact waits
  | fixedUpdate => exact .inl (told fixedUpdateTag [])
  | disable => exact .inl (kept (keeps_pending_disable _ files component rfl))
  | reload => exact .inl (kept (keeps_pending_reload _ files component rfl))
  | setSourceText text =>
    refine .inl ?_
    show (setSourceText text).Yields files component fun _ other => other.isReloadPending = true
    refine yields_bind (yields_get ?_)
    split
    · exact yields_bind (yields_note (yields_pure waits))
    · split
      · exact yields_pure waits
      · exact yields_bind (yields_modify (yields_pure rfl))
  | notifySourceModified =>
    refine .inl (kept ?_)
    show notifySourceModified.Yields files component fun _ other => Pending _ other
    refine yields_bind (yields_get ?_)
    split
    · exact keeps_pending_reload _ files component rfl
    · exact yields_pure rfl
  | loadSnapshot entries => exact .inl waits
  | bind name value => exact .inl waits
  | dispatch tag arguments => exact .inl (told tag arguments)
  | call name arguments =>
    exact .inl (kept (keeps_pending_of_sameLife component.pendingReload? (yields_call name arguments)
      files component rfl))

/-! ## Live scripts with an old text -/

/-- Whatever was done with a component whose script is part of its configuration, a live script was
built from the text of that time, and the edits since have changed the text to that of now, each to
another one than the one before. So the live script has an old text exactly if there was an edit
since, and the last one has not brought its text back; after a single edit it always has. A reload
waits when there was an edit since. It waits until an update that finds nothing left to wait for,
also when a script was built in between that has the edits already, and that update replaces the
script. -/
theorem outdated_iff {config : Config} {first : String} (source : config.source = .literal first)
    (host : HostFunctions) (steps : List (FileTree × Operation))
    (live : (run (idle config host) steps).live? = some inst) :
    let component := run (idle config host) steps
    let texts := editsSince (idle config host) [] steps
    ∃ current, component.config.source = .literal current
      ∧ current = texts.getLast?.getD inst.source
      ∧ (inst.source :: texts).IsChain (· ≠ ·)
      ∧ (inst.source ≠ current ↔ texts ≠ [] ∧ texts.getLast? ≠ some inst.source)
      ∧ (texts.length = 1 → inst.source ≠ current)
      ∧ (texts ≠ [] → component.isReloadPending = true)
      ∧ (component.isReloadPending = true → ∀ files (operation : Operation),
        (operation.after files component).isReloadPending = true
          ∨ component.pendingReload? = some 0 ∧ ∃ delta, operation = .update delta
            ∧ Renews files delta component inst current) := by
  intro component texts
  have tracks : Tracks component texts := tracks_run (.of_idle source rfl []) steps
  have built : component.live?.map Instance.source = some inst.source :=
    congrArg (Option.map Instance.source) live
  have current := tracks.text_of_live inst.source built
  have chain := tracks.chain_of_live inst.source built
  refine ⟨_, current, rfl, chain, ?_, ?_, ?_, ?_⟩
  · rcases List.eq_nil_or_concat texts with none_edited | ⟨before, last, edited⟩
    · rw [none_edited]
      simp
    · rw [edited, List.concat_eq_append, List.getLast?_concat, Option.getD_some]
      constructor
      · intro old
        exact ⟨by simp, fun same => old (Option.some.inj same).symm⟩
      · rintro ⟨_, other⟩ same
        exact other (congrArg some same.symm)
  · intro one
    obtain ⟨text, edited⟩ := List.length_eq_one_iff.1 one
    rw [edited] at chain ⊢
    exact (List.isChain_pair.1 chain)
  · exact tracks.waits_of_live (isActive_of_live live)
  · intro waits files operation
    rcases isReloadPending_after waits files operation with still | ⟨due, delta, same⟩
    · exact .inl still
    · exact .inr ⟨due, delta, same, renews_of_due live due current files delta⟩

/-- A reload waits, and the live script has the text of the configuration: the one that an explicit
reload has built from an edit, and the one whose edit was taken back. -/
theorem isReloadPending_of_current :
    let reloaded := run (idle { name := "lamp", source := .literal "x = 1" } .empty)
      [(.empty [], .enable), (.empty [], .setSourceText "x = 2"), (.empty [], .reload)]
    let reverted := run (idle { name := "lamp", source := .literal "x = 1" } .empty)
      [(.empty [], .enable), (.empty [], .setSourceText "x = 2"),
        (.empty [], .setSourceText "x = 1")]
    (reloaded.isActive = true ∧ reloaded.isReloadPending = true
        ∧ reloaded.live?.map Instance.source = some "x = 2"
        ∧ reloaded.config.source = .literal "x = 2")
      ∧ reverted.isActive = true ∧ reverted.isReloadPending = true
        ∧ reverted.live?.map Instance.source = some "x = 1"
        ∧ reverted.config.source = .literal "x = 1" := by
  decide +kernel

/-- A script that was edited once since it was woken has an old text, and a reload waits. -/
theorem outdated_iff_of_lamp :
    let steps := [(FileTree.empty [], Operation.awake), (.empty [], .setSourceText "x = 2")]
    let lamp := run (idle { name := "lamp", source := .literal "x = 1" } .empty) steps
    ∃ inst, lamp.live? = some inst ∧ inst.source = "x = 1"
      ∧ lamp.config.source = .literal "x = 2" ∧ lamp.isReloadPending = true
      ∧ inst.source ≠ "x = 2" := by
  intro steps lamp
  have ran : lamp.live?.map Instance.source = some "x = 1"
      ∧ lamp.config.source = .literal "x = 2"
      ∧ editsSince (idle { name := "lamp", source := .literal "x = 1" } .empty) [] steps
        = ["x = 2"] := by
    decide +kernel
  obtain ⟨built, current, texts⟩ := ran
  obtain ⟨inst, live, text⟩ := Option.map_eq_some_iff.1 built
  obtain ⟨_, source, _, _, _, single, waits, _⟩ := outdated_iff rfl .empty steps live
  rw [texts] at single waits
  cases current.symm.trans source
  exact ⟨inst, live, text, current, waits (by simp), single rfl⟩

end ScriptHost.Component
