import Mathlib.Algebra.GroupWithZero.Nat
import ScriptHost.Proofs.Component.Stations

/-!
# The countdown of an edit

An edit of a live script waits for some time, which the updates count. The update that finds nothing
left of it replaces the script, before it tells it anything. Until then the old script goes on, and
afterwards nothing waits. In the editor there is nothing to wait for, so that the next update does
it. The unit of time plays no part in this.

* `Component.Bide` : operations that leave the countdown to itself.
* `Component.Lasts` : all through some operations the live script goes on.
* `Component.lasts_of_bide` : it does as long as no update finds nothing left to wait for.
* `Component.Renews`, `Component.renews_of_due` : the update that replaces the script.
* `Component.edit_counts_down` : which update that is.
-/

namespace ScriptHost.Component

variable {files : FileTree} {component : Component} {old inst : Instance}

/-! ## Time that passes -/

/-- The time that an operation lets pass. -/
def Operation.delta? : Operation → Option Nat
  | update delta => some delta
  | _ => none

/-- The times that some operations let pass. -/
def deltas (steps : List (FileTree × Operation)) : List Nat :=
  steps.filterMap fun step => step.2.delta?

/-- So many of the times, and no fewer, are as long together as a delay. -/
def Reaches (delay : Nat) (times : List Nat) (count : Nat) : Prop :=
  delay ≤ (times.take count).sum ∧ ∀ fewer < count, (times.take fewer).sum < delay

theorem sum_deltas_cons (step : FileTree × Operation) (steps : List (FileTree × Operation)) :
    (deltas (step :: steps)).sum = step.2.delta?.getD 0 + (deltas steps).sum := by
  unfold deltas
  rw [List.filterMap_cons]
  cases step.2.delta? with
  | none => simp
  | some delta => simp

/-- When no number of times below a bound is the first to reach a delay, none reaches it. -/
theorem sum_lt_of_not_reaches {delay bound : Nat} {times : List Nat}
    (none_reaches : ∀ count < bound, ¬Reaches delay times count) :
    ∀ count < bound, (times.take count).sum < delay := by
  intro count
  induction count using Nat.strongRecOn with
  | _ count earlier =>
    intro below
    -- One that reaches the delay would be the first, as none below it does.
    refine Nat.lt_of_not_le fun reached => none_reaches count below ⟨reached, ?_⟩
    intro fewer less
    exact earlier fewer less (Nat.lt_trans less below)

/-- Every one of the times is that of an update, with as many updates before it. -/
theorem exists_update {steps : List (FileTree × Operation)} {count : Nat}
    (there : count < (deltas steps).length) :
    ∃ front later delta back, steps = front ++ (later, .update delta) :: back
      ∧ deltas front = (deltas steps).take count := by
  induction steps generalizing count with
  | nil => cases there
  | cons step steps ih =>
    obtain ⟨first, operation⟩ := step
    cases passes : operation.delta? with
    | none =>
      -- The first operation is no update and counts for nothing.
      have same : deltas ((first, operation) :: steps) = deltas steps :=
        List.filterMap_cons_none passes
      rw [same] at there ⊢
      obtain ⟨front, later, delta, back, rfl, before⟩ := ih there
      refine ⟨(first, operation) :: front, later, delta, back, rfl, ?_⟩
      rw [← before]
      exact List.filterMap_cons_none passes
    | some delta =>
      have more : deltas ((first, operation) :: steps) = delta :: deltas steps :=
        List.filterMap_cons_some passes
      rw [more] at there ⊢
      cases count with
      | zero =>
        cases operation with
        | update delta => exact ⟨[], first, delta, steps, rfl, rfl⟩
        | _ => cases passes
      | succ count =>
        obtain ⟨front, later, last, back, rfl, before⟩ := ih (Nat.lt_of_succ_lt_succ there)
        refine ⟨(first, operation) :: front, later, last, back, rfl, ?_⟩
        rw [List.take_succ_cons, ← before]
        exact List.filterMap_cons_some passes

/-! ## Operations that bide -/

/-- An operation that leaves a live script and the countdown to themselves: it calls the script,
lets time pass, binds a name, or is an edit that changes nothing. -/
def Operation.Bides (files : FileTree) (component : Component) : Operation → Prop
  | start | update _ | fixedUpdate | bind .. | dispatch .. | call .. => True
  | setSourceText text => (Component.setSourceText text).result files component = false
  | awake | enable | disable | reload | notifySourceModified | loadSnapshot _ => False

/-- Such operations, one after the other. -/
def Bide (component : Component) : List (FileTree × Operation) → Prop
  | [] => True
  | step :: steps => step.2.Bides step.1 component ∧ Bide (step.2.after step.1 component) steps

theorem bide_append {first second : List (FileTree × Operation)} :
    Bide component (first ++ second)
      ↔ Bide component first ∧ Bide (run component first) second := by
  induction first generalizing component with
  | nil => exact (iff_of_eq (true_and _)).symm
  | cons step first ih =>
    rw [List.cons_append, Bide, ih, Bide, and_assoc]
    rfl

theorem rel_sameBuild_refl (live? : Option Instance) :
    Option.Rel Instance.SameBuild live? live? := by
  cases live? with
  | none => exact .none
  | some inst => exact .some (.refl inst)

theorem rel_sameBuild_trans {first second third : Option Instance}
    (h : Option.Rel Instance.SameBuild first second)
    (k : Option.Rel Instance.SameBuild second third) :
    Option.Rel Instance.SameBuild first third := by
  cases h with
  | none => exact k
  | some h =>
    cases k with
    | some k => exact .some (h.trans k)

/-- Between the two states the live script was called, time passed and names were bound, and nothing
else happened. -/
def GoesOn (component other : Component) : Prop :=
  ∃ live? bindings pendingReload? journal,
    other = { component with live?, bindings, pendingReload?, journal }
      ∧ Option.Rel Instance.SameBuild component.live? live?

namespace GoesOn

theorem of_sameLife {other : Component} (h : SameLife component other) : GoesOn component other := by
  obtain ⟨live?, journal, rfl, rel⟩ := h
  exact ⟨live?, _, _, journal, rfl, rel⟩

theorem refl (component : Component) : GoesOn component component := of_sameLife (.refl component)

theorem trans {middle last : Component} (h : GoesOn component middle) (k : GoesOn middle last) :
    GoesOn component last := by
  obtain ⟨_, _, _, _, rfl, first⟩ := h
  obtain ⟨live?, bindings, pendingReload?, journal, rfl, second⟩ := k
  exact ⟨live?, bindings, pendingReload?, journal, rfl, rel_sameBuild_trans first second⟩

/-- A script that goes on is live. -/
theorem exists_live {other : Component} (h : GoesOn component other)
    (live : component.live? = some old) :
    ∃ inst, other.live? = some inst ∧ Instance.SameBuild old inst := by
  obtain ⟨live?, _, _, _, rfl, rel⟩ := h
  rw [live] at rel
  cases rel with
  | some same => exact ⟨_, rfl, same⟩

end GoesOn

/-- Calls of the live script exchange no variables. -/
theorem quiet_tellings (tag : String) (arguments : List Value) (component : Component) :
    ∀ happening ∈ tellings tag arguments component, happening.exchanges = false := by
  intro happening m
  obtain ⟨inst, _, rfl⟩ := List.mem_map.1 m
  rfl

/-- A component after some time has passed. -/
def passed (component : Component) (time : Nat) : Component :=
  { component with pendingReload? := component.pendingReload?.map (· - time) }

/-- When an edit still has to wait, or none does, an update counts the time and tells the script. -/
theorem yields_update_early (early : component.pendingReload? ≠ some 0) (files : FileTree)
    (delta : Nat) :
    Operation.history files component (.update delta)
        = tellings updateTag [] (component.passed delta)
      ∧ (update delta).Yields files component fun result other =>
        result = .ok () ∧ SameLife (component.passed delta) other := by
  have advanced : (advancePending delta).Yields files component fun result other =>
      result = .ok () ∧ other = component.passed delta := by
    refine yields_bind (yields_get ?_)
    unfold passed
    split
    · next none_waits =>
      refine yields_pure ⟨rfl, ?_⟩
      cases component
      cases none_waits
      rfl
    · next due => exact absurd due early
    · next remaining waiting =>
      refine yields_bind (yields_modify (yields_pure ⟨rfl, ?_⟩))
      rw [waiting]
      rfl
  have none_due : advancings files component = [] := by
    unfold advancings
    split
    · next due => exact absurd due early
    · rfl
  obtain ⟨result, after, happened⟩ := update_of_advanced advanced.1
  rw [advanced.2] at after happened
  rw [none_due] at happened
  refine ⟨happened, result, ?_⟩
  rw [after]
  exact yields_dispatch updateTag [] files (component.passed delta)

/-- An operation that bides lets the live script go on, and time pass, unless it is an update that
finds nothing left to wait for. -/
theorem goesOn_after {operation : Operation} (bides : operation.Bides files component)
    (early : operation.delta? ≠ none → component.pendingReload? ≠ some 0) :
    GoesOn component (operation.after files component)
      ∧ (operation.after files component).pendingReload?
        = component.pendingReload?.map (· - operation.delta?.getD 0)
      ∧ ∀ happening ∈ operation.history files component, happening.exchanges = false := by
  have no_time : component.pendingReload?.map (· - 0) = component.pendingReload? := by
    cases component.pendingReload? <;> rfl
  have told {other : Component} (same : SameLife component other) :
      GoesOn component other
        ∧ other.pendingReload? = component.pendingReload?.map (· - 0) := by
    refine ⟨.of_sameLife same, ?_⟩
    obtain ⟨_, _, rfl, _⟩ := same
    exact no_time.symm
  have dispatched (tag : String) (arguments : List Value) :=
    told (yields_dispatch tag arguments files component)
  cases operation with
  | start =>
    obtain ⟨goesOn, pending⟩ := dispatched startTag []
    exact ⟨goesOn, pending, quiet_tellings _ _ _⟩
  | fixedUpdate =>
    obtain ⟨goesOn, pending⟩ := dispatched fixedUpdateTag []
    exact ⟨goesOn, pending, quiet_tellings _ _ _⟩
  | dispatch tag arguments =>
    obtain ⟨goesOn, pending⟩ := dispatched tag arguments
    exact ⟨goesOn, pending, quiet_tellings _ _ _⟩
  | call name arguments =>
    obtain ⟨goesOn, pending⟩ := told (yields_call name arguments files component)
    refine ⟨goesOn, pending, ?_⟩
    intro happening m
    obtain ⟨inst, _, rfl⟩ := List.mem_map.1 m
    rfl
  | bind name value =>
    exact ⟨⟨_, _, _, _, rfl, rel_sameBuild_refl component.live?⟩, no_time.symm, nofun⟩
  | update delta =>
    obtain ⟨happened, _, same⟩ := yields_update_early (early nofun) files delta
    have counted : GoesOn component (component.passed delta) :=
      ⟨_, _, _, _, rfl, rel_sameBuild_refl component.live?⟩
    refine ⟨counted.trans (.of_sameLife same), ?_, ?_⟩
    · obtain ⟨_, _, after, _⟩ := same
      exact congrArg Component.pendingReload? after
    · rw [happened]
      exact quiet_tellings _ _ _
  | setSourceText text =>
    have ignored : (setSourceText text).Yields files component fun result other =>
        result = false → GoesOn component other
          ∧ other.pendingReload? = component.pendingReload?.map (· - 0) := by
      refine yields_bind (yields_get ?_)
      split
      · refine yields_bind (yields_note (yields_pure fun _ => ⟨?_, no_time.symm⟩))
        exact ⟨_, _, _, _, rfl, rel_sameBuild_refl component.live?⟩
      · split
        · exact yields_pure fun _ => ⟨.refl component, no_time.symm⟩
        · exact yields_bind (yields_modify (yields_pure nofun))
    obtain ⟨goesOn, pending⟩ := ignored bides
    exact ⟨goesOn, pending, nofun⟩
  | _ => cases bides

/-! ## While a script goes on -/

/-- All through some operations the live script goes on, if there is one. An edit that waits has so
much left to wait for as the updates have not counted yet. No variables are taken from a script or
given to one, and no update fails. -/
structure Lasts (component : Component) (steps : List (FileTree × Operation)) : Prop where
  goesOn : ∀ front, front <+: steps → GoesOn component (run component front)
  pendingReload?_eq : ∀ front, front <+: steps →
    (run component front).pendingReload?
      = component.pendingReload?.map (· - (deltas front).sum)
  quiet : ∀ happening ∈ history component steps, happening.exchanges = false
  result_eq : ∀ front later delta, front ++ [(later, .update delta)] <+: steps →
    (update delta).result later (run component front) = .ok ()

/-- What waits goes on waiting, and nothing else does. -/
theorem Lasts.isReloadPending_eq {steps front : List (FileTree × Operation)}
    (h : Lasts component steps) (within : front <+: steps) :
    (run component front).isReloadPending = component.isReloadPending := by
  rw [isReloadPending, h.pendingReload?_eq front within, Option.isSome_map]
  rfl

theorem lasts_nil (component : Component) : Lasts component [] := by
  refine ⟨?_, ?_, nofun, ?_⟩
  · intro front within
    rw [List.prefix_nil.1 within]
    exact .refl component
  · intro front within
    rw [List.prefix_nil.1 within]
    show component.pendingReload? = component.pendingReload?.map (· - 0)
    cases component.pendingReload? <;> rfl
  · intro front later delta within
    exact absurd (List.prefix_nil.1 within) (List.append_ne_nil_of_right_ne_nil front nofun)

theorem lasts_cons {step : FileTree × Operation} {steps : List (FileTree × Operation)}
    (bides : step.2.Bides step.1 component)
    (early : step.2.delta? ≠ none → component.pendingReload? ≠ some 0)
    (rest : Lasts (step.2.after step.1 component) steps) : Lasts component (step :: steps) := by
  obtain ⟨goesOn, pending, quiet⟩ := goesOn_after bides early
  refine ⟨?_, ?_, ?_, ?_⟩
  · intro front within
    cases front with
    | nil => exact .refl component
    | cons first front =>
      obtain ⟨rfl, inner⟩ := List.cons_prefix_cons.1 within
      exact goesOn.trans (rest.goesOn front inner)
  · intro front within
    cases front with
    | nil => exact (lasts_nil component).pendingReload?_eq [] List.nil_prefix
    | cons first front =>
      obtain ⟨rfl, inner⟩ := List.cons_prefix_cons.1 within
      have later := rest.pendingReload?_eq front inner
      rw [pending, Option.map_map] at later
      rw [sum_deltas_cons]
      refine later.trans (congrArg (component.pendingReload?.map ·) (funext fun left => ?_))
      exact Nat.sub_sub left _ _
  · intro happening m
    rcases List.mem_append.1 m with m | m
    · exact quiet happening m
    · exact rest.quiet happening m
  · intro front later delta within
    cases front with
    | nil =>
      obtain ⟨rfl, _⟩ := List.cons_prefix_cons.1 within
      exact (yields_update_early (early nofun) later delta).2.1
    | cons first front =>
      obtain ⟨rfl, inner⟩ := List.cons_prefix_cons.1 within
      exact rest.result_eq front later delta inner

/-- When every update finds time left to wait for, or nothing that waits, operations that bide let
the live script go on. -/
theorem lasts_of_bide {steps : List (FileTree × Operation)} (bide : Bide component steps)
    (early : ∀ delay, component.pendingReload? = some delay →
      ∀ count < (deltas steps).length, ((deltas steps).take count).sum < delay) :
    Lasts component steps := by
  induction steps generalizing component with
  | nil => exact lasts_nil component
  | cons step steps ih =>
    obtain ⟨bides, bide⟩ := bide
    -- Before the first update no time was counted, so that all of the delay is left.
    have early_first : step.2.delta? ≠ none → component.pendingReload? ≠ some 0 := by
      intro passes due
      obtain ⟨delta, passes⟩ := Option.ne_none_iff_exists'.1 passes
      have more : deltas (step :: steps) = delta :: deltas steps :=
        List.filterMap_cons_some passes
      have left := early 0 due 0 (by simp [more])
      exact Nat.lt_irrefl 0 left
    refine lasts_cons bides early_first (ih bide ?_)
    rw [(goesOn_after bides early_first).2.1]
    -- What is left after the first step is enough for the times of the others.
    intro left waiting count below
    obtain ⟨delay, waits, rfl⟩ := Option.map_eq_some_iff.1 waiting
    cases passes : step.2.delta? with
    | none =>
      have same : deltas (step :: steps) = deltas steps := List.filterMap_cons_none passes
      rw [same] at early
      exact early delay waits count below
    | some delta =>
      have more : deltas (step :: steps) = delta :: deltas steps :=
        List.filterMap_cons_some passes
      rw [more] at early
      have sum := early delay waits (count + 1) (Nat.succ_lt_succ below)
      rw [List.take_succ_cons, List.sum_cons] at sum
      exact Nat.lt_sub_of_add_lt (by rw [Nat.add_comm]; exact sum)

/-! ## The update that replaces the script -/

/-- On an update, the live script is told that it is off, its variables are captured, and a build
from the text is attempted. When that goes well, the new script is given the variables and told that
it is on, and only then told that time has passed. When it fails, the update gives the error, and
no script is live. In either case nothing waits any longer. -/
structure Renews (files : FileTree) (delta : Nat) (component : Component) (inst : Instance)
    (text : String) : Prop where
  pendingReload?_eq : ((update delta).after files component).pendingReload? = none
  of_ok : ∀ fresh, build.result files component = .ok fresh →
    fresh.source = text
      ∧ (update delta).result files component = .ok ()
      ∧ Operation.history files component (.update delta)
        = [.told inst disableTag [],
          .captured (component.toldOff inst) (component.lastVariables inst),
          .restored fresh (component.lastVariables inst),
          .told (fresh.given (component.lastVariables inst)) enableTag [],
          .told ((fresh.given (component.lastVariables inst)).told component.config.isEditor
            enableTag) updateTag []]
      ∧ ((update delta).after files component).live?
        = some (((fresh.given (component.lastVariables inst)).told component.config.isEditor
            enableTag).told component.config.isEditor updateTag)
  of_error : ∀ error, build.result files component = .error error →
    (update delta).result files component = .error error
      ∧ Operation.history files component (.update delta)
        = [.told inst disableTag [],
          .captured (component.toldOff inst) (component.lastVariables inst)]
      ∧ ((update delta).after files component).live? = none

/-- An update that finds nothing left to wait for replaces the live script. -/
theorem renews_of_due {text : String} (live : component.live? = some inst)
    (due : component.pendingReload? = some 0) (source : component.config.source = .literal text)
    (files : FileTree) (delta : Nat) : Renews files delta component inst text := by
  have build_eq := (yields_build files component).1
  let settled : Component := { component with pendingReload? := none }
  have live_settled : settled.live? = some inst := live
  obtain ⟨advanced_result, advanced_after, advanced_history⟩ :=
    @advancePending_due files component inst live due delta
  cases built : rebuilt files component.config component.bindings component.host with
  | error error =>
    obtain ⟨happened, result, journal, after⟩ :=
      yields_rebuild_failing (.update delta) live due built
    change (update delta).after files component = _ at after
    refine ⟨?_, ?_, ?_⟩
    · rw [after]
      rfl
    · intro fresh given
      rw [build_eq, built] at given
      cases given
    · intro other given
      rw [build_eq, built] at given
      cases given
      exact ⟨result, happened, congrArg Component.live? after⟩
  | ok fresh =>
    obtain ⟨happened, reload_result, journal, reload_after⟩ :=
      yields_reload_building live_settled built
    rw [reload_result] at advanced_result
    rw [reload_after] at advanced_after
    -- The new script is live before it is told that time has passed.
    have reached := congrArg Component.live? advanced_after
    obtain ⟨last, told⟩ := yields_dispatchEvent_live files reached updateTag
    obtain ⟨result, after, told_history⟩ := update_of_advanced advanced_result
    rw [told, advanced_after] at after
    refine ⟨?_, ?_, ?_⟩
    · rw [after]
    · intro other given
      rw [build_eq, built] at given
      cases given
      refine ⟨?_, result, ?_, ?_⟩
      · have loaded := load_of_rebuilt built
        rw [source] at loaded
        exact (Except.ok.inj loaded).symm
      · rw [told_history, advanced_history, happened, tellings_live reached]
        rfl
      · rw [after]
        rfl
    · intro error given
      rw [build_eq, built] at given
      cases given

/-! ## Edits -/

/-- As long as the updates have not reached the delay before the last of them, the live script goes
on. -/
theorem lasts_of_not_reaches {delay : Nat} {steps : List (FileTree × Operation)}
    (waits : component.pendingReload? = some delay) (bide : Bide component steps)
    (none_reaches : ∀ count < (deltas steps).length, ¬Reaches delay (deltas steps) count) :
    Lasts component steps := by
  refine lasts_of_bide bide fun given waiting => ?_
  rw [waits] at waiting
  cases waiting
  exact sum_lt_of_not_reaches none_reaches

/-- The first update after the delay was reached replaces the script. Before and after it, a script
that is live goes on. -/
theorem renews_of_reaches {delay count : Nat} {text : String} {steps : List (FileTree × Operation)}
    (live : component.live? = some old) (waits : component.pendingReload? = some delay)
    (source : component.config.source = .literal text) (bide : Bide component steps)
    (there : count < (deltas steps).length) (reaches : Reaches delay (deltas steps) count) :
    ∃ front later delta back inst, steps = front ++ (later, .update delta) :: back
      ∧ (deltas front).length = count
      ∧ Lasts component front
      ∧ (run component front).live? = some inst ∧ Instance.SameBuild old inst
      ∧ Renews later delta (run component front) inst text
      ∧ Lasts ((update delta).after later (run component front)) back := by
  obtain ⟨reached, earlier⟩ := reaches
  obtain ⟨front, later, delta, back, split, before⟩ := exists_update there
  have length : (deltas front).length = count := by
    rw [before, List.length_take_of_le (Nat.le_of_lt there)]
  rw [split] at bide
  obtain ⟨bide_front, _, bide_back⟩ := bide_append.1 bide
  have lasts_front : Lasts component front := by
    refine lasts_of_bide bide_front fun given waiting fewer less => ?_
    rw [waits] at waiting
    cases waiting
    rw [length] at less
    rw [before, List.take_take, Nat.min_eq_left (Nat.le_of_lt less)]
    exact earlier fewer less
  have goesOn := lasts_front.goesOn front (List.prefix_refl front)
  obtain ⟨inst, live_front, same⟩ := goesOn.exists_live live
  have source_front : (run component front).config.source = .literal text := by
    obtain ⟨_, _, _, _, other, _⟩ := goesOn
    rw [other]
    exact source
  -- What was left to wait for when the delay was reached is nothing.
  have due : (run component front).pendingReload? = some 0 := by
    rw [lasts_front.pendingReload?_eq front (List.prefix_refl front), waits, before, Option.map_some,
      Nat.sub_eq_zero_of_le reached]
  have renews := renews_of_due live_front due source_front later delta
  have lasts_back : Lasts ((update delta).after later (run component front)) back := by
    refine lasts_of_bide bide_back fun given waiting => ?_
    change ((update delta).after later (run component front)).pendingReload? = some given at waiting
    rw [renews.pendingReload?_eq] at waiting
    cases waiting
  exact ⟨front, later, delta, back, inst, split, length, lasts_front, live_front, same, renews,
    lasts_back⟩

/-- When the text of a live script is changed, the change waits. Whatever waited before, it has the
whole delay of the configuration to wait for: none in the editor. Then operations that bide let the
old script go on with the edit waiting, as long as the updates have not reached the delay before the
last of them. If they have, the first update that comes after that replaces the script: it is the
only one that does, and afterwards nothing waits. -/
theorem edit_counts_down {current text : String} (live : component.live? = some old)
    (source : component.config.source = .literal current) (changed : current ≠ text)
    (files : FileTree) :
    (setSourceText text).Yields files component fun scheduled edited =>
      scheduled = true
        ∧ edited = { component with
            config := { component.config with source := .literal text }
            pendingReload? := some (editDelay component.config) }
        ∧ ∀ steps, Bide edited steps →
          ((∀ count < (deltas steps).length,
              ¬Reaches (editDelay component.config) (deltas steps) count) →
            Lasts edited steps
              ∧ ∀ front, front <+: steps → (run edited front).isReloadPending = true)
          ∧ ∀ count < (deltas steps).length,
            Reaches (editDelay component.config) (deltas steps) count →
              ∃ front later delta back inst, steps = front ++ (later, .update delta) :: back
                ∧ (deltas front).length = count
                ∧ Lasts edited front
                ∧ (∀ before, before <+: front → (run edited before).isReloadPending = true)
                ∧ (run edited front).live? = some inst ∧ Instance.SameBuild old inst
                ∧ Renews later delta (run edited front) inst text
                ∧ Lasts ((update delta).after later (run edited front)) back
                ∧ ∀ since, since <+: back →
                  (run ((update delta).after later (run edited front)) since).isReloadPending
                    = false := by
  refine yields_bind (yields_get ?_)
  rw [source]
  dsimp only
  rw [if_neg changed]
  refine yields_bind (yields_modify (yields_pure ⟨rfl, rfl, fun steps bide => ⟨?_, ?_⟩⟩))
  · intro none_reaches
    have lasts := lasts_of_not_reaches rfl bide none_reaches
    exact ⟨lasts, fun front within => lasts.isReloadPending_eq within⟩
  · intro count there reaches
    obtain ⟨front, later, delta, back, inst, split, length, before, live_front, same, renews,
      after⟩ := renews_of_reaches (by exact live) rfl rfl bide there reaches
    refine ⟨front, later, delta, back, inst, split, length, before, ?_, live_front, same, renews,
      after, ?_⟩
    · exact fun start within => before.isReloadPending_eq within
    · intro since within
      rw [after.isReloadPending_eq within, isReloadPending, renews.pendingReload?_eq]
      rfl

/-- An edit that has 100 milliseconds to wait for is still waiting after two updates of 60, and the
third one replaces the script. -/
theorem edit_counts_down_of_lamp :
    let lamp := run
      (idle { name := "lamp", source := .literal "x = 1", reloadDebounce := 100 } .empty)
      [(.empty [], .awake)]
    let edited := (setSourceText "x = 2").after (.empty []) lamp
    let frame := Operation.update (60 * millisecond)
    let steps := [(FileTree.empty [], frame), (.empty [], frame), (.empty [], .fixedUpdate),
      (.empty [], frame), (.empty [], frame)]
    ∃ front later delta back inst, steps = front ++ (later, .update delta) :: back
      ∧ (deltas front).length = 2
      ∧ (run edited front).live? = some inst ∧ inst.source = "x = 1"
      ∧ (run edited front).isReloadPending = true
      ∧ Renews later delta (run edited front) inst "x = 2"
      ∧ Lasts ((update delta).after later (run edited front)) back := by
  intro lamp edited frame steps
  have woken : (lamp.live?.map Instance.source = some "x = 1")
      ∧ lamp.config.source = .literal "x = 1" ∧ lamp.config.reloadDebounce = 100
      ∧ lamp.config.isEditor = false := by
    decide +kernel
  obtain ⟨built, source, debounce, playing⟩ := woken
  obtain ⟨old, live, text⟩ := Option.map_eq_some_iff.1 built
  have delay : editDelay lamp.config = 100 * millisecond := by
    rw [editDelay, playing, debounce]
    rfl
  have bide : Bide edited steps := ⟨trivial, trivial, trivial, trivial, trivial, trivial⟩
  have changed : "x = 1" ≠ "x = 2" := by decide
  obtain ⟨_, _, counted⟩ := edit_counts_down live source changed (.empty [])
  have reaches : Reaches (editDelay lamp.config) (deltas steps) 2 := by
    rw [delay]
    constructor
    · decide
    · decide
  obtain ⟨front, later, delta, back, inst, split, length, _, pending, live_front, same, renews,
    after, _⟩ := (counted steps bide).2 2 (by decide) reaches
  exact ⟨front, later, delta, back, inst, split, length, live_front, same.source_eq.trans text,
    pending front (List.prefix_refl front), renews, after⟩

end ScriptHost.Component
