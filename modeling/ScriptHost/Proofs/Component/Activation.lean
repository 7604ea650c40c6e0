import ScriptHost.Proofs.Component.History
import ScriptHost.Proofs.Component.Lasting
import ScriptHost.Proofs.Instance.Registered
import ScriptHost.Proofs.Script.Writes

/-!
# What a script finds when it is told that it is on

Before an inactive component tells its script that it is on, the top level of the script runs, the
bindings are set, then the exposed variables, and then the captured variables. No function of the
script runs in between, so that of these four the last one that has a name decides on the global of
that name.

* `Instance.given` : an instance after it was given captured variables.
* `Component.yields_enable_idle`, `Component.enablings_idle` : enabling an inactive component.
* `Component.startingValue?` : the value that a global is set to, if it is.
* `Component.written_rebuilt`, `Instance.written_restoreVariables` : what a build sets, and what an
  instance is given.
* `Component.enable_precedence` : the globals of a script that is told that it is on.
-/

namespace ScriptHost

open Script (World)

namespace Instance

variable {inst : Instance}

/-- An instance after it was given captured variables. -/
def given (inst : Instance) (snapshot : Snapshot) : Instance :=
  { ((restoreVariables snapshot).run inst).2 with journal := [] }

theorem tags_given (inst : Instance) (snapshot : Snapshot) :
    (inst.given snapshot).tags = inst.tags :=
  ((silent_restoreVariables snapshot).steady inst).tags_eq

/-! ## Writes to the globals of an instance -/

/-- What is set by a captured variable; one that cannot be decoded sets nothing. -/
def writesOf (snapshot : Snapshot) : List (String × Value) :=
  snapshot.filterMap fun captured => captured.value.toOption.map (captured.name, ·)

/-- What is set by exposed variables. -/
def exposedWrites (values : Entries Json) (exposed : List ExposedVariable) :
    List (String × Value) :=
  exposed.map fun entry => (entry.name, initialValue values entry.name)

variable {world : World} {writes : List (String × Value)}

theorem written_setGlobal (h : World.Written world writes inst.script.world) (name : String)
    (value : Value) :
    (setGlobal name value).Yields inst fun result after =>
      result = .ok () ∧ World.Written world (writes ++ [(name, value)]) after.script.world := by
  refine (yields_setGlobal h.plain name value).mono ?_
  rintro result after ⟨ok, after_eq⟩
  rw [after_eq]
  exact ⟨ok, h.set name value⟩

/-- The bindings are all set, as setting a global goes well. -/
theorem written_setBindings (bindings : Entries Value) {inst : Instance}
    {writes : List (String × Value)} (h : World.Written world writes inst.script.world) :
    (Component.setBindings bindings).Yields inst fun result after =>
      result = .ok () ∧ World.Written world (writes ++ bindings) after.script.world := by
  induction bindings generalizing inst writes with
  | nil =>
    rw [List.append_nil]
    exact yields_pure ⟨rfl, h⟩
  | cons entry rest ih =>
    refine yields_bind ((written_setGlobal h entry.1 entry.2).mono ?_)
    rintro _ after ⟨rfl, h_after⟩
    rw [← List.singleton_append, ← List.append_assoc]
    exact ih h_after

theorem written_setExposed (values : Entries Json) (exposed : List ExposedVariable)
    {inst : Instance} {writes : List (String × Value)}
    (h : World.Written world writes inst.script.world) :
    (setExposed values exposed).Yields inst fun _ after =>
      World.Written world (writes ++ exposedWrites values exposed) after.script.world := by
  induction exposed generalizing inst writes with
  | nil =>
    refine yields_pure ?_
    rw [exposedWrites, List.map_nil, List.append_nil]
    exact h
  | cons entry rest ih =>
    refine yields_bind
      ((written_setGlobal h entry.name (initialValue values entry.name)).mono ?_)
    rintro _ after ⟨rfl, h_after⟩
    rw [exposedWrites, List.map_cons, ← List.singleton_append, ← List.append_assoc]
    exact ih h_after

/-- Tags that name no variable set nothing. -/
theorem yields_noteIncomplete (tags : List String) (inst : Instance) :
    (noteIncomplete tags).Yields inst fun _ after => after.script = inst.script := by
  induction tags generalizing inst with
  | nil => exact yields_pure rfl
  | cons tag rest ih => exact yields_bind (yields_get (yields_bind (yields_note (ih _))))

theorem written_initialiseExposed (values : Entries Json)
    (h : World.Written world writes inst.script.world) :
    (initialiseExposed values).Yields inst fun _ after =>
      World.Written world (writes ++ exposedWrites values (exposedVariables inst.tags.tags))
        after.script.world := by
  refine yields_bind (yields_get (yields_bind ?_))
  refine (yields_noteIncomplete (malformedExposedTags inst.tags.tags) inst).mono ?_
  intro _ noted same
  rw [← same] at h
  refine yields_bind ((written_setExposed values (exposedVariables inst.tags.tags) h).mono ?_)
  intro _ after written
  exact yields_pure written

theorem written_restoreVariables (snapshot : Snapshot) {inst : Instance}
    {writes : List (String × Value)} (h : World.Written world writes inst.script.world) :
    (restoreVariables snapshot).Yields inst fun _ after =>
      World.Written world (writes ++ writesOf snapshot) after.script.world := by
  induction snapshot generalizing inst writes with
  | nil =>
    refine yields_pure ?_
    rw [writesOf, List.filterMap_nil, List.append_nil]
    exact h
  | cons captured rest ih =>
    refine yields_bind ((yields_restoreVariable h.plain captured).mono ?_)
    intro _ after after_eq
    have first : World.Written world
        (writes ++ (captured.value.toOption.map (captured.name, ·)).toList)
        after.script.world := by
      rw [after_eq, restoredInto]
      cases captured.value with
      | error reason =>
        rw [Except.toOption, Option.map_none, Option.toList_none, List.append_nil]
        exact h
      | ok value => exact h.set captured.name value
    refine yields_bind ((ih first).mono fun _ last written => yields_pure ?_)
    have split : writesOf (captured :: rest)
        = (captured.value.toOption.map (captured.name, ·)).toList ++ writesOf rest := by
      unfold writesOf
      rw [List.filterMap_cons]
      cases captured.value.toOption <;> rfl
    rw [split, ← List.append_assoc]
    exact written

end Instance

namespace Component

variable {files : FileTree} {component : Component}

/-! ## Enabling an inactive component -/

/-- An inactive component after it has built an instance and given it the captured variables. -/
def opened (component : Component) (fresh : Instance) (journal : List Event) : Component :=
  { component with
    live? := some (fresh.given component.snapshot)
    snapshot := []
    exposed := exposedVariables fresh.tags.tags
    journal }

/-- An inactive component whose build goes well gives the captured variables to what was built, and
then tells it that it is on. -/
theorem yields_enable_idle {fresh : Instance} (idle : component.live? = none)
    (built : rebuilt files component.config component.bindings component.host = .ok fresh) :
    enable.Yields files component fun result other =>
      result = .ok () ∧ ∃ journal, other
        = (dispatchEvent enableTag).after files (component.opened fresh journal) := by
  have made := yields_ensureLive_idle files idle
  rw [built] at made
  refine yields_bind (made.mono ?_)
  rintro _ other ⟨rfl, journal, rfl⟩
  exact ⟨rfl, _, rfl⟩

/-- The same, as what happens to the instance. -/
theorem enablings_idle {fresh : Instance} (idle : component.live? = none)
    (built : rebuilt files component.config component.bindings component.host = .ok fresh) :
    enablings files component
      = [.restored fresh component.snapshot,
          .told (fresh.given component.snapshot) enableTag []] := by
  have made := yields_ensureLive_idle files idle
  unfold Action.Yields at made
  rw [built] at made
  obtain ⟨result, journal, after⟩ := made
  unfold enablings
  rw [result, after]
  rfl

/-- Telling a script that it is on changes the live instance and the journal only. -/
theorem sameLife_opened (fresh : Instance) (journal : List Event) (files : FileTree) :
    SameLife (component.opened fresh journal)
      ((dispatchEvent enableTag).after files (component.opened fresh journal)) :=
  yields_dispatch enableTag [] files (component.opened fresh journal)

/-! ## What a build sets -/

/-- The script of a component as its top level leaves it. -/
def topLevel (files : FileTree) (component : Component) : Except Error Script.Interpreter := do
  let source ← component.config.source.load files
  (Script.Interpreter.load component.host component.config.name (Source.scan source).source).result

/-- When the top level leaves plain globals, the build goes well and sets the bindings and then the
exposed variables. -/
theorem written_rebuilt {chunk : Script.Interpreter} (left : component.topLevel files = .ok chunk)
    (plain : chunk.world.PlainGlobals) :
    ∃ fresh, rebuilt files component.config component.bindings component.host = .ok fresh
      ∧ World.Written chunk.world
        (component.bindings ++ Instance.exposedWrites component.config.initialValues
          (exposedVariables fresh.tags.tags)) fresh.script.world := by
  unfold topLevel at left
  cases loaded : component.config.source.load files with
  | error error =>
    rw [loaded] at left
    cases left
  | ok source =>
    rw [loaded] at left
    change (Script.Interpreter.load component.host component.config.name
      (Source.scan source).source).result = .ok chunk at left
    obtain ⟨first, built, same_world⟩ : ∃ first,
        (Instance.build component.host component.config.name source).1 = .ok first
          ∧ World.Written chunk.world [] first.script.world := by
      unfold Instance.build
      dsimp only
      rw [left]
      obtain ⟨alike, size⟩ := Registry.alike_build plain.plainReads {}
        (Instance.effectEvents (Script.Interpreter.load component.host component.config.name
          (Source.scan source).source).effects) (Source.scan source).declarations
      exact ⟨_, rfl, .of_alike plain alike size⟩
    have bound := Instance.written_setBindings component.bindings same_world
    obtain ⟨went_well, set⟩ := bound
    rw [List.nil_append] at set
    let ready : Instance := { ((setBindings component.bindings).run first).2 with journal := [] }
    have set_ready : World.Written chunk.world component.bindings ready.script.world := set
    have exposed := Instance.written_initialiseExposed component.config.initialValues set_ready
    have tags := ((Instance.silent_initialiseExposed component.config.initialValues).steady
      ready).tags_eq
    unfold rebuilt
    simp only [loaded, built, went_well, Bind.bind, Except.bind, pure, Except.pure]
    refine ⟨_, rfl, ?_⟩
    dsimp only
    rw [tags]
    exact exposed

/-! ## Which value counts -/

/-- The value that a global is set to before the script is told that it is on: the last captured
variable of that name that can be decoded, or else the configured value if the script exposes the
name, or else what the name is bound to. -/
def startingValue? (component : Component) (exposed : List ExposedVariable) (name : String) :
    Option Value :=
  (component.snapshot.reverse.findSome? fun captured =>
      if captured.name = name then captured.value.toOption else none).or
    ((if exposed.any fun entry => entry.name = name then
        some (Instance.initialValue component.config.initialValues name) else none).or
      (Entries.find? name component.bindings))

/-- The last value that a name is set to. -/
theorem lookup_writes (ordered : component.bindings.Ascending)
    (exposed : List ExposedVariable) (name : String) :
    (component.bindings
        ++ Instance.exposedWrites component.config.initialValues exposed
        ++ Instance.writesOf component.snapshot).reverse.lookup name
      = component.startingValue? exposed name := by
  have captured : (Instance.writesOf component.snapshot).reverse.lookup name
      = component.snapshot.reverse.findSome? fun captured =>
          if captured.name = name then captured.value.toOption else none := by
    unfold Instance.writesOf
    rw [← List.filterMap_reverse]
    exact lookup_filterMap name CapturedVariable.name _ _
  have configured :
      (Instance.exposedWrites component.config.initialValues exposed).reverse.lookup name
        = if exposed.any fun entry => entry.name = name then
            some (Instance.initialValue component.config.initialValues name) else none := by
    unfold Instance.exposedWrites
    rw [← List.map_reverse, ← List.any_reverse]
    exact lookup_map_pair name ExposedVariable.name
      (Instance.initialValue component.config.initialValues) _
  rw [List.reverse_append, List.reverse_append, List.lookup_append, List.lookup_append, captured,
    configured, Entries.lookup_reverse ordered]
  rfl

/-! ## The script that is told that it is on -/

/-- An inactive component whose script leaves a table of globals without a metatable is enabled. The
script that it tells so finds each global as its starting value, and a global that has none as the
top level left it, along with all tables but that of the globals. Afterwards no captured variables
wait, and the exposed variables are those of the tags of the live script. The bindings of a component
are always in order, by `ascending_bindings_run`. -/
theorem enable_precedence {chunk : Script.Interpreter} (idle : component.live? = none)
    (left : component.topLevel files = .ok chunk) (plain : chunk.world.PlainGlobals)
    (ordered : component.bindings.Ascending) :
    enable.Yields files component fun result other =>
      result = .ok () ∧ other.snapshot = []
        ∧ (∃ inst, other.live? = some inst ∧ other.exposed = exposedVariables inst.tags.tags)
        ∧ ∃ fresh seen waiting, build.result files component = .ok fresh
          ∧ enablings files component
            = [.restored fresh component.snapshot, .told seen enableTag []]
          ∧ waiting.live? = some seen ∧ other = (dispatchEvent enableTag).after files waiting
          ∧ seen.tags = fresh.tags ∧ seen.IsPlain
          ∧ (∀ name value,
              component.startingValue? (exposedVariables seen.tags.tags) name = some value →
                seen.script.world.Stored name value)
          ∧ (∀ name, component.startingValue? (exposedVariables seen.tags.tags) name = none →
              seen.script.world.globalNamed name = chunk.world.globalNamed name)
          ∧ ∀ id, id ≠ World.globals → id < chunk.world.tables.size →
              (chunk.world.table id).Alike (seen.script.world.table id) := by
  obtain ⟨fresh, built, set⟩ := written_rebuilt left plain
  have build_eq : build.result files component = .ok fresh :=
    (yields_build files component).1.trans built
  have tags := Instance.tags_given fresh component.snapshot
  have written : World.Written chunk.world
      (component.bindings ++ Instance.exposedWrites component.config.initialValues
          (exposedVariables (fresh.given component.snapshot).tags.tags)
        ++ Instance.writesOf component.snapshot)
      (fresh.given component.snapshot).script.world := by
    rw [tags]
    exact Instance.written_restoreVariables component.snapshot set
  refine (yields_enable_idle idle built).mono ?_
  rintro result other ⟨ok, journal, rfl⟩
  have same_life : SameLife (component.opened fresh journal)
      ((dispatchEvent enableTag).after files (component.opened fresh journal)) :=
    sameLife_opened fresh journal files
  obtain ⟨live?, last, after, rel⟩ := same_life
  refine ⟨ok, ?_, ?_, fresh, fresh.given component.snapshot, component.opened fresh journal,
    build_eq, enablings_idle idle built, rfl, rfl, tags, written.plain, ?_, ?_, written.spared⟩
  · rw [after]
    rfl
  · rw [after]
    change Option.Rel Instance.SameBuild (some (fresh.given component.snapshot)) live? at rel
    cases rel with
    | some same =>
      refine ⟨_, rfl, ?_⟩
      rw [same.tags_eq, tags]
      rfl
  · intro name value starting
    rw [← lookup_writes ordered] at starting
    exact written.stored name value starting
  · intro name absent
    rw [← lookup_writes ordered] at absent
    exact written.kept name absent

/-- A lamp that is told that it is on has the hit points of the last captured entry that is a number,
the speed of its configuration, the name that was bound, and the light of its top level. -/
theorem enable_precedence_of_lamp :
    let lamp := run
      (idle
        { name := "lamp"
          source := .literal "#Exposed number=speed\nspeed, hp, name, lit = 1, 2, 'lamp', true"
          initialValues := [("speed", .integer 4)] } .empty)
      [(.empty [], .bind "speed" (.integer 5)), (.empty [], .bind "hp" (.integer 6)),
        (.empty [], .bind "name" (.string "door")),
        (.empty [], .loadSnapshot [⟨"hp", "lua.integer", "7"⟩, ⟨"hp", "lua.integer", "x"⟩])]
    enable.Yields (.empty []) lamp fun result other =>
      result = .ok () ∧ other.snapshot = []
        ∧ ∃ seen, .told seen enableTag [] ∈ enablings (.empty []) lamp
          ∧ seen.script.world.Stored "hp" (.integer 7)
          ∧ seen.script.world.Stored "speed" (.integer 4)
          ∧ seen.script.world.Stored "name" (.string "door")
          ∧ seen.script.world.globalNamed "lit" = .boolean true := by
  intro lamp
  have top : ∃ chunk, chunk ∈ (lamp.topLevel (.empty [])).toOption
      ∧ (chunk.world.table World.globals).metatable? = none
      ∧ chunk.world.globalNamed "lit" = .boolean true := by
    decide +kernel
  have made : ∃ fresh, fresh ∈ (build.result (.empty []) lamp).toOption
      ∧ exposedVariables fresh.tags.tags = [⟨"number", "speed"⟩] := by
    decide +kernel
  have captured : ∃ value, value ∈ lamp.startingValue? [⟨"number", "speed"⟩] "hp"
      ∧ value.asInteger? = some 7 := by
    decide +kernel
  obtain ⟨chunk, left, plain, lit⟩ := top
  obtain ⟨fresh, built, exposed⟩ := made
  obtain ⟨hp, captured, is_seven⟩ := captured
  have ordered : lamp.bindings.Ascending := ascending_bindings_run _ _ _
  refine (enable_precedence rfl (eq_ok_of_mem_toOption left) plain ordered).mono ?_
  rintro result other ⟨ok, empty, _, first, seen, _, made, told, _, _, tags, _, stored, kept, _⟩
  rw [eq_ok_of_mem_toOption built] at made
  cases made
  rw [tags, exposed] at stored kept
  refine ⟨ok, empty, seen, ?_, ?_, ?_, ?_, ?_⟩
  · rw [told]
    simp
  · cases hp with
    | integer hp =>
      cases is_seven
      exact stored "hp" _ captured
    | _ => cases is_seven
  · exact stored "speed" _ rfl
  · exact stored "name" _ rfl
  · exact (kept "lit" rfl).trans lit

end Component

end ScriptHost
