import ScriptHost.Config
import ScriptHost.Exposed
import ScriptHost.Snapshot

/-!
# Components

A component drives one script through the life of an object of the host. It has one live instance
at most. When the instance is torn down, the globals that the script marks are captured, and the
next instance gets them back.

* `Component.awake`, `Component.enable`, `Component.start`, `Component.update`,
  `Component.fixedUpdate`, `Component.disable` : the stations of the life.
* `Component.reload`, `Component.setSourceText`, `Component.notifySourceModified` : changes of the
  script.
* `Component.dispatch`, `Component.call` : the functions of the live instance.
-/

namespace ScriptHost

/-- A component. -/
structure Component where
  config : Config
  /-- Globals that are set on every build. -/
  bindings : Entries Value := []
  host : HostFunctions := .empty
  live? : Option Instance := none
  snapshot : Snapshot := []
  /-- The exposed variables of the latest build. -/
  exposed : List ExposedVariable := []
  /-- The nanoseconds until an edit makes the script reload. -/
  pendingReload? : Option Nat := none
  /-- What happened since the journal was last taken, the latest first. -/
  journal : List Event := []

namespace Component

/-- An operation on a component, which can read files. -/
abbrev Action := ReaderT FileTree (StateM Component)

/-- The tag of functions that are called when the script is there. -/
def awakeTag : String := "Awake"

/-- The tag of functions that are called when the component is enabled. -/
def enableTag : String := "OnEnable"

/-- The tag of functions that are called once the component starts. -/
def startTag : String := "Start"

/-- The tag of functions that are called whenever time passes. -/
def updateTag : String := "Update"

/-- The tag of functions that are called for every step of fixed length. -/
def fixedUpdateTag : String := "FixedUpdate"

/-- The tag of functions that are called before the script is torn down. -/
def disableTag : String := "OnDisable"

/-- A millisecond. Times are counted in nanoseconds. -/
def millisecond : Nat := 1000000

/-! ## Events and state -/

/-- Adds an event to the journal. -/
def note (event : Event) : Action Unit :=
  modify fun component => { component with journal := event :: component.journal }

/-- Takes the journal, the latest event first. -/
def takeJournal : Action (List Event) := do
  let journal := (← get).journal
  modify fun component => { component with journal := [] }
  return journal

/-- Whether there is a live instance. -/
def isActive (component : Component) : Bool := component.live?.isSome

/-- Whether an edit is waiting to make the script reload. -/
def isReloadPending (component : Component) : Bool := component.pendingReload?.isSome

/-- Runs an operation on an instance that is at hand, and notes what happens. -/
def onInstance {α : Type} (inst : Instance) (action : Instance.Action α) :
    Action (α × Instance) := do
  let (result, after) := action.run inst
  modify fun component => { component with journal := after.journal ++ component.journal }
  return (result, { after with journal := [] })

/-- Runs an operation on the live instance, if there is one. -/
def onLive {α : Type} (action : Instance.Action α) : Action (Option α) := do
  match (← get).live? with
  | none => return none
  | some inst =>
    let (result, after) ← onInstance inst action
    modify fun component => { component with live? := some after }
    return some result

/-! ## Functions -/

/-- The functions with a tag that may be called: those for the editor only in the editor. -/
def handlersOf (editor : Bool) (tags : TagIndex) (tag : String) : List String :=
  (tags.functionsWithTag tag).filter fun name => editor || !tags.hasTag name Tag.editorOnlyToken

/-- Calls the functions of an instance with a tag, and counts those that end without an error. -/
def broadcast (editor : Bool) (tag : String) (arguments : List Value) : Instance.Action Nat := do
  let inst ← get
  Instance.note (.broadcast inst.name tag)
  Instance.callEach arguments (handlersOf editor inst.tags tag)

/-- Calls the functions of the live instance with a tag. -/
def dispatch (tag : String) (arguments : List Value) : Action Nat := do
  let editor := (← get).config.isEditor
  return (← onLive (broadcast editor tag arguments)).getD 0

/-- Calls the functions of the live instance with a tag, without arguments. -/
def dispatchEvent (tag : String) : Action Nat := dispatch tag []

/-- Calls a function of the live instance. -/
def call (name : String) (arguments : List Value) : Action (Except Error Value) := do
  match ← onLive (Instance.call name arguments) with
  | some result => return result
  | none => return .error (.inactive (← get).config.name)

/-! ## Building -/

/-- Sets globals of an instance, up to the first that cannot be set. -/
def setBindings : Entries Value → Instance.Action (Except Error Unit)
  | [] => return .ok ()
  | (name, value) :: rest => do
    match ← Instance.setGlobal name value with
    | .ok () => setBindings rest
    | .error error => return .error error

/-- Builds an instance, with the bindings and exposed variables set. -/
def build : Action (Except Error Instance) := do
  let component ← get
  match component.config.source.load (← read) with
  | .error error => return .error error
  | .ok source =>
    let (result, journal) := Instance.build component.host component.config.name source
    modify fun component => { component with journal := journal ++ component.journal }
    match result with
    | .error error => return .error error
    | .ok inst =>
      match ← onInstance inst (setBindings component.bindings) with
      | (.error error, _) => return .error error
      | (.ok (), inst) =>
        let (exposed, inst) ←
          onInstance inst (Instance.initialiseExposed component.config.initialValues)
        modify fun component => { component with exposed }
        return .ok inst

/-- Builds an instance, unless there is one. -/
def ensureLive : Action (Except Error Unit) := do
  if (← get).isActive then return .ok ()
  match ← build with
  | .error error => return .error error
  | .ok inst =>
    modify fun component => { component with live? := some inst }
    return .ok ()

/-! ## The stations of the life -/

/-- Builds the script and tells it that it is there. -/
def awake : Action (Except Error Unit) := do
  match ← ensureLive with
  | .error error => return .error error
  | .ok () =>
    let _ ← dispatchEvent awakeTag
    return .ok ()

/-- Gives the captured variables back to the live instance. -/
def restore : Action Unit := do
  let component ← get
  match component.live? with
  | none => return ()
  | some inst =>
    modify fun component => { component with snapshot := [] }
    let (count, inst) ← onInstance inst (Instance.restoreVariables component.snapshot)
    modify fun component => { component with live? := some inst }
    note (.restored inst.name count)

/-- Builds the script if need be, gives it the captured variables and tells it that it is on. -/
def enable : Action (Except Error Unit) := do
  match ← ensureLive with
  | .error error => return .error error
  | .ok () =>
    restore
    let _ ← dispatchEvent enableTag
    return .ok ()

/-- Tells the script that it starts. -/
def start : Action Unit := do
  let _ ← dispatchEvent startTag

/-- Tells the script that it is off, captures its variables and tears it down. -/
def disable : Action Unit := do
  let component ← get
  match component.live? with
  | none => return ()
  | some inst =>
    modify fun component => { component with live? := none }
    let (_, inst) ← onInstance inst (broadcast component.config.isEditor disableTag [])
    let (snapshot, inst) ← onInstance inst Instance.capture
    modify fun component => { component with snapshot }
    note (.disposed inst.name)

/-- Tears the script down and builds it anew. -/
def reload : Action (Except Error Unit) := do
  note (.reloading (← get).config.name)
  disable
  enable

/-- Reloads if an edit has waited long enough. -/
def advancePending (delta : Nat) : Action (Except Error Unit) := do
  let component ← get
  match component.pendingReload? with
  | none => return .ok ()
  | some 0 =>
    modify fun component => { component with pendingReload? := none }
    if component.isActive then reload else return .ok ()
  | some remaining =>
    modify fun component => { component with pendingReload? := some (remaining - delta) }
    return .ok ()

/-- Lets `delta` nanoseconds pass and tells the script. -/
def update (delta : Nat) : Action (Except Error Unit) := do
  match ← advancePending delta with
  | .error error => return .error error
  | .ok () =>
    let _ ← dispatchEvent updateTag
    return .ok ()

/-- Tells the script that a step of fixed length passes. -/
def fixedUpdate : Action Unit := do
  let _ ← dispatchEvent fixedUpdateTag

/-! ## Changes -/

/-- Sets the global that a name is bound to on every build. -/
def bind (name : String) (value : Value) : Action Unit :=
  modify fun component =>
    { component with bindings := Entries.insert name value component.bindings }

/-- Takes variables that were kept elsewhere, in the place of the captured ones. -/
def loadSnapshot (entries : List EncodedVariable) : Action Unit :=
  modify fun component => { component with snapshot := entries.map .encoded }

/-- How long an edit waits in the given configuration. -/
def editDelay (config : Config) : Nat :=
  if config.isEditor then 0 else config.reloadDebounce * millisecond

/-- Edits the text of a script that is part of the configuration. Says whether the script will
reload. -/
def setSourceText (text : String) : Action Bool := do
  let component ← get
  match component.config.source with
  | .file _ =>
    note (.sourceTextIgnored component.config.name)
    return false
  | .literal current =>
    if current = text then return false
    modify fun component =>
      { component with
        config := { component.config with source := .literal text }
        pendingReload? := some (editDelay component.config) }
    return true

/-- Reloads the script because its file was changed. -/
def notifySourceModified : Action (Except Error Unit) := do
  if (← get).isActive then reload else return .ok ()

/-- Tears the script down without a capture, when the component goes away. -/
def drop : Action Unit := do
  match (← get).live? with
  | none => return ()
  | some inst =>
    modify fun component => { component with live? := none }
    note (.disposed inst.name)

/-- Wakes, enables and starts a component. -/
def startUp : Action (Except Error Unit) := do
  match ← awake with
  | .error error => return .error error
  | .ok () =>
    match ← enable with
    | .error error => return .error error
    | .ok () =>
      start
      return .ok ()

end Component

end ScriptHost
