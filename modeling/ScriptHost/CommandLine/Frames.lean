import ScriptHost.CommandLine.Options
import ScriptHost.CommandLine.SavedState
import ScriptHost.CommandLine.Scripts
import ScriptHost.Component

/-!
# Driving a script

A run takes a component through its life: it wakes, is enabled and starts, lives for some frames and
is disabled.

* `driveFrames` : the frames.
* `runReport` : the whole life, and the report on it, if the script does not end the program.
* `runFrames` : what is seen of a run.
-/

namespace ScriptHost.CommandLine

/-- What came of a run. -/
structure RunReport where
  script : String
  frames : Nat
  reloads : Nat
  /-- The variables that were captured at the end. -/
  entries : List EncodedVariable
  deriving DecidableEq, Repr

/-- How long a frame takes. -/
def frameDelta : Nat := 16 * Component.millisecond

/-- Lives for one frame, and reloads the script after it if `reloads` says so. -/
def driveFrame (reloads : Bool) : Component.Action (Except Error Unit) := do
  match ← Component.update frameDelta with
  | .error error => return .error error
  | .ok () =>
    Component.fixedUpdate
    if reloads then Component.notifySourceModified else return .ok ()

/-- Lives for `count` frames from the frame `first` on. Adds the number of reloads to `reloads`. -/
def driveFrames (reloadAt? : Option Nat) (reloads first : Nat) :
    Nat → Component.Action (Except Error Nat)
  | 0 => return .ok reloads
  | count + 1 => do
    let reloading := reloadAt? == some first
    match ← driveFrame reloading with
    | .error error => return .error error
    | .ok () =>
      driveFrames reloadAt? (if reloading then reloads + 1 else reloads) (first + 1) count

/-- Takes a component through its life. Gives the number of reloads. -/
def drive (frames : Nat) (reloadAt? : Option Nat) : Component.Action (Except Error Nat) := do
  match ← Component.startUp with
  | .error error => return .error error
  | .ok () =>
    match ← driveFrames reloadAt? 0 0 frames with
    | .error error => return .error error
    | .ok reloads =>
      Component.disable
      return .ok reloads

/-- The configuration of the component that a run drives. -/
def runConfig (options : RunOptions) (script : LoadedScript) : Config where
  name := script.name
  source := .file script.path
  context := if options.editor then .editor else .playing

/-- The variables that a run starts from, and what happened. -/
def initialEntries (files : FileTree) (script : LoadedScript) :
    Option String → Except Failure (List EncodedVariable × List Event)
  | none => .ok ([], [])
  | some path => do
    let state ← SavedState.load files path script.name
    return (state.entries, [.stateLoaded state.script state.entries.length])

/-- Runs a script, as if it could not end the program: what the script does after that is in the
journal too. The journal is given in any case, the latest event first. -/
def runReport (files : FileTree) (options : RunOptions) :
    Except Failure RunReport × List Event :=
  let prepared : Except Failure (Component × String) := do
    let script ← loadScript files options.script
    let (entries, journal) ← initialEntries files script options.stateIn?
    let component : Component :=
      { config := runConfig options script, host := hostFunctions
        snapshot := entries.map .encoded, journal }
    return (component, script.name)
  match prepared with
  | .error failure => (.error failure, [])
  | .ok (component, name) =>
    let (result, component) := (drive options.frames options.reloadAt?).run files component
    let (_, component) := Component.drop.run files component
    match result with
    | .error error => (.error (.ofScript error), component.journal)
    | .ok reloads =>
      (.ok ⟨name, options.frames, reloads, component.snapshot.encoded⟩, component.journal)

/-- Runs a script: its report or a failure, unless the script ends the program. -/
def runFrames (files : FileTree) (options : RunOptions) :
    Except Ending (Except Failure RunReport) × List Event :=
  Event.watched (runReport files options)

end ScriptHost.CommandLine
