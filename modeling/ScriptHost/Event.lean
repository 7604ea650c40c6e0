import ScriptHost.Error
import ScriptHost.Value.Basic

/-!
# Events

What a host does and finds is kept as a list of events, and most events have a line for its log.

* `Ending` : how a script ends the program.
* `Effect` : what a call of a script does besides answering.
* `Event` : what happened.
* `Event.line?` : the log line of an event, with its level.
* `Event.watched` : nothing is seen of what comes after the end of the program.
-/

namespace ScriptHost

/-- How severe a log line is. -/
inductive Level where
  | error
  | warn
  | info
  | debug
  deriving DecidableEq, Repr

namespace Level

/-- The name of a level. -/
def name : Level → String
  | error => "error"
  | warn => "warn"
  | info => "info"
  | debug => "debug"

/-- Levels by severity, the most severe first. -/
def rank : Level → Nat
  | error => 0
  | warn => 1
  | info => 2
  | debug => 3

end Level

/-- How a script ends the program that runs it. -/
inductive Ending where
  /-- The program is left with an exit code. -/
  | exit (code : Nat)
  /-- The script goes on for ever, and so does the program. -/
  | endless
  deriving DecidableEq, Repr

/-- What a call of a script does besides answering. -/
inductive Effect where
  /-- A host function keeps the arguments that it was called with. -/
  | recorded (arguments : List Value)
  /-- A host function writes a line into the log. -/
  | message (text : String)
  /-- The program ends. Nobody sees what comes after. -/
  | ended (ending : Ending)
  deriving Repr

/-- What happened. -/
inductive Event where
  | effect (effect : Effect)
  /-- A declaration is none of a global function. -/
  | declarationSkipped (name : String) (line : Nat)
  | built (script : String) (functions tags : Nat)
  | disposed (script : String)
  /-- The functions with a tag are called. -/
  | broadcast (script tag : String)
  /-- A function is called by the host. -/
  | invoked (script function : String) (arity : Nat)
  /-- A function that the host called raised an error. -/
  | invocationFailed (script function : String) (failure : Error)
  | captured (script : String) (count : Nat)
  | captureSkipped (script variableName : String) (reason : Error)
  | restoreFailed (script variableName : String) (reason : Error)
  | restored (script : String) (count : Nat)
  /-- An `Exposed` tag names no type and variable. -/
  | exposedIncomplete (script tag : String)
  | exposedFailed (script typeName variableName : String) (reason : Error)
  | reloading (script : String)
  /-- New text is given for a script that is kept in a file. -/
  | sourceTextIgnored (script : String)
  | stateSaved (script path : String) (count : Nat)
  | stateLoaded (script : String) (count : Nat)
  deriving Repr

namespace Event

open Error (inQuotes)

/-- The log line of an event. -/
def line? : Event → Option (Level × String)
  | effect (.recorded _) => none
  | effect (.message text) => some (.info, text)
  | effect (.ended _) => none
  | declarationSkipped name line =>
    some (.debug, "Declaration " ++ inQuotes name ++ " on line " ++ toString line
      ++ " is not a global function, skipping")
  | built script functions tags =>
    some (.debug, "Built script " ++ inQuotes script ++ " with " ++ toString functions
      ++ " function(s) and " ++ toString tags ++ " tag(s)")
  | disposed script => some (.debug, "Disposing script " ++ inQuotes script)
  | broadcast .. | invoked .. => none
  | invocationFailed script function failure =>
    some (.error, "Exception when trying to invoke " ++ script ++ "." ++ function ++ ": "
      ++ failure.display)
  | captured script count =>
    some (.debug, "Captured " ++ toString count ++ " variable(s) from " ++ inQuotes script)
  | captureSkipped script name reason =>
    some (.warn, "Skipping serialized variable " ++ script ++ "." ++ name ++ ": "
      ++ reason.display)
  | restoreFailed script name reason =>
    some (.warn, "Could not restore " ++ script ++ "." ++ name ++ ": " ++ reason.display)
  | restored script count =>
    some (.debug, "Restored " ++ toString count ++ " variable(s) into " ++ inQuotes script)
  | exposedIncomplete script tag =>
    some (.warn, "Incomplete exposed variable " ++ inQuotes tag ++ " in " ++ inQuotes script
      ++ ", expected #Exposed type=name")
  | exposedFailed script typeName name reason =>
    some (.warn, "Could not initialise exposed " ++ typeName ++ " " ++ script ++ "." ++ name
      ++ ": " ++ reason.display)
  | reloading script => some (.info, "Reloading script " ++ inQuotes script)
  | sourceTextIgnored script =>
    some (.warn, "Ignoring source text for file-backed script " ++ inQuotes script)
  | stateSaved script path count =>
    some (.debug, "Saved " ++ toString count ++ " variable(s) of " ++ inQuotes script ++ " to "
      ++ path)
  | stateLoaded script count =>
    some (.debug, "Loaded " ++ toString count ++ " variable(s) saved for " ++ inQuotes script)

/-- The arguments that a host function kept. -/
def recorded? : Event → Option (List Value)
  | effect (.recorded arguments) => some arguments
  | _ => none

/-! ## The end of the program -/

/-- How the program ends, if that is what happened. -/
def ending? : Event → Option Ending
  | effect (.ended ending) => some ending
  | _ => none

/-- How the program has ended, by a journal with the latest event first. -/
def endingOf? (journal : List Event) : Option Ending := journal.reverse.findSome? ending?

/-- The events in front of the end of the program, the latest first. -/
def seen (journal : List Event) : List Event :=
  (journal.reverse.takeWhile fun event => event.ending?.isNone).reverse

/-- What is seen of something that ran a script, with its journal: what came of it, or how the script
ended the program. The rest of the journal after the end is what would have happened otherwise. -/
def watched {α : Type} (ran : α × List Event) : Except Ending α × List Event :=
  match endingOf? ran.2 with
  | some ending => (.error ending, seen ran.2)
  | none => (.ok ran.1, ran.2)

end Event

end ScriptHost
