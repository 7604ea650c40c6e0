import ScriptHost.Error

/-!
# Failures of the command line

What can go wrong between the command line and the files it names, besides the errors of scripts.

* `Failure` : the causes.
* `Failure.code`, `Failure.message` : the two texts of a failure.
-/

namespace ScriptHost.CommandLine

/-- What went wrong. -/
inductive Failure where
  /-- Nothing is at a path. -/
  | pathMissing (path : String)
  /-- The script is a directory. -/
  | scriptNotFile (path : String)
  /-- The script is no text. -/
  | scriptNotRead (path : String)
  /-- The place of the scripts is a file. -/
  | notDirectory (path : String)
  /-- There are no scripts in a directory. -/
  | noScripts (path : String)
  /-- Some of the scripts in a directory cannot be built. -/
  | scriptsFailed (failed total : Nat)
  /-- An argument for a function is not JSON. Positions count from one. -/
  | argumentNotRead (position : Nat) (text : String)
  /-- There is no state file. -/
  | stateMissing (path : String)
  /-- The state file is no text. -/
  | stateNotRead (path : String)
  /-- The state file holds something else. -/
  | stateNotParsed (path : String)
  /-- The state file has another layout. -/
  | stateLayoutUnknown (path layout expected : String)
  /-- The state file is that of another script. -/
  | stateOfOther (path owner script : String)
  /-- The state file holds two variables of one name. -/
  | stateRepeats (path variableName : String)
  /-- The state file cannot be written. -/
  | stateNotWritten (path : String)
  /-- The script went wrong. -/
  | ofScript (error : Error)
  deriving DecidableEq, Repr

namespace Failure

open Error (inQuotes)

/-- The stable name of a failure. -/
def code : Failure → String
  | pathMissing _ => "CLI_SOURCE_NOT_FOUND"
  | scriptNotFile _ => "CLI_SOURCE_NOT_FILE"
  | scriptNotRead _ => "CLI_SOURCE_READ"
  | notDirectory _ => "CLI_SOURCE_NOT_DIR"
  | noScripts _ => "CLI_SOURCE_EMPTY"
  | scriptsFailed .. => "CLI_CHECK_FAILED"
  | argumentNotRead .. => "CLI_ARG_INVALID"
  | stateMissing _ => "CLI_STATE_NOT_FOUND"
  | stateNotRead _ => "CLI_STATE_READ"
  | stateNotParsed _ | stateRepeats .. => "CLI_STATE_INVALID"
  | stateLayoutUnknown .. => "CLI_STATE_SCHEMA"
  | stateOfOther .. => "CLI_STATE_SCRIPT"
  | stateNotWritten _ => "CLI_STATE_WRITE"
  | ofScript error => error.code

/-- What a failure says to people. -/
def message : Failure → String
  | pathMissing path => "path does not exist: " ++ path
  | scriptNotFile path => "script is not a file: " ++ path
  | scriptNotRead path => "Cannot read script " ++ path ++ ": not a readable text file"
  | notDirectory path => "scripts-dir is not a directory: " ++ path
  | noScripts path => "No .lua files under " ++ path
  | scriptsFailed failed total =>
    toString failed ++ " of " ++ toString total ++ " script(s) failed to load."
  | argumentNotRead position text =>
    "Argument " ++ toString position ++ " (" ++ text ++ ") is not JSON: no JSON value"
  | stateMissing path => "No host state file at " ++ path
  | stateNotRead path => "Cannot read host state " ++ path ++ ": not a readable text file"
  | stateNotParsed path => "Cannot parse host state " ++ path ++ ": not a host state in JSON"
  | stateLayoutUnknown path layout expected =>
    path ++ " uses schema " ++ inQuotes layout ++ ", expected " ++ inQuotes expected
  | stateOfOther path owner script =>
    path ++ " holds state for " ++ inQuotes owner ++ ", not " ++ inQuotes script
  | stateRepeats path name => path ++ " saves variable " ++ inQuotes name ++ " more than once"
  | stateNotWritten path => "Cannot write host state " ++ path ++ ": the file is not writable"
  | ofScript error => error.message

end Failure

end ScriptHost.CommandLine
