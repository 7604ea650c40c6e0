import ScriptHost.Text.Utf8

/-!
# Errors

What can go wrong between a host and its scripts. Every error has a code, which is stable, and a
message for people.

* `Error.code`, `Error.message` : the two texts of an error.
* `Error.display` : both in one line.
-/

namespace ScriptHost

open Text

/-- Why a variable has no encoded form. -/
inductive EncodeFailure where
  /-- It holds a floating point number that is not finite. -/
  | notFinite
  /-- It is of a kind that has no encoded form. -/
  | kind (name : String)
  /-- It holds a reference. -/
  | holdsReference
  deriving DecidableEq, Repr

/-- What went wrong. -/
inductive Error where
  /-- No function of this name takes so many arguments. -/
  | functionNotFound (script function : String) (arity : Nat)
  /-- No host function has this name. -/
  | hostFunctionUnknown (name : String)
  /-- There are no host functions. -/
  | hostFunctionsAbsent
  /-- A host function failed. -/
  | hostFunctionFailed (name : String) (cause : Error)
  /-- What a host function fails with. -/
  | reported (code message : String)
  /-- The script is not in the script language. -/
  | notCompiled (message : String)
  /-- The top level of the script raised an error. -/
  | notLoaded (message : String)
  /-- A function of the script raised an error. -/
  | raised (message : String)
  /-- An error was raised while a global was read. -/
  | globalNotRead (message : String)
  /-- An error was raised while a global was set. -/
  | globalNotWritten (message : String)
  /-- A result of a function has no form outside the script. -/
  | resultUnsupported (cause : Error)
  /-- A table is nested too deeply to leave the script. -/
  | nestingTooDeep (limit : Nat)
  /-- A value of this kind cannot leave the script. -/
  | kindUnsupported (kind : String)
  /-- A table with a key of this kind cannot leave the script. -/
  | keyUnsupported (kind : String)
  /-- A string is no UTF-8. -/
  | notText (defect : Utf8.Defect)
  /-- The component has no live script. -/
  | inactive (script : String)
  | notEncoded (variableName : String) (reason : EncodeFailure)
  | notDecoded (variableName : String)
  | typeUnknown (variableName typeDescriptor : String)
  | configInvalid
  | configNotRead (path : String)
  | sourceNotRead (path : String)
  deriving DecidableEq, Repr, Inhabited

namespace EncodeFailure

/-- Why a variable has no encoded form, for people. -/
def message : EncodeFailure → String
  | notFinite => "non-finite number"
  | kind name => name ++ " values have no encoded form"
  | holdsReference => "the enum variant ScriptValue::Host cannot be serialized"

end EncodeFailure

namespace Error

/-- The stable name of an error. -/
def code : Error → String
  | functionNotFound .. => "FUNCTION_NOT_FOUND"
  | hostFunctionUnknown _ | hostFunctionsAbsent => "HOST_FUNCTION_MISSING"
  | hostFunctionFailed .. => "HOST_FUNCTION_ERROR"
  | reported code _ => code
  | notCompiled _ => "SCRIPT_COMPILE_ERROR"
  | notLoaded _ => "SCRIPT_LOAD_ERROR"
  | raised _ => "SCRIPT_RUNTIME_ERROR"
  | globalNotWritten _ => "SCRIPT_GLOBAL_ERROR"
  | resultUnsupported _ => "RETURN_UNSUPPORTED"
  | nestingTooDeep _ => "VALUE_DEPTH"
  | globalNotRead _ | kindUnsupported _ | keyUnsupported _ | notText _ => "VALUE_UNSUPPORTED"
  | inactive _ => "COMPONENT_INACTIVE"
  | notEncoded .. => "SNAPSHOT_ENCODE"
  | notDecoded _ => "SNAPSHOT_DECODE"
  | typeUnknown .. => "SNAPSHOT_TYPE_UNKNOWN"
  | configInvalid => "CONFIG_INVALID"
  | configNotRead _ => "CONFIG_READ"
  | sourceNotRead _ => "SOURCE_READ"

/-- A text in double quotes. -/
def inQuotes (text : String) : String := "\"" ++ text ++ "\""

/-- How a defect of a string is described. -/
def defectText (defect : Utf8.Defect) : String :=
  match defect.length? with
  | some length =>
    "invalid utf-8 sequence of " ++ toString length ++ " bytes from index " ++ toString defect.index
  | none => "incomplete utf-8 byte sequence from index " ++ toString defect.index

/-- What an error says to people. -/
def message : Error → String
  | functionNotFound script function arity =>
    "Function " ++ inQuotes function ++ " with " ++ toString arity
      ++ " parameter(s) was not found to call in " ++ inQuotes script ++ "."
  | hostFunctionUnknown name => "Host function " ++ inQuotes name ++ " is not registered."
  | hostFunctionsAbsent => "Host function registry is empty."
  | hostFunctionFailed name cause =>
    "Host function " ++ inQuotes name ++ " failed: " ++ cause.code ++ ": " ++ cause.message
  | reported _ message => message
  | notCompiled message | notLoaded message | raised message | globalNotRead message
  | globalNotWritten message => message
  | resultUnsupported cause => "Return value has no host form: " ++ cause.message
  | nestingTooDeep limit => "Table nesting exceeds " ++ toString limit ++ " levels."
  | kindUnsupported kind => "Lua value of type " ++ kind ++ " cannot leave the interpreter."
  | keyUnsupported kind => "Table key of type " ++ kind ++ " is not supported."
  | notText defect => "error converting Lua string to &str (" ++ defectText defect ++ ")"
  | inactive script => "Script " ++ inQuotes script ++ " is not active."
  | notEncoded name reason =>
    "Variable " ++ inQuotes name ++ " cannot be encoded: " ++ reason.message
  | notDecoded name =>
    "Variable " ++ inQuotes name ++ " cannot be decoded: the payload is not of its type"
  | typeUnknown name typeDescriptor =>
    "Variable " ++ inQuotes name ++ " has unknown type " ++ inQuotes typeDescriptor ++ "."
  | configInvalid => "Invalid component config: not a configuration in JSON"
  | configNotRead path =>
    "Failed to read config " ++ inQuotes path ++ ": not a readable text file"
  | sourceNotRead path =>
    "Failed to read script " ++ inQuotes path ++ ": not a readable text file"

/-- The code and the message of an error. -/
def display (error : Error) : String := error.code ++ ": " ++ error.message

end Error

end ScriptHost
