import ScriptHost.Instance
import ScriptHost.Tag
import ScriptHost.Value.Json
import ScriptHost.Value.Tagged

/-!
# Snapshots

The globals that a script marks with `Serialize` are captured before the script is torn down, and
restored into the next one. A reference to an object of the host is kept as it is; all other values
are encoded as text with a type descriptor.

* `EncodedVariable.encode`, `EncodedVariable.decode` : the encoded form of a value.
* `Instance.captureVariables`, `Instance.restoreVariables` : the globals of an instance.
-/

namespace ScriptHost

open Json

/-- A variable in its encoded form. -/
structure EncodedVariable where
  name : String
  typeDescriptor : String
  payload : String
  deriving DecidableEq, Repr

/-- A captured variable. -/
inductive CapturedVariable where
  /-- A reference, kept as it is. -/
  | native (name : String) (reference : HostRef)
  | encoded (entry : EncodedVariable)
  deriving DecidableEq, Repr

/-- The variables that were captured, in order. -/
abbrev Snapshot := List CapturedVariable

/-! ## Encoding -/

namespace Value

mutual

/-- Whether every floating point number in a value is finite. -/
def allFinite : Value → Bool
  | number x => x.isFinite
  | nan _ => false
  | array items => allFiniteItems items
  | map entries => allFiniteEntries entries
  | _ => true

/-- Whether every floating point number in some values is finite. -/
def allFiniteItems : List Value → Bool
  | [] => true
  | item :: items => allFinite item && allFiniteItems items

/-- Whether every floating point number in the values of some entries is finite. -/
def allFiniteEntries : List (String × Value) → Bool
  | [] => true
  | (_, value) :: entries => allFinite value && allFiniteEntries entries

end

/-- The type descriptor of a value. -/
def descriptor (value : Value) : String := "lua." ++ value.typeName

/-- The payload of a value, or why it has none. -/
def payload : Value → Except EncodeFailure Json
  | boolean value => .ok (.boolean value)
  | integer value => .ok (.integer value.toInt)
  | number value => .ok (.real value)
  | nan _ => .ok .null
  | string value => .ok (.string value)
  | array items =>
    match taggedItems? items with
    | some items => .ok (.array items)
    | none => .error .holdsReference
  | map entries =>
    match taggedEntries? entries with
    | some members => .ok (.object members)
    | none => .error .holdsReference
  | value => .error (.kind value.typeName)

/-- The value of a payload, by its type descriptor; none when there is no such type. -/
def ofPayload? (typeDescriptor : String) (document : Document) : Option (Option Value) :=
  match typeDescriptor with
  | "lua.boolean" => some (document.flag?.map boolean)
  | "lua.integer" => some (document.word?.map integer)
  | "lua.number" => some (document.real?.map number)
  | "lua.string" => some (document.string?.map string)
  | "lua.array" => some ((ofTaggedItems? nestingLimit document).map array)
  | "lua.map" => some ((ofTaggedEntries? nestingLimit document).map map)
  | _ => none

/-- Whether a type descriptor is known. -/
def isDescriptor (typeDescriptor : String) : Bool :=
  (ofPayload? typeDescriptor .null).isSome

end Value

namespace EncodedVariable

/-- The encoded form of a value under a name. -/
def encode (name : String) (value : Value) : Except Error EncodedVariable :=
  if !value.allFinite then .error (.notEncoded name .notFinite)
  else match value.payload with
    | .ok payload => .ok ⟨name, value.descriptor, payload.compact⟩
    | .error reason => .error (.notEncoded name reason)

/-- The value of an encoded variable. -/
def decode (encoded : EncodedVariable) : Except Error Value :=
  if !Value.isDescriptor encoded.typeDescriptor then
    .error (.typeUnknown encoded.name encoded.typeDescriptor)
  else
    match (Document.parse? encoded.payload).bind
        fun document => (Value.ofPayload? encoded.typeDescriptor document).join with
    | some value => .ok value
    | none => .error (.notDecoded encoded.name)

/-- An encoded variable as JSON. -/
def json (encoded : EncodedVariable) : Json :=
  .object [("name", .string encoded.name), ("typeDescriptor", .string encoded.typeDescriptor),
    ("payload", .string encoded.payload)]

/-- The encoded variable of a document. -/
def ofDocument? (depth : Nat) (document : Document) : Option EncodedVariable :=
  document.record? ["name", "typeDescriptor", "payload"] depth fun _ fields => do
    match ← fields.mapM id with
    | [name, typeDescriptor, payload] =>
      some ⟨← name.string?, ← typeDescriptor.string?, ← payload.string?⟩
    | _ => none

/-- The encoded variables of a document that is a list. -/
def listOfDocument? (depth : Nat) (document : Document) : Option (List EncodedVariable) :=
  match depth, document with
  | depth + 1, .array items => items.mapM (ofDocument? depth)
  | _, _ => none

end EncodedVariable

/-! ## Variables of an instance -/

namespace CapturedVariable

/-- The name of a captured variable. -/
def name : CapturedVariable → String
  | native name _ => name
  | encoded entry => entry.name

/-- The value of a captured variable. -/
def value : CapturedVariable → Except Error Value
  | native _ reference => .ok (.host reference)
  | encoded entry => entry.decode

/-- The encoded form of a captured variable, if it has one. -/
def encoded? : CapturedVariable → Option EncodedVariable
  | native .. => none
  | encoded entry => some entry

end CapturedVariable

/-- The part of a snapshot that can be kept as text. -/
def Snapshot.encoded (snapshot : Snapshot) : List EncodedVariable :=
  snapshot.filterMap CapturedVariable.encoded?

namespace Instance

/-- Captures a global. There is nothing to capture when it is nil, and one that cannot be read or
encoded is left out. -/
def captureVariable? (name : String) : Action (Option CapturedVariable) := do
  let inst ← get
  let skip (reason : Error) : Action (Option CapturedVariable) := do
    note (.captureSkipped inst.name name reason)
    return none
  match ← global name with
  | .error error => skip error
  | .ok .nil => return none
  | .ok (.host reference) => return some (.native name reference)
  | .ok value =>
    match EncodedVariable.encode name value with
    | .ok encoded => return some (.encoded encoded)
    | .error error => skip error

/-- Captures some globals. -/
def captureEach : List String → Action Snapshot
  | [] => return []
  | name :: names => do
    let first? ← captureVariable? name
    let rest ← captureEach names
    return first?.toList ++ rest

/-- Captures the globals that a tag marks with `Serialize`. -/
def captureVariables : Action Snapshot := do
  captureEach (serializedVariables (← get).tags.tags)

/-- Captures the globals and notes how many there are. -/
def capture : Action Snapshot := do
  let snapshot ← captureVariables
  note (.captured (← get).name snapshot.length)
  return snapshot

/-- Sets a global to a captured value, and says whether that went well. -/
def restoreVariable (captured : CapturedVariable) : Action Bool := do
  let inst ← get
  let skip (reason : Error) : Action Bool := do
    note (.restoreFailed inst.name captured.name reason)
    return false
  match captured.value with
  | .error error => skip error
  | .ok value =>
    match ← setGlobal captured.name value with
    | .ok () => return true
    | .error error => skip error

/-- Sets globals to captured values, and counts those that went well. -/
def restoreVariables : Snapshot → Action Nat
  | [] => return 0
  | captured :: rest => do
    let restored ← restoreVariable captured
    let count ← restoreVariables rest
    return if restored then count + 1 else count

end Instance

end ScriptHost
