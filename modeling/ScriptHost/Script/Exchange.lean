import ScriptHost.Script.Machine

/-!
# Exchange of values

How values leave a script and enter it. Tables leave as arrays and maps, and come in as new tables.

* `export?` : a value of a script as a value of the host.
* `importValue` : a value of the host as a value of a script.
-/

namespace ScriptHost.Script

/-- The deepest nesting of tables that leaves a script. -/
def nestingLimit : Nat := 64

/-- The text of a string. -/
def textOf (bytes : ByteArray) : Except Error String :=
  match Text.Utf8.decode bytes with
  | .ok text => .ok text
  | .error defect => .error (.notText defect)

/-- The text of a key; only strings are keys outside a script. -/
def keyText : Value → Except Error String
  | .string bytes => textOf bytes
  | key => .error (.keyUnsupported key.hostKindName)

/-- Exports the values of an array. -/
def exportItems (exportOne : Value → Except Error ScriptHost.Value) :
    List Value → Except Error (List ScriptHost.Value)
  | [] => .ok []
  | item :: items => do
    let first ← exportOne item
    let rest ← exportItems exportOne items
    .ok (first :: rest)

/-- Exports the entries of a map. -/
def exportEntries (exportOne : Value → Except Error ScriptHost.Value) :
    List (Value × Value) → Except Error (List (String × ScriptHost.Value))
  | [] => .ok []
  | (key, value) :: entries => do
    let text ← keyText key
    let first ← exportOne value
    let rest ← exportEntries exportOne entries
    .ok ((text, first) :: rest)

/-- A value of a script as a value of the host, with tables up to `depth` levels deep. A table whose
keys are the numbers from one on is an array, and one whose keys are strings is a map. -/
def exportWithin (world : World) : Nat → Value → Except Error ScriptHost.Value
  | 0, _ => .error (.nestingTooDeep nestingLimit)
  | depth + 1, value =>
    match value with
    | .nil => .ok .nil
    | .boolean b => .ok (.boolean b)
    | .integer n => .ok (.integer n)
    | .number x => .ok (.number x)
    | .nan negative => .ok (.nan negative)
    | .string bytes => (textOf bytes).map .string
    | .host reference _ => .ok (.host reference)
    | .table id =>
      match (world.table id).sequence? with
      | some items => (exportItems (exportWithin world depth) items).map .array
      | none =>
        (exportEntries (exportWithin world depth) (world.table id).entries).map fun pairs =>
          .map (Entries.ofList pairs)
    | other => .error (.kindUnsupported other.hostKindName)

/-- A value of a script as a value of the host. -/
def export? (world : World) (value : Value) : Except Error ScriptHost.Value :=
  exportWithin world (nestingLimit + 1) value

/-- Sets values in a table. -/
def setAll (id : Nat) : List (Value × Value) → StateM World Unit
  | [] => return ()
  | (key, value) :: rest => do
    modify fun world => world.setIn id key value
    setAll id rest

/-- Makes a table of keys and values. -/
def makeTableOf (pairs : List (Value × Value)) : StateM World Value := do
  let id := (← get).nextTable
  modify World.newTable
  setAll id pairs
  return .table id

mutual

/-- A value of the host as a value of a script. Each reference becomes a new one. -/
def importValue : ScriptHost.Value → StateM World Value
  | .nil => return .nil
  | .boolean b => return .boolean b
  | .integer n => return .integer n
  | .number x => return .ofFloat x false
  | .nan negative => return .nan negative
  | .string text => return .ofString text
  | .array items => do makeTableOf (← importItems 0 items)
  | .map entries => do makeTableOf (← importEntries entries)
  | .host reference => do
    let serial := (← get).serial
    modify World.nextSerial
    return .host reference serial

/-- The values of an array, from position `i` on, with their positions. -/
def importItems (i : Nat) : List ScriptHost.Value → StateM World (List (Value × Value))
  | [] => return []
  | item :: items => do
    let value ← importValue item
    return (Table.position i, value) :: (← importItems (i + 1) items)

/-- The entries of a map. -/
def importEntries : List (String × ScriptHost.Value) → StateM World (List (Value × Value))
  | [] => return []
  | (key, entry) :: entries => do
    let value ← importValue entry
    return (.ofString key, value) :: (← importEntries entries)

end

/-- Values of the host as values of a script. -/
def importAll : List ScriptHost.Value → StateM World (List Value)
  | [] => return []
  | value :: rest => do
    let first ← importValue value
    return first :: (← importAll rest)

end ScriptHost.Script
