import ScriptHost.Event
import ScriptHost.Ordered

/-!
# Host functions

Functions of the host that its scripts can call. A name keeps the function that it was first
registered with.

* `HostFunctions.register`, `HostFunctions.contains`, `HostFunctions.call` : the operations.
* `HostFunctions.find?_register` : what a name stands for after a registration.
-/

namespace ScriptHost

/-- What a host function answers, and what it does besides. -/
structure Reply where
  result : Except Error Value
  effects : List Effect := []

/-- A function of the host. What it answers and does hangs on its arguments only: one that keeps a
state of its own between calls is no such function. -/
abbrev HostFunction := List Value → Reply

/-- The functions of a host. -/
structure HostFunctions where
  /-- The names in the order of their first registration. -/
  names : List String := []
  functions : Entries HostFunction := []

namespace HostFunctions

/-- No functions. -/
def empty : HostFunctions := {}

/-- The function of a name. -/
def find? (host : HostFunctions) (name : String) : Option HostFunction :=
  Entries.find? name host.functions

/-- Whether a name is registered. -/
def contains (host : HostFunctions) (name : String) : Bool := (host.find? name).isSome

/-- Registers a function, unless its name is taken. -/
def register (host : HostFunctions) (name : String) (function : HostFunction) : HostFunctions :=
  if host.contains name then host
  else ⟨host.names ++ [name], Entries.insert name function host.functions⟩

/-- Calls a function. What it fails with is reported under its name. -/
def call (host : HostFunctions) (name : String) (arguments : List Value) : Reply :=
  match host.find? name with
  | none => ⟨.error (.hostFunctionUnknown name), []⟩
  | some function =>
    let reply := function arguments
    { reply with result := reply.result.mapError (.hostFunctionFailed name) }

/-- A registered name keeps its function, and a new name gets the one it is registered with. -/
theorem find?_register (host : HostFunctions) (name other : String) (function : HostFunction) :
    (host.register name function).find? other
      = (host.find? other).or (if other = name then some function else none) := by
  unfold register
  split
  · next taken =>
    by_cases same : other = name
    · obtain ⟨kept, found⟩ := Option.isSome_iff_exists.1 taken
      rw [same, found, Option.some_or]
    · rw [if_neg same, Option.or_none]
  · next free =>
    have absent : host.find? name = none := by simpa [contains] using free
    show Entries.find? other (Entries.insert name function host.functions) = _
    rw [Entries.find?_insert]
    by_cases same : other = name
    · rw [if_pos same, if_pos same, same, absent, Option.none_or]
    · rw [if_neg same, if_neg same, Option.or_none]
      rfl

end HostFunctions

end ScriptHost
