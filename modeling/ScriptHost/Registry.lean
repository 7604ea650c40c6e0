import ScriptHost.Declaration
import ScriptHost.Event
import ScriptHost.Ordered
import ScriptHost.Script.Run

/-!
# The function registry

The functions of a script that the host can call, by name and by the number of parameters that
their declaration has.

* `Registry` : the functions by name and arity, and their names.
* `Registry.insert`, `Registry.find?` : the operations.
* `Registry.find?_insert` : what is put in is found, and other functions stay.
* `Registry.build` : the registry of some declarations, looked up among the globals of a script.
-/

namespace ScriptHost

/-- A function of a script that the host can call. -/
structure FunctionHandle where
  name : String
  arity : Nat
  function : Script.Value
  deriving DecidableEq

/-- The functions of a script that the host can call. Their names are kept apart from the functions,
so that a name is found at once. -/
structure Registry where
  /-- For each name, the functions by their arities. -/
  functions : Entries (Entries FunctionHandle Nat) := []
  names : NameSet := []

namespace Registry

/-- Adds a function, in the place of one with its name and arity. -/
def insert (registry : Registry) (handle : FunctionHandle) : Registry where
  functions :=
    let named := (Entries.find? handle.name registry.functions).getD []
    Entries.insert handle.name (Entries.insert handle.arity handle named) registry.functions
  names := NameSet.insert handle.name registry.names

/-- The function with a name and an arity. -/
def find? (registry : Registry) (name : String) (arity : Nat) : Option FunctionHandle :=
  (Entries.find? name registry.functions).bind (Entries.find? arity)

/-- Whether there is a function with a name. -/
def containsName (registry : Registry) (name : String) : Bool := registry.names.contains name

/-- The functions of one name, in ascending order of their arities. -/
def handlesOf (named : Entries FunctionHandle Nat) : List FunctionHandle := named.map Prod.snd

/-- The functions in ascending order of their names and, for one name, of their arities. -/
def handles (registry : Registry) : List FunctionHandle :=
  registry.functions.flatMap fun entry => handlesOf entry.2

/-- The number of functions. -/
def size (registry : Registry) : Nat := (registry.functions.flatMap Prod.snd).length

/-- Whether there is no function. -/
def isEmpty (registry : Registry) : Bool := registry.functions.isEmpty

/-- What is put in is found under its name and arity, and other functions stay. -/
theorem find?_insert (registry : Registry) (handle : FunctionHandle) (name : String)
    (arity : Nat) :
    (registry.insert handle).find? name arity
      = if handle.name = name ∧ handle.arity = arity then some handle
        else registry.find? name arity := by
  unfold find? insert
  dsimp only
  rw [Entries.find?_insert]
  by_cases same : name = handle.name
  · subst same
    rw [if_pos rfl, Option.bind_some, Entries.find?_insert]
    by_cases fits : arity = handle.arity
    · rw [if_pos fits, if_pos ⟨rfl, fits.symm⟩]
    · rw [if_neg fits, if_neg fun both => fits both.2.symm]
      cases Entries.find? handle.name registry.functions <;> rfl
  · rw [if_neg same, if_neg fun both => same both.1.symm]

/-- Looks up declarations among the globals of a script. Those of no global function are left out;
of two with one name and arity the later counts. What happens is added to a journal, the latest
first. -/
def build (script : Script.Interpreter) (registry : Registry) (journal : List Event) :
    List FunctionDecl → Registry × Script.Interpreter × List Event
  | [] => (registry, script, journal)
  | declaration :: rest =>
    let (function?, script, effects) := script.function? declaration.name
    let journal := (effects.map Event.effect).reverse ++ journal
    match function? with
    | some function =>
      build script (registry.insert ⟨declaration.name, declaration.arity, function⟩) journal rest
    | none =>
      build script registry (.declarationSkipped declaration.name declaration.line :: journal) rest

end Registry

end ScriptHost
