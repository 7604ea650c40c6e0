import ScriptHost.Script.World

/-!
# Computations of a script

A computation changes the world and ends with a result or by raising a value. What it changed
before it raised something stays changed. A computation that goes on for ever, or that leaves the
program, has neither a result nor an error: it ends the program, and nothing in the script catches
that. The calls that are under way form a stack, which errors look at and whose height is bounded.

* `Computation` : the type of computations.
* `Site`, `Call`, `Stack` : the places of calls, calls, and the calls that are under way.
* `Request` : a function with the arguments of a call.
* `raise`, `failAt` : raise a value, and an error message with its place.
* `endProgram`, `catching` : end the program, and catch what is raised otherwise.
* `Ends` : rounds that come to an end.
* `repeatFrom?`, `repeating` : repeat a round until it gives a result.
-/

namespace ScriptHost.Script

/-- A computation on the world of a script. -/
abbrev Computation := EStateM Value World

/-- A change of the world that raises nothing, as a computation. -/
def proceed {α : Type} (change : StateM World α) : Computation α := modifyGet change.run

/-! ## Places -/

/-- A place in a script. -/
structure Site where
  chunk : String
  line : Nat
  deriving DecidableEq, Repr

/-- How many bytes of a script's name errors show. -/
def Site.nameLimit : Nat := 59

/-- The place as errors name it. -/
def Site.mark (site : Site) : ByteArray :=
  site.chunk.toUTF8.extract 0 nameLimit ++ (":" ++ toString site.line ++ ": ").toUTF8

/-- The place in front of an error message, if there is one. -/
def markOf (site? : Option Site) : ByteArray := (site?.map Site.mark).getD .empty

/-! ## Calls -/

/-- What the script calls a function that it calls. -/
structure Callee where
  name : String
  /-- The function is found in an object, which is its first argument. -/
  method : Bool := false
  deriving DecidableEq, Repr

/-- A call that is under way. -/
structure Call where
  /-- The place of the call, if it comes from a script. -/
  site? : Option Site := none
  callee? : Option Callee := none
  deriving DecidableEq, Repr

/-- The calls that are under way. -/
structure Stack where
  /-- The calls, the latest first. -/
  calls : List Call := []
  /-- How many slots lie below the function of the latest call. -/
  height : Nat := 0
  /-- How many of the calls come from no call expression of a script. -/
  natives : Nat := 0
  deriving DecidableEq, Repr

namespace Stack

/-- How many slots there are. -/
def slotLimit : Nat := 1000000

/-- How many calls may come from no call expression of a script, plus one. -/
def nativeLimit : Nat := 200

/-- The place of the latest call. -/
def site? (stack : Stack) : Option Site := stack.calls.head?.bind Call.site?

/-- Adds a call of a function in the given slot. -/
def push (stack : Stack) (call : Call) (height : Nat) : Stack :=
  { stack with calls := call :: stack.calls, height }

/-- Adds a call that comes from no call expression. -/
def pushNative (stack : Stack) (call : Call) (height : Nat) : Stack :=
  ⟨call :: stack.calls, height, stack.natives + 1⟩

end Stack

/-- A function, and what it is called with. -/
structure Request where
  function : Value
  arguments : List Value
  deriving Inhabited

/-- Calls a function with arguments; its call is the latest of the stack. -/
abbrev Caller := Stack → Value → List Value → Computation (List Value)

/-! ## Steps -/

/-- Raises a value. -/
def raise {α : Type} (value : Value) : Computation α := throw value

/-- Raises an error message with its place. -/
def failAt {α : Type} (site? : Option Site) (message : String) : Computation α :=
  raise (.string (markOf site? ++ message.toUTF8))

/-- Looks at the world. -/
def look {α : Type} (f : World → α) : Computation α := do return f (← get)

/-- Changes the world. -/
def change (f : World → World) : Computation Unit := modify f

/-! ## The end of the program -/

/-- Ends the program. -/
def endProgram {α : Type} (ending : Ending) : Computation α := do
  change fun world => world.addEffects [.ended ending]
  raise .nil

/-- Runs a computation and goes on with what it raises. The end of the program is passed on. -/
def catching {α : Type} (body : Computation α) (handle : Value → Computation α) : Computation α :=
  tryCatch body fun raised => do
    if ← look World.hasEnded then raise raised
    handle raised

/-! ## Rounds -/

section Rounds

variable {σ α : Type}

/-- After some rounds, one gives a result or raises a value. A round that gives no result gives the
state for the next one. -/
inductive Ends (round : σ → Computation (σ ⊕ α)) :
    σ → World → EStateM.Result Value World α → Prop where
  | answered {state : σ} {world after : World} {result : α} :
      (round state).run world = .ok (.inr result) after → Ends round state world (.ok result after)
  | raised {state : σ} {world after : World} {value : Value} :
      (round state).run world = .error value after → Ends round state world (.error value after)
  | later {state next : σ} {world after : World} {result : EStateM.Result Value World α} :
      (round state).run world = .ok (.inl next) after → Ends round next after result →
        Ends round state world result

variable (round : σ → Computation (σ ⊕ α)) (state : σ) (world : World)

/-- How rounds can end that begin with the state and the world. -/
abbrev LastRound := { result : EStateM.Result Value World α // Ends round state world result }

/-- Where rounds are that began with the state and the world. -/
structure Turn where
  next : σ
  now : World
  leads : ∀ result, Ends round next now result → Ends round state world result

variable {round state world}

/-- Runs one more round. -/
def Turn.step (turn : Turn round state world) :
    Turn round state world ⊕ Option (LastRound round state world) :=
  match ran : (round turn.next).run turn.now with
  | .ok (.inl next) now => .inl ⟨next, now, fun _ ends => turn.leads _ (.later ran ends)⟩
  | .ok (.inr _) _ => .inr (some ⟨_, turn.leads _ (.answered ran)⟩)
  | .error _ _ => .inr (some ⟨_, turn.leads _ (.raised ran)⟩)

variable (round state world)

/-- Repeats a round until it gives a result, and gives nothing if none of them does. -/
def repeatFrom? : Option (EStateM.Result Value World α) :=
  -- A result comes with the rounds that led to it, so without such rounds there is none.
  (repeatM (m := Id) Turn.step (⟨state, world, fun _ => id⟩ : Turn round state world)).map Subtype.val

/-- Repeats a round until it gives a result. If none of them does, the program never ends. -/
def repeating : Computation α := do
  match ← round state with
  | .inr result => return result
  | .inl next => fun world =>
    -- The rounds are run where a result is asked for, so this runs for ever when there is none.
    (repeatFrom? round next world).getD ((endProgram .endless).run world)

end Rounds

/-! ## Values and what is made -/

/-- The first of some values, nil if there is none. -/
def firstOf (values : List Value) : Value := values.headD .nil

/-- The first values up to a number, filled up with nil. -/
def adjust (count : Nat) (values : List Value) : List Value :=
  values.take count ++ List.replicate (count - values.length) .nil

/-- Makes a table without entries. -/
def makeTable : Computation Nat := do
  let id ← look World.nextTable
  change World.newTable
  return id

/-- Makes a variable. -/
def makeVariable (value : Value) : Computation Nat := do
  let id ← look fun world => world.cells.size
  change fun world => world.newVariable value
  return id

/-- Makes a function. -/
def makeFunction (function : Closure) : Computation Value := do
  let id ← look fun world => world.functions.size
  change fun world => world.newFunction function
  return .closure id

/-- Takes a number that no reference or thread has had. -/
def makeSerial : Computation Nat := do
  let serial ← look World.serial
  change World.nextSerial
  return serial

end ScriptHost.Script
