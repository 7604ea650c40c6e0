import ScriptHost.Event
import ScriptHost.Script.Syntax
import ScriptHost.Script.Table

/-!
# The world of a script

What a running script has built: its tables, the variables that its functions share, its functions,
and what its calls of host functions did. Things are known by their number, and nothing is ever
taken away.

* `World.rooted` : the table of the globals is there.
* `World.closed` : a table holds no reference to a table that is not there.
* `World.newTable`, `World.setIn`, `World.fillIn`, `World.setMetatable` : the operations on tables.
* `World.newVariable`, `World.setVariable`, `World.newFunction` : those on variables and functions.
-/

namespace ScriptHost.Script

/-- A function of a script, with the variables that it sees. -/
structure Closure where
  parameters : List String
  vararg : Bool
  body : List Stat
  /-- How many slots of the stack the function takes. -/
  room : Nat
  /-- The local variables around the function, the innermost first, by number. -/
  scope : List (String × Nat)
  /-- The name of the script that errors name. -/
  chunk : String

/-- Whether a value is no reference to a table from `size` on. -/
def Value.Within (size : Nat) : Value → Prop
  | .table id => id < size
  | _ => True

instance (size : Nat) (value : Value) : Decidable (value.Within size) := by
  cases value <;> unfold Value.Within <;> infer_instance

/-- Whether a table holds no reference to a table from `size` on. -/
def Table.Within (size : Nat) (table : Table) : Prop :=
  ∀ key, table.find key ≠ .nil → key.Within size ∧ (table.find key).Within size

@[simp] theorem Table.Within.empty {n : Nat} : Table.empty.Within n := by
  intro key ne
  refine absurd ?_ ne
  unfold Table.find
  cases Table.itemIndex? Table.empty.items.size key <;> rfl

/-- What a running script has built. -/
structure World where
  /-- The tables by number; the first is that of the globals. -/
  tables : Array Table := #[.empty]
  /-- The values of local variables, by number. -/
  cells : Array Value := #[]
  functions : Array Closure := #[]
  /-- A number that no reference or thread has had. -/
  serial : Nat := 0
  /-- What host functions did, the latest first. -/
  effects : List Effect := []
  rooted : 0 < tables.size := by simp
  closed : ∀ table ∈ tables, table.Within tables.size := by simp

/-! ## References -/

theorem Value.Within.mono {value : Value} {m n : Nat} (h : value.Within m) (le : m ≤ n) :
    value.Within n := by
  cases value with
  | table id => exact Nat.lt_of_lt_of_le h le
  | _ => trivial

theorem Value.Within.asKey {value : Value} {n : Nat} (h : value.Within n) :
    value.asKey.Within n := by
  cases value with
  | number x =>
    simp only [Value.asKey]
    cases Value.integerOfFloat? x <;> trivial
  | _ => exact h

namespace Table.Within

theorem mono {table : Table} {m n : Nat} (h : table.Within m) (le : m ≤ n) : table.Within n :=
  fun key ne => ⟨(h key ne).1.mono le, (h key ne).2.mono le⟩

/-- Whether references are there depends on the entries of a table only. -/
theorem congr {table other : Table} {n : Nat} (h : table.Within n)
    (same : ∀ key, other.find key = table.find key) : other.Within n := by
  intro key ne
  rw [same] at ne ⊢
  exact h key ne

theorem layOut {table : Table} {n : Nat} (h : table.Within n) (count capacity : Nat) :
    (table.layOut count capacity).Within n :=
  h.congr (table.find_layOut count capacity)

theorem touch {table : Table} {n : Nat} (h : table.Within n) (key : Value) :
    (table.touch key).Within n := by
  refine h.congr fun other => ?_
  unfold Table.touch
  split <;> rfl

theorem set {table : Table} {n : Nat} {key value : Value} (h : table.Within n)
    (hk : key.Within n) (hv : value.Within n) : (table.set key value).Within n := by
  intro other ne
  rw [Table.find_set] at ne ⊢
  split
  · next e => exact ⟨e ▸ hk.asKey, hv⟩
  · next differ => exact h other (by rwa [if_neg differ] at ne)

theorem setFrom {table : Table} {n : Nat} {values : List Value} (h : table.Within n)
    (hv : ∀ value ∈ values, value.Within n) (i : Nat) : (table.setFrom i values).Within n := by
  induction values generalizing table i with
  | nil => exact h
  | cons value rest ih =>
    have hk : (Table.position i).Within n := trivial
    exact ih (h.set hk (hv value List.mem_cons_self))
      (fun value m => hv value (List.mem_cons_of_mem _ m)) (i + 1)

theorem fill {table : Table} {n : Nat} {values : List Value} (h : table.Within n)
    (hv : ∀ value ∈ values, value.Within n) (i : Nat) : (table.fill i values).Within n := by
  unfold Table.fill
  dsimp only
  split
  · exact setFrom (layOut h _ _) hv i
  · exact setFrom h hv i

end Table.Within

namespace World

/-! ## Tables -/

/-- A table by its number. -/
def table (world : World) (id : Nat) : Table := world.tables[id]?.getD .empty

/-- The number of the next table. -/
def nextTable (world : World) : Nat := world.tables.size

/-- A table that is there holds no reference to one that is not. -/
theorem within_table (world : World) (id : Nat) : (world.table id).Within world.tables.size := by
  unfold table
  cases h : world.tables[id]? with
  | none => exact .empty
  | some t => exact world.closed t (Array.mem_of_getElem? h)

/-- Makes a table without entries. -/
def newTable (world : World) : World :=
  { world with
    tables := world.tables.push .empty
    rooted := by rw [Array.size_push]; exact Nat.succ_pos _
    closed := fun t mem => by
      rw [Array.size_push]
      rcases Array.mem_push.1 mem with mem | rfl
      · exact (world.closed t mem).mono (Nat.le_succ _)
      · exact .empty }

/-- Changes a table in a way that adds no reference to a table that is not there. -/
def modifyTable (world : World) (id : Nat) (f : Table → Table)
    (h : ∀ table, table.Within world.tables.size → (f table).Within world.tables.size) : World :=
  { world with
    tables := world.tables.modify id f
    rooted := by rw [Array.size_modify]; exact world.rooted
    closed := fun t mem => by
      obtain ⟨i, lt, rfl⟩ := Array.mem_iff_getElem.1 mem
      rw [Array.size_modify] at lt ⊢
      have within := world.closed _ (Array.getElem_mem lt)
      rw [Array.getElem_modify]
      split
      · exact h _ within
      · exact within }

/-- Sets a value in a table. Values that refer to no table of this world are not taken. -/
def setIn (world : World) (id : Nat) (key value : Value) : World :=
  if h : key.Within world.tables.size ∧ value.Within world.tables.size then
    world.modifyTable id (·.set key value) fun _ within => within.set h.1 h.2
  else world

/-- Sets values in a table at the positions from `i` on. Values that refer to no table of this world
are not taken. -/
def fillIn (world : World) (id : Nat) (i : Nat) (values : List Value) : World :=
  if h : ∀ value ∈ values, value.Within world.tables.size then
    world.modifyTable id (·.fill i values) fun _ within => within.fill h i
  else world

/-- Lays out a table for so many items and so many other keys. -/
def layOutIn (world : World) (id : Nat) (count capacity : Nat) : World :=
  world.modifyTable id (·.layOut count capacity) fun _ within => within.layOut count capacity

/-- Remembers that a key of a table was looked at. -/
def touchIn (world : World) (id : Nat) (key : Value) : World :=
  world.modifyTable id (·.touch key.asKey) fun _ within => within.touch key.asKey

/-- Remembers where the length of a table was found. -/
def rememberIn (world : World) (id : Nat) : World :=
  world.modifyTable id Table.remember fun _ within => within.congr fun _ => rfl

/-- Sets the metatable of a table. -/
def setMetatable (world : World) (id : Nat) (metatable? : Option Nat) : World :=
  world.modifyTable id (fun table => { table with metatable? }) fun _ within =>
    within.congr fun _ => rfl

/-! ## Variables and functions -/

/-- The value of a variable. -/
def getVariable (world : World) (id : Nat) : Value := world.cells[id]?.getD .nil

/-- Makes a variable. -/
def newVariable (world : World) (value : Value) : World :=
  { world with cells := world.cells.push value }

/-- Sets a variable. -/
def setVariable (world : World) (id : Nat) (value : Value) : World :=
  { world with cells := world.cells.setIfInBounds id value }

/-- The function of the script that a value is. -/
def closure? (world : World) : Value → Option Closure
  | .closure id => world.functions[id]?
  | _ => none

/-- Makes a function. -/
def newFunction (world : World) (function : Closure) : World :=
  { world with functions := world.functions.push function }

/-- Uses up a number. -/
def nextSerial (world : World) : World := { world with serial := world.serial + 1 }

/-- Keeps what a host function did. -/
def addEffects (world : World) (effects : List Effect) : World :=
  { world with effects := effects.reverse ++ world.effects }

/-- Forgets what host functions did. -/
def withoutEffects (world : World) : World := { world with effects := [] }

/-- Whether the script has just ended the program. -/
def hasEnded (world : World) : Bool :=
  match world.effects with
  | .ended _ :: _ => true
  | _ => false

/-- The number of the table of globals. -/
def globals : Nat := 0

end World

end ScriptHost.Script
