import ScriptHost.Proofs.Script.Tables
import ScriptHost.Script.World

/-!
# Tables of a world

What the operations on a world leave of its tables.

* `World.table_setIn`, `World.table_newTable`, … : the tables after an operation.
* `World.Alike` : worlds whose tables differ in where their length is looked for only.
* `World.Extends` : a world with further tables.
-/

namespace ScriptHost.Script.World

/-! ## Tables after an operation -/

theorem table_modifyTable (world : World) (id other : Nat) (f : Table → Table)
    (h : ∀ table, table.Within world.tables.size → (f table).Within world.tables.size) :
    (world.modifyTable id f h).table other
      = if id = other ∧ other < world.tables.size then f (world.table other)
        else world.table other := by
  unfold table modifyTable
  rw [Array.getElem?_modify]
  by_cases same : id = other
  · by_cases there : other < world.tables.size
    · rw [if_pos same, if_pos ⟨same, there⟩, Array.getElem?_eq_getElem there]
      rfl
    · rw [if_pos same, if_neg fun both => there both.2,
        Array.getElem?_eq_none (Nat.le_of_not_lt there)]
      rfl
  · rw [if_neg same, if_neg fun both => same both.1]

/-- A new table has no entries, as a number without a table has none. -/
theorem table_newTable (world : World) (id : Nat) : world.newTable.table id = world.table id := by
  unfold table newTable
  rw [Array.getElem?_push]
  split
  · next same =>
    rw [same, Array.getElem?_eq_none (Nat.le_refl _)]
    rfl
  · rfl

theorem size_newTable (world : World) :
    world.newTable.tables.size = world.tables.size + 1 := Array.size_push ..

theorem table_of_size_le {world : World} {id : Nat} (h : world.tables.size ≤ id) :
    world.table id = .empty := by
  unfold table
  rw [Array.getElem?_eq_none h]
  rfl

theorem size_setIn (world : World) (id : Nat) (key value : Value) :
    (world.setIn id key value).tables.size = world.tables.size := by
  unfold setIn
  split
  · exact Array.size_modify ..
  · rfl

/-- Setting a value in a table that is there. -/
theorem table_setIn {world : World} {id : Nat} {key value : Value} (there : id < world.tables.size)
    (hk : key.Within world.tables.size) (hv : value.Within world.tables.size) (other : Nat) :
    (world.setIn id key value).table other
      = if id = other then (world.table other).set key value else world.table other := by
  unfold setIn
  rw [dif_pos ⟨hk, hv⟩, table_modifyTable]
  by_cases same : id = other
  · rw [if_pos ⟨same, same ▸ there⟩, if_pos same]
  · rw [if_neg fun both => same both.1, if_neg same]

/-- Setting a value leaves all other tables alone. -/
theorem table_setIn_of_ne {world : World} {id other : Nat} {key value : Value} (h : id ≠ other) :
    (world.setIn id key value).table other = world.table other := by
  unfold setIn
  split
  · rw [table_modifyTable, if_neg fun both => h both.1]
  · rfl

/-- Setting a value leaves all metatables alone. -/
theorem metatable?_setIn (world : World) (id other : Nat) (key value : Value) :
    ((world.setIn id key value).table other).metatable? = (world.table other).metatable? := by
  unfold setIn
  split
  · rw [table_modifyTable]
    split
    · exact Table.metatable?_set ..
    · rfl
  · rfl

/-! ## Worlds that are alike -/

/-- Worlds whose tables differ in where their length is looked for only. -/
def Alike (world other : World) : Prop := ∀ id, (world.table id).Alike (other.table id)

theorem Alike.refl (world : World) : Alike world world := fun id => .refl (world.table id)

theorem Alike.trans {first second third : World} (h : Alike first second)
    (k : Alike second third) : Alike first third := fun id => (h id).trans (k id)

theorem alike_touchIn (world : World) (id : Nat) (key : Value) :
    Alike world (world.touchIn id key) := by
  intro other
  unfold touchIn
  rw [table_modifyTable]
  split
  · exact Table.alike_touch _ _
  · exact .refl _

/-! ## Worlds with further tables -/

/-- The tables of a world are there in the other one, too, with the same entries. -/
structure Extends (world other : World) : Prop where
  size_le : world.tables.size ≤ other.tables.size
  table_eq : ∀ id, id < world.tables.size → other.table id = world.table id

theorem Extends.refl (world : World) : Extends world world := ⟨Nat.le_refl _, fun _ _ => rfl⟩

theorem Extends.trans {first second third : World} (h : Extends first second)
    (k : Extends second third) : Extends first third :=
  ⟨Nat.le_trans h.size_le k.size_le, fun id lt =>
    (k.table_eq id (Nat.lt_of_lt_of_le lt h.size_le)).trans (h.table_eq id lt)⟩

end ScriptHost.Script.World
