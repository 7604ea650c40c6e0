import Mathlib.Data.List.Sort
import ScriptHost.Proofs.Script.Leaving

/-!
# The order of entries

The error of a value that does not leave a script is the first one that is found, and so it hangs on
the order of the entries of tables. That order can be computed by putting one entry after the other
in its place.

* `mergeSort_eq_insertionSort` : to sort by numbers is to put one item after the other in its place.
* `World.orderedView` : what is made of a table that leaves, in a form that can be computed.
* `export?_eq_exportViewed` : values leave by it.
-/

namespace ScriptHost.Script

open Table

/-! ## Sorting by numbers -/

section

variable {β : Type}

/-- An item goes in behind those with smaller numbers. -/
theorem orderedInsert_append {item : Nat × β} {front back : List (Nat × β)}
    (smaller : ∀ other ∈ front, ¬item.1 ≤ other.1) (rest : ∀ other ∈ back, item.1 ≤ other.1) :
    (front ++ back).orderedInsert (fun a b => a.1 ≤ b.1) item = front ++ item :: back := by
  induction front with
  | nil =>
    cases back with
    | nil => rfl
    | cons other back => exact if_pos (rest other List.mem_cons_self)
  | cons other front ih =>
    obtain ⟨first, others⟩ := List.forall_mem_cons.1 smaller
    rw [List.cons_append, List.orderedInsert_cons, if_neg first, ih others, List.cons_append]

/-- To sort by numbers is to put one item after the other in its place, and items with one number
keep their order. -/
theorem mergeSort_eq_insertionSort (items : List (Nat × β)) :
    items.mergeSort (fun a b => a.1 ≤ b.1) = items.insertionSort (fun a b => a.1 ≤ b.1) := by
  have trans (a b c : Nat × β) : decide (a.1 ≤ b.1) = true → decide (b.1 ≤ c.1) = true →
      decide (a.1 ≤ c.1) = true := by
    simp only [decide_eq_true_eq]
    exact Nat.le_trans
  have total (a b : Nat × β) : (decide (a.1 ≤ b.1) || decide (b.1 ≤ a.1)) = true := by
    simp only [Bool.or_eq_true, decide_eq_true_eq]
    exact Nat.le_total a.1 b.1
  induction items with
  | nil => exact List.mergeSort_nil
  | cons item items ih =>
    obtain ⟨front, back, whole, parts, smaller⟩ := List.mergeSort_cons trans total item items
    have sorted := List.pairwise_mergeSort trans total (item :: items)
    rw [whole] at sorted
    have behind := (List.pairwise_cons.1 (List.pairwise_append.1 sorted).2.1).1
    rw [whole, List.insertionSort_cons, ← ih, parts, orderedInsert_append]
    · intro other m
      have before := smaller other m
      simpa using before
    · intro other m
      exact of_decide_eq_true (behind other m)

end

/-! ## Tables -/

/-- The entries of a table outside of its row, with the ranks of their keys. -/
def Table.ranked (table : Table) : List (Nat × Value × Value) :=
  table.others.toList.map fun entry =>
    ((table.slots.ranks.find? entry.1).getD table.slots.keys.size, entry)

/-- What is made of a table that leaves, with its entries put in order one after the other. -/
def World.orderedView (world : World) (id : Nat) : TableView :=
  match (world.table id).sequence? with
  | some values => .row values
  | none =>
    .keyed (rowEntries (world.table id).items 0 (world.table id).items.size
      ++ ((world.table id).ranked.insertionSort fun a b => a.1 ≤ b.1).map Prod.snd)

theorem World.view_eq_orderedView (world : World) : world.view = world.orderedView := by
  funext id
  unfold World.view World.orderedView Table.entries
  rw [← mergeSort_eq_insertionSort]
  rfl

/-- Values leave by the ordered entries of tables. -/
theorem export?_eq_exportViewed (world : World) (value : Value) :
    export? world value = exportViewed world.orderedView (nestingLimit + 1) value := by
  rw [← World.view_eq_orderedView, exportViewed_view]
  rfl

end ScriptHost.Script
