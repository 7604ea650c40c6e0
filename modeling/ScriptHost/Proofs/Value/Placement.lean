import ScriptHost.Proofs.Value.Normal

/-!
# Where values lie inside others

Whether a value can cross into a script and back depends on two things: how many arrays and maps lie
around what is inside it, and whether an array has nils in front of other items.

* `Value.OccursUnder`, `Value.room_le_iff` : how many arrays and maps lie around a value.
* `Value.HoleFree` : arrays have nils at their ends only.
* `Value.WellFormed` : what the types of the host promise of every value.
* `Value.norm_leaf` : nothing is lost of a value that holds no others.
-/

namespace ScriptHost.Value

/-! ## Values under arrays and maps -/

/-- `inner` is the value itself, or lies in it inside `count` arrays and maps. -/
inductive OccursUnder (inner : Value) : Nat → Value → Prop
  | here : OccursUnder inner 0 inner
  | item {count : Nat} {items : List Value} {item : Value} :
      item ∈ items → OccursUnder inner count item → OccursUnder inner (count + 1) (array items)
  | entry {count : Nat} {entries : List (String × Value)} {entry : String × Value} :
      entry ∈ entries → OccursUnder inner count entry.2 →
        OccursUnder inner (count + 1) (map entries)

/-- An item takes a level less than the array. -/
theorem room_item_lt {items : List Value} {item : Value} (m : item ∈ items) :
    room item < room (array items) := by
  obtain ⟨depth, room_eq⟩ := Nat.exists_eq_succ_of_ne_zero
    (Nat.ne_of_gt (@room_pos (array items) (by simp)))
  have below := room_array_le_iff.1 (Nat.le_of_eq room_eq) item m
  omega

/-- The value of an entry takes a level less than the map. -/
theorem room_entry_lt {entries : Entries Value} {entry : String × Value} (m : entry ∈ entries) :
    room entry.2 < room (map entries) := by
  obtain ⟨depth, room_eq⟩ := Nat.exists_eq_succ_of_ne_zero
    (Nat.ne_of_gt (@room_pos (map entries) (by simp)))
  have below := room_map_le_iff.1 (Nat.le_of_eq room_eq) entry m
  omega

/-- What lies inside a value takes as many levels less as there are arrays and maps around it. -/
theorem OccursUnder.add_room_le {inner value : Value} {count : Nat}
    (h : OccursUnder inner count value) : count + room inner ≤ room value := by
  induction h with
  | here => exact Nat.le_of_eq (Nat.zero_add _)
  | item m _ ih =>
    have below := room_item_lt m
    omega
  | entry m _ ih =>
    have below := room_entry_lt m
    omega

/-- A value takes so many levels as it has arrays and maps around its innermost values, and one for
those. -/
theorem room_le_iff {value : Value} {depth : Nat} :
    room value ≤ depth
      ↔ ∀ inner count, OccursUnder inner count value → inner ≠ nil → count < depth := by
  constructor
  · intro fits inner count occurs notNil
    have positive := room_pos notNil
    have above := occurs.add_room_le
    omega
  · intro h
    induction value using tree_induction generalizing depth with
    | ofLeaf value leaf =>
      rw [room, height_leaf leaf]
      split
      · exact Nat.zero_le depth
      · next notNil => exact h value 0 .here fun isNil => notNil (isNil_iff.2 isNil)
    | ofArray items ih =>
      have positive := h _ 0 .here (by simp)
      obtain ⟨depth, rfl⟩ := Nat.exists_eq_succ_of_ne_zero (Nat.ne_of_gt positive)
      refine room_array_le_iff.2 fun item m => ih item m fun inner count occurs notNil => ?_
      exact Nat.lt_of_succ_lt_succ (h inner (count + 1) (.item m occurs) notNil)
    | ofMap entries ih =>
      have positive := h _ 0 .here (by simp)
      obtain ⟨depth, rfl⟩ := Nat.exists_eq_succ_of_ne_zero (Nat.ne_of_gt positive)
      refine room_map_le_iff.2 fun entry m => ih entry m fun inner count occurs notNil => ?_
      exact Nat.lt_of_succ_lt_succ (h inner (count + 1) (.entry m occurs) notNil)

/-- In a normal value there is no nil but the value itself, and what is in it is normal, too. -/
theorem OccursUnder.normal {inner value : Value} {count : Nat} (h : OccursUnder inner count value)
    (normal : Normal value) : Normal inner ∧ (inner = nil → count = 0) := by
  induction h with
  | here => exact ⟨normal, fun _ => rfl⟩
  | item m occurs ih =>
    obtain ⟨⟨_, proper, _⟩, items⟩ := throughout_array.1 normal
    obtain ⟨inside, zero⟩ := ih (items _ m)
    refine ⟨inside, fun isNil => ?_⟩
    have top := zero isNil
    subst top
    cases occurs
    exact absurd (isNil ▸ m) proper
  | entry m occurs ih =>
    obtain ⟨⟨_, proper⟩, entries⟩ := throughout_map.1 normal
    obtain ⟨inside, zero⟩ := ih (entries _ m)
    refine ⟨inside, fun isNil => ?_⟩
    have top := zero isNil
    subst top
    generalize value_eq : Prod.snd _ = value at occurs
    cases occurs
    exact absurd (value_eq.trans isNil) (proper _ m)

/-! ## Holes -/

/-- Behind a nil, an array has nils only. -/
def IsHoleFree : Value → Prop
  | array items => items.Pairwise fun first later => first = nil → later = nil
  | _ => True

/-- No array in a value has a nil in front of other items. -/
def HoleFree (value : Value) : Prop := Throughout IsHoleFree value

theorem holeFree_nil : HoleFree nil := (throughout_leaf rfl).2 trivial

theorem exists_eq_append_replicate {items : List Value}
    (h : items.Pairwise fun first later => first = nil → later = nil) :
    ∃ front count, items = front ++ List.replicate count nil ∧ nil ∉ front := by
  induction items with
  | nil => exact ⟨[], 0, rfl, List.not_mem_nil⟩
  | cons item items ih =>
    obtain ⟨behind, rest⟩ := List.pairwise_cons.1 h
    by_cases isNil : item = nil
    · refine ⟨[], items.length + 1, ?_, List.not_mem_nil⟩
      have nils : items = List.replicate items.length nil :=
        List.eq_replicate_iff.2 ⟨rfl, fun later m => behind later m isNil⟩
      rw [List.nil_append, List.replicate_succ, ← nils, isNil]
    · obtain ⟨front, count, rfl, proper⟩ := ih rest
      refine ⟨item :: front, count, rfl, ?_⟩
      rw [List.mem_cons, not_or]
      exact ⟨Ne.symm isNil, proper⟩

/-! ## Well-formed values -/

/-- An array has no more items than there are positions, maps are sorted, and a number is no NaN. -/
def IsWellFormed : Value → Prop
  | array items => items.length < Nat.pow 2 63
  | map entries => Entries.Ascending entries
  | number x => x.isNaN = false
  | _ => True

/-- What the types of the host promise of a value and of all that lies inside it. -/
def WellFormed (value : Value) : Prop := Throughout IsWellFormed value

/-- The maps of a well-formed value are in order. -/
theorem WellFormed.ordered {value : Value} (formed : value.WellFormed) : Ordered value := by
  refine formed.imp fun inner h => ?_
  cases inner with
  | map entries => exact h
  | _ => trivial

/-- A well-formed value without holes is dense. -/
theorem WellFormed.dense {value : Value} (formed : value.WellFormed) (holeFree : value.HoleFree) :
    Throughout IsDense value := by
  intro inner occurs
  have h := formed inner occurs
  have k := holeFree inner occurs
  cases inner with
  | array items => exact ⟨h, exists_eq_append_replicate k⟩
  | _ => trivial

/-! ## What is lost -/

/-- Nothing is lost of a well-formed value that holds no others. -/
theorem norm_leaf {value : Value} (formed : IsWellFormed value) (leaf : value.isLeaf = true) :
    norm value = value := by
  cases value with
  | array items => cases leaf
  | map entries => cases leaf
  | number x =>
    have proper : ¬x.isNaN = true := by
      rw [show x.isNaN = false from formed]
      exact Bool.false_ne_true
    rw [norm, ofFloat, if_neg proper]
  | _ => rfl

end ScriptHost.Value
