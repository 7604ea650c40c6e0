import ScriptHost.Proofs.Script.Returning
import ScriptHost.Proofs.Script.Sequences

/-!
# Values that leave

Which values leave a script, and as what, said without the function that exports them: a value
leaves if all that it reaches lies in at most 64 tables and is of a kind that leaves. It does not
matter in which order the entries of tables are enumerated, and which of its lengths a table is
taken to have.

* `World.Reaches` : what a value reaches through so many tables.
* `World.IsExportable` : the kinds of values that leave.
* `World.Shows` : the value of the host that a value of the script leaves as.
* `TableView`, `exportViewed` : the export, by what is made of each table.
* `Survey` : an enumeration and a length of each table.
* `export?_exact` : the values that leave, and what they leave as.
-/

namespace ScriptHost.Script

open Table

/-! ## What a value reaches -/

/-- A value reaches a value through so many tables: it is that value, or a table with an entry whose
value reaches it. -/
inductive World.Reaches (world : World) (inner : Value) : Nat → Value → Prop
  | here : World.Reaches world inner 0 inner
  | entry {count id : Nat} {key value : Value} : (key, value) ∈ (world.table id).entries →
      World.Reaches world inner count value →
      World.Reaches world inner (count + 1) (.table id)

/-- All keys of a table are texts. -/
def Table.IsNamed (table : Table) : Prop :=
  ∀ key, table.find key ≠ .nil → ∃ text, key = .ofString text

/-- A value of a kind that leaves a script: a string that is a text, a table whose keys are the
numbers from one on or else texts, or a value that is no function, thread or other object. -/
def World.IsExportable (world : World) : Value → Prop
  | .nil | .boolean _ | .integer _ | .number _ | .nan _ | .host .. => True
  | .string bytes => ∃ text : String, text.toUTF8 = bytes
  | .table id => (∃ n, (world.table id).IsCounted n) ∨ (world.table id).IsNamed
  | .closure _ | .builtin _ | .hostFunction _ | .stream | .thread _ | .failure .. => False

/-- A value of a script leaves as a value of the host: tables with numbers as keys leave as arrays,
in the order of the numbers, and other tables as maps with the same keys. -/
inductive World.Shows (world : World) : Value → ScriptHost.Value → Prop
  | nil : World.Shows world .nil .nil
  | boolean (b : Bool) : World.Shows world (.boolean b) (.boolean b)
  | integer (n : Int64) : World.Shows world (.integer n) (.integer n)
  | number (x : Float) : World.Shows world (.number x) (.number x)
  | nan (negative : Bool) : World.Shows world (.nan negative) (.nan negative)
  | string {bytes : ByteArray} {text : String} :
      text.toUTF8 = bytes → World.Shows world (.string bytes) (.string text)
  | host (reference : HostRef) (serial : Nat) :
      World.Shows world (.host reference serial) (.host reference)
  | array {id : Nat} {items : List ScriptHost.Value} :
      (world.table id).IsCounted items.length →
      (∀ (i : Nat) (lt : i < items.length),
        World.Shows world ((world.table id).find (position i)) items[i]) →
      World.Shows world (.table id) (.array items)
  | map {id : Nat} {entries : Entries ScriptHost.Value} :
      Entries.Ascending entries →
      (∀ key, (world.table id).find key ≠ .nil ↔ ∃ entry ∈ entries, key = .ofString entry.1) →
      (∀ entry ∈ entries, World.Shows world ((world.table id).find (.ofString entry.1)) entry.2) →
      World.Shows world (.table id) (.map entries)

variable {world : World}

/-! ## Texts -/

theorem textOf_eq_ok_iff {bytes : ByteArray} {text : String} :
    textOf bytes = .ok text ↔ text.toUTF8 = bytes := by
  constructor
  · intro h
    unfold textOf Text.Utf8.decode at h
    cases found : String.fromUTF8? bytes with
    | none =>
      rw [found] at h
      cases h
    | some other =>
      rw [found] at h
      cases h
      unfold String.fromUTF8? at found
      split at found
      · cases found
        rfl
      · cases found
  · rintro rfl
    rw [textOf, Text.Utf8.decode_toUTF8]

theorem keyText_eq_ok_iff {key : Value} {text : String} :
    keyText key = .ok text ↔ key = .ofString text := by
  cases key with
  | string bytes =>
    rw [keyText, textOf_eq_ok_iff, Value.ofString, Value.string.injEq, eq_comm]
  | _ => simp [keyText, Value.ofString]

/-! ## A value leaves as one value -/

/-- A table with numbers as keys does not have texts as keys. -/
theorem Table.IsCounted.exists_key {table : Table} {n : Nat} (counted : table.IsCounted n) :
    ∃ key, table.find key ≠ .nil ∧ ∀ text, key ≠ .ofString text := by
  refine ⟨position 0, counted.find_position counted.positive, fun text same => ?_⟩
  cases same

/-- What a value leaves as is determined. -/
theorem World.Shows.unique {value : Value} {out other : ScriptHost.Value}
    (h : world.Shows value out) (k : world.Shows value other) : out = other := by
  induction h generalizing other with
  | array counted items ih =>
    cases k with
    | array otherCounted others =>
      have length := counted.unique otherCounted
      congr 1
      exact List.ext_getElem length fun i lt lt' => ih i lt (others i lt')
    | map _ keys _ =>
      obtain ⟨key, proper, noText⟩ := counted.exists_key
      obtain ⟨entry, _, same⟩ := (keys key).1 proper
      exact absurd same (noText entry.1)
  | @map _ entries ascending keys _ ih =>
    cases k with
    | array counted _ =>
      obtain ⟨key, proper, noText⟩ := counted.exists_key
      obtain ⟨entry, _, same⟩ := (keys key).1 proper
      exact absurd same (noText entry.1)
    | @map _ others otherAscending otherKeys otherEntries =>
      have pair_eq : ∀ entry ∈ entries, ∀ other ∈ others, entry.1 = other.1 → entry = other := by
        intro entry m other n key
        have shown := otherEntries other n
        rw [← key] at shown
        exact Prod.ext key (ih entry m shown)
      congr 1
      refine ascending.ext otherAscending fun pair => ?_
      constructor
      · intro m
        obtain ⟨other, n, same⟩ := (otherKeys _).1 ((keys _).2 ⟨pair, m, rfl⟩)
        exact pair_eq pair m other n (ofString_injective same) ▸ n
      · intro n
        obtain ⟨entry, m, same⟩ := (keys _).1 ((otherKeys _).2 ⟨pair, n, rfl⟩)
        exact pair_eq entry m pair n (ofString_injective same.symm) ▸ m
  | string text =>
    cases k with
    | string other =>
      congr 1
      exact String.toByteArray_inj.1 (text.trans other.symm)
  | _ =>
    cases k
    rfl

/-! ## The export, by what is made of tables -/

/-- What is made of a table that leaves. -/
inductive TableView where
  /-- It is an array of values. -/
  | row (values : List Value)
  /-- It is a map of entries, if their keys are texts. -/
  | keyed (entries : List (Value × Value))

/-- A value that is no table, as a value of the host. -/
def exportLeaf : Value → Except Error ScriptHost.Value
  | .nil => .ok .nil
  | .boolean b => .ok (.boolean b)
  | .integer n => .ok (.integer n)
  | .number x => .ok (.number x)
  | .nan negative => .ok (.nan negative)
  | .string bytes => (textOf bytes).map .string
  | .host reference _ => .ok (.host reference)
  | other => .error (.kindUnsupported other.hostKindName)

/-- A value as a value of the host, with tables up to `depth` levels deep, when `views` says what is
made of each table. -/
def exportViewed (views : Nat → TableView) : Nat → Value → Except Error ScriptHost.Value
  | 0, _ => .error (.nestingTooDeep nestingLimit)
  | depth + 1, .table id =>
    match views id with
    | .row values => (exportItems (exportViewed views depth) values).map .array
    | .keyed entries =>
      (exportEntries (exportViewed views depth) entries).map fun pairs =>
        .map (Entries.ofList pairs)
  | _ + 1, value => exportLeaf value

/-- What is made of a table by its own sequence and entries. -/
def World.view (world : World) (id : Nat) : TableView :=
  match (world.table id).sequence? with
  | some values => .row values
  | none => .keyed (world.table id).entries

/-- Tables leave by their own sequences and entries. -/
theorem exportViewed_view (depth : Nat) (value : Value) :
    exportViewed world.view depth value = exportWithin world depth value := by
  induction depth generalizing value with
  | zero => rfl
  | succ depth ih =>
    cases value with
    | table id =>
      have inner : exportViewed world.view depth = exportWithin world depth := funext ih
      rw [exportViewed, exportWithin, World.view, inner]
      cases (world.table id).sequence? with
      | some values => rfl
      | none => rfl
    | _ => rfl

/-- What is made of a table is right: a row has the values of a sequence in the order of the
positions, and everything else is taken by its entries, in some order. -/
def TableView.Fits (table : Table) : TableView → Prop
  | row values => table.IsCounted values.length ∧ values = table.firstValues values.length
  | keyed entries => entries.Perm table.entries ∧ ¬∃ n, table.IsCounted n

theorem fits_view (id : Nat) : (world.view id).Fits (world.table id) := by
  unfold World.view
  cases sequence : (world.table id).sequence? with
  | some values => exact sequence?_eq_some_iff.1 sequence
  | none =>
    refine ⟨List.Perm.refl _, ?_⟩
    rintro ⟨n, counted⟩
    have length := length_firstValues (world.table id) n
    have found := sequence?_eq_some_iff.2 ⟨length.symm ▸ counted, by rw [length]⟩
    rw [sequence] at found
    cases found

/-! ## Steps of the export -/

theorem exists_map_eq_ok_iff {α β : Type} {f : α → β} {result : Except Error α} :
    (∃ b, result.map f = .ok b) ↔ ∃ a, result = .ok a := by
  simp [map_eq_ok_iff]

theorem exists_exportItems_iff {exportOne : Value → Except Error ScriptHost.Value}
    {items : List Value} :
    (∃ out, exportItems exportOne items = .ok out)
      ↔ ∀ item ∈ items, ∃ part, exportOne item = .ok part := by
  induction items with
  | nil => exact iff_of_true ⟨[], rfl⟩ fun _ m => absurd m List.not_mem_nil
  | cons item items ih =>
    simp only [exportItems, bind_eq_ok_iff, List.forall_mem_cons, ← ih]
    constructor
    · rintro ⟨_, first, left, rest, others, _⟩
      exact ⟨⟨first, left⟩, rest, others⟩
    · rintro ⟨⟨first, left⟩, rest, others⟩
      exact ⟨_, first, left, rest, others, rfl⟩

theorem exists_exportEntries_iff {exportOne : Value → Except Error ScriptHost.Value}
    {entries : List (Value × Value)} :
    (∃ out, exportEntries exportOne entries = .ok out)
      ↔ ∀ entry ∈ entries, (∃ text, entry.1 = .ofString text)
          ∧ ∃ part, exportOne entry.2 = .ok part := by
  induction entries with
  | nil => exact iff_of_true ⟨[], rfl⟩ fun _ m => absurd m List.not_mem_nil
  | cons entry entries ih =>
    simp only [exportEntries, bind_eq_ok_iff, List.forall_mem_cons, ← ih, keyText_eq_ok_iff]
    constructor
    · rintro ⟨_, text, key, first, left, rest, others, _⟩
      exact ⟨⟨⟨text, key⟩, first, left⟩, rest, others⟩
    · rintro ⟨⟨⟨text, key⟩, first, left⟩, rest, others⟩
      exact ⟨_, text, key, first, left, rest, others, rfl⟩

theorem exportViewed_leaf {views : Nat → TableView} {value : Value}
    (noTable : ∀ id, value ≠ .table id) (depth : Nat) :
    exportViewed views (depth + 1) value = exportLeaf value := by
  cases value with
  | table id => exact absurd rfl (noTable id)
  | _ => rfl

/-- A value that is no table leaves if it is of a kind that leaves. -/
theorem exists_exportLeaf_iff {value : Value} (noTable : ∀ id, value ≠ .table id) :
    (∃ out, exportLeaf value = .ok out) ↔ world.IsExportable value := by
  cases value with
  | table id => exact absurd rfl (noTable id)
  | string bytes =>
    rw [exportLeaf, exists_map_eq_ok_iff]
    simp only [textOf_eq_ok_iff]
    rfl
  | _ => simp [exportLeaf, World.IsExportable]

theorem shows_exportLeaf {value : Value} {out : ScriptHost.Value}
    (left : exportLeaf value = .ok out) : world.Shows value out := by
  cases value with
  | string bytes =>
    obtain ⟨text, found, rfl⟩ := map_eq_ok_iff.1 left
    exact .string (textOf_eq_ok_iff.1 found)
  | nil => cases left; exact .nil
  | boolean b => cases left; exact .boolean b
  | integer n => cases left; exact .integer n
  | number x => cases left; exact .number x
  | nan negative => cases left; exact .nan negative
  | host reference serial => cases left; exact .host reference serial
  | _ => cases left

/-! ## Which values leave -/

section

variable {views : Nat → TableView} (fits : ∀ id, (views id).Fits (world.table id)) {depth : Nat}
include fits

/-- A table leaves if its keys are numbers from one on or else texts, and the values of its entries
leave with one level less. -/
theorem exists_exportViewed_table_iff {id : Nat} :
    (∃ out, exportViewed views (depth + 1) (.table id) = .ok out)
      ↔ world.IsExportable (.table id)
        ∧ ∀ key value, (key, value) ∈ (world.table id).entries →
          ∃ part, exportViewed views depth value = .ok part := by
  have fit := fits id
  rw [exportViewed]
  cases view : views id with
  | row values =>
    rw [view] at fit
    obtain ⟨counted, made⟩ := fit
    have entries := counted.entries_perm
    rw [← made] at entries
    dsimp only
    rw [exists_map_eq_ok_iff, exists_exportItems_iff]
    constructor
    · intro leave
      refine ⟨.inl ⟨_, counted⟩, fun key value m => ?_⟩
      obtain ⟨i, lt, pair⟩ := mem_itemPairs.1 (entries.mem_iff.1 m)
      rw [(Prod.mk.inj pair).2]
      exact leave _ (List.getElem_mem lt)
    · rintro ⟨_, leave⟩ value m
      obtain ⟨i, lt, rfl⟩ := List.mem_iff_getElem.1 m
      exact leave _ _ (entries.mem_iff.2 (mem_itemPairs.2 ⟨i, lt, rfl⟩))
  | keyed entries =>
    rw [view] at fit
    obtain ⟨perm, uncounted⟩ := fit
    dsimp only
    rw [exists_map_eq_ok_iff, exists_exportEntries_iff]
    constructor
    · intro leave
      refine ⟨.inr fun key proper => ?_, fun key value m => ?_⟩
      · exact (leave _ (perm.mem_iff.2 (mem_entries.2 ⟨proper, rfl⟩))).1
      · exact (leave _ (perm.mem_iff.2 m)).2
    · rintro ⟨exportable, leave⟩ ⟨key, value⟩ m
      have there := perm.mem_iff.1 m
      obtain ⟨proper, found⟩ := mem_entries.1 there
      rw [← found] at proper
      exact ⟨exportable.resolve_left uncounted key proper, leave key value there⟩

/-- The values that leave reach exportable values only, through fewer tables than there are
levels. -/
theorem exists_exportViewed_iff {value : Value} :
    (∃ out, exportViewed views depth value = .ok out)
      ↔ ∀ inner count, world.Reaches inner count value →
        count < depth ∧ world.IsExportable inner := by
  induction depth generalizing value with
  | zero =>
    constructor
    · rintro ⟨out, left⟩
      cases left
    · intro h
      exact absurd (h value 0 .here).1 (Nat.lt_irrefl 0)
  | succ depth ih =>
    by_cases isTable : ∃ id, value = .table id
    · obtain ⟨id, rfl⟩ := isTable
      rw [exists_exportViewed_table_iff fits]
      simp only [ih]
      constructor
      · rintro ⟨exportable, entries⟩ inner count reaches
        cases reaches with
        | here => exact ⟨Nat.succ_pos depth, exportable⟩
        | entry m reaches =>
          obtain ⟨lt, inside⟩ := entries _ _ m _ _ reaches
          exact ⟨Nat.succ_lt_succ lt, inside⟩
      · intro h
        refine ⟨(h _ 0 .here).2, fun key value m inner count reaches => ?_⟩
        obtain ⟨lt, inside⟩ := h inner (count + 1) (.entry m reaches)
        exact ⟨Nat.lt_of_succ_lt_succ lt, inside⟩
    · have noTable : ∀ id, value ≠ .table id := fun id same => isTable ⟨id, same⟩
      rw [exportViewed_leaf noTable, exists_exportLeaf_iff noTable]
      constructor
      · intro exportable inner count reaches
        cases reaches with
        | here => exact ⟨Nat.succ_pos depth, exportable⟩
        | entry _ _ => exact absurd rfl (noTable _)
      · intro h
        exact (h value 0 .here).2

/-- A table that leaves as an array is shown by it, if its values are shown by the items. -/
theorem shows_array {id : Nat} {values : List Value} {items : List ScriptHost.Value}
    (view : views id = .row values)
    (shown : List.Forall₂ world.Shows values items) :
    world.Shows (.table id) (.array items) := by
  have fit := fits id
  rw [view] at fit
  obtain ⟨counted, made⟩ := fit
  have length := shown.length_eq
  refine .array (length ▸ counted) fun i lt => ?_
  have lt' : i < values.length := by omega
  have value_eq : values[i] = (world.table id).find (position i) := by
    rw [List.getElem_of_eq made lt']
    exact getElem_firstValues _
  rw [← value_eq]
  exact shown.get lt' lt

/-- A table that leaves as a map is shown by it, if its values are shown by those of the map. -/
theorem shows_map {id : Nat} {entries : List (Value × Value)}
    {pairs : List (String × ScriptHost.Value)} (view : views id = .keyed entries)
    (shown : List.Forall₂ (fun entry pair => entry.1 = .ofString pair.1
      ∧ world.Shows entry.2 pair.2) entries pairs) :
    world.Shows (.table id) (.map (Entries.ofList pairs)) := by
  have fit := fits id
  rw [view] at fit
  obtain ⟨perm, _⟩ := fit
  -- Different keys are different texts, so that no entry takes the place of another one.
  have keys : entries.map Prod.fst = pairs.map fun pair => Value.ofString pair.1 := by
    rw [← List.forall₂_eq_eq_eq, List.forall₂_map_left_iff, List.forall₂_map_right_iff]
    exact shown.imp fun _ _ both => both.1
  have nodup : (entries.map Prod.fst).Nodup :=
    (perm.map Prod.fst).nodup_iff.2 (world.table id).nodup_entries
  have different : (pairs.map Prod.fst).Nodup := by
    rw [keys] at nodup
    exact List.Nodup.of_map Value.ofString (by rwa [List.map_map])
  have entry_of {pair : String × ScriptHost.Value} (m : pair ∈ Entries.ofList pairs) :
      (world.table id).find (.ofString pair.1) ≠ .nil
        ∧ world.Shows ((world.table id).find (.ofString pair.1)) pair.2 := by
    obtain ⟨⟨key, value⟩, there, rfl, isShown⟩ :=
      mem_right_of_forall₂ shown ((Entries.mem_ofList different).1 m)
    obtain ⟨proper, found⟩ := mem_entries.1 (perm.mem_iff.1 there)
    rw [found]
    exact ⟨proper, isShown⟩
  refine .map (Entries.ascending_ofList pairs) (fun key => ?_) fun pair m => (entry_of m).2
  constructor
  · intro proper
    obtain ⟨pair, m, key_eq, _⟩ :=
      mem_left_of_forall₂ shown (perm.mem_iff.2 (mem_entries.2 ⟨proper, rfl⟩))
    exact ⟨pair, (Entries.mem_ofList different).2 m, key_eq⟩
  · rintro ⟨pair, m, rfl⟩
    exact (entry_of m).1

/-- What leaves is shown. -/
theorem shows_exportViewed {value : Value} {out : ScriptHost.Value}
    (left : exportViewed views depth value = .ok out) : world.Shows value out := by
  induction depth generalizing value out with
  | zero => cases left
  | succ depth ih =>
    by_cases isTable : ∃ id, value = .table id
    · obtain ⟨id, rfl⟩ := isTable
      rw [exportViewed] at left
      cases view : views id with
      | row values =>
        rw [view] at left
        obtain ⟨items, inner, rfl⟩ := map_eq_ok_iff.1 left
        exact shows_array fits view ((exportItems_eq_ok_iff.1 inner).imp fun _ _ => ih)
      | keyed entries =>
        rw [view] at left
        obtain ⟨pairs, inner, rfl⟩ := map_eq_ok_iff.1 left
        refine shows_map fits view ((exportEntries_eq_ok_iff.1 inner).imp fun _ _ both => ?_)
        exact ⟨keyText_eq_ok_iff.1 both.1, ih both.2⟩
    · have noTable : ∀ id, value ≠ .table id := fun id same => isTable ⟨id, same⟩
      rw [exportViewed_leaf noTable] at left
      exact shows_exportLeaf left

/-- What leaves, and as what. -/
theorem exportViewed_eq_ok_iff {value : Value} {out : ScriptHost.Value} :
    exportViewed views depth value = .ok out
      ↔ (∀ inner count, world.Reaches inner count value →
          count < depth ∧ world.IsExportable inner) ∧ world.Shows value out := by
  rw [← exists_exportViewed_iff fits]
  constructor
  · intro left
    exact ⟨⟨out, left⟩, shows_exportViewed fits left⟩
  · rintro ⟨⟨other, left⟩, shown⟩
    rw [left, (shows_exportViewed fits left).unique shown]

end

/-! ## Enumerations -/

/-- An enumeration of the entries of each table, and a length of it. -/
structure Survey (world : World) where
  order : Nat → List (Value × Value)
  length : Nat → Nat
  order_perm : ∀ id, (order id).Perm (world.table id).entries
  isBorder_length : ∀ id, (world.table id).IsBorder (length id)

/-- What is made of a table by its entries in the order of the enumeration and by its length. -/
def Survey.view (survey : Survey world) (id : Nat) : TableView :=
  if isRow (survey.length id) (survey.order id) then .row (rowValues (survey.order id))
  else .keyed (survey.order id)

/-- In whatever order the entries are enumerated, and whatever length is taken, what is made of
tables is right. -/
theorem Survey.fits_view (survey : Survey world) (id : Nat) :
    (survey.view id).Fits (world.table id) := by
  have perm := survey.order_perm id
  have row := isRow_iff perm (survey.isBorder_length id)
  unfold Survey.view
  split
  · next isRow =>
    obtain ⟨n, counted⟩ := row.1 isRow
    have values := rowValues_eq perm counted
    have length := length_firstValues (world.table id) n
    rw [values]
    exact ⟨length.symm ▸ counted, by rw [length]⟩
  · next noRow => exact ⟨perm, fun counted => noRow (row.2 counted)⟩

/-- There is an enumeration of every world, by the entries of the tables themselves. -/
theorem nonempty_survey (world : World) : Nonempty (Survey world) := by
  choose length isBorder using fun id => (world.table id).exists_isBorder
  exact ⟨⟨fun id => (world.table id).entries, length, fun _ => List.Perm.refl _, isBorder⟩⟩

/-! ## What leaves a script -/

theorem exportWithin_of_view_eq {other : World} (same : ∀ id, other.view id = world.view id)
    (depth : Nat) (value : Value) :
    exportWithin other depth value = exportWithin world depth value := by
  rw [← exportViewed_view, ← exportViewed_view, funext same]

theorem toOption_eq_of_ok_iff {α : Type} {first second : Except Error α}
    (same : ∀ a, first = .ok a ↔ second = .ok a) : first.toOption = second.toOption := by
  cases first with
  | ok a => rw [(same a).1 rfl]
  | error error =>
    cases second with
    | ok a => exact absurd ((same a).2 rfl) nofun
    | error _ => rfl

/-- A value leaves a script exactly if all that it reaches lies in at most 64 tables and is of a
kind that leaves, and it leaves as the value of the host that it is shown by. A value that leads to
a table on a cycle does not leave. In what has left there is no nil below the top and no empty
array. In which order the entries of tables are enumerated and which of its lengths a table is taken to
have makes no difference to that, and neither do metatables. -/
theorem export?_exact (world : World) (value : Value) :
    ((∃ out, export? world value = .ok out)
        ↔ ∀ inner count, world.Reaches inner count value → count ≤ 64 ∧ world.IsExportable inner)
      ∧ (∀ out, export? world value = .ok out
          ↔ (∀ inner count, world.Reaches inner count value →
              count ≤ 64 ∧ world.IsExportable inner) ∧ world.Shows value out)
      ∧ (∀ target key inner, (key, inner) ∈ (world.table target).entries →
          world.Leads target inner → world.Leads target value →
            ∃ error, export? world value = .error error)
      ∧ (∀ out, export? world value = .ok out →
          ∀ inner count, ScriptHost.Value.OccursUnder inner count out →
            inner ≠ .array [] ∧ (inner = .nil → count = 0))
      ∧ (∀ survey : Survey world,
          (exportViewed survey.view (nestingLimit + 1) value).toOption
            = (export? world value).toOption)
      ∧ ∀ other : World,
          (∀ id, ∃ metatable?, other.table id = { world.table id with metatable? }) →
            export? other value = export? world value := by
  have own : export? world value = exportViewed world.view (nestingLimit + 1) value :=
    (exportViewed_view _ _).symm
  have levels (count : Nat) : count < nestingLimit + 1 ↔ count ≤ 64 := Nat.lt_succ_iff
  refine ⟨?_, ?_, ?_, ?_, ?_, ?_⟩
  · simp only [← levels, own]
    exact exists_exportViewed_iff fits_view
  · intro out
    simp only [← levels, own]
    exact exportViewed_eq_ok_iff fits_view
  · intro target key inner m back leads
    cases left : export? world value with
    | error error => exact ⟨error, rfl⟩
    | ok out =>
      obtain ⟨lower, _, part, part_left⟩ := exists_exportWithin_of_leads leads left
      exact absurd part_left (not_exportWithin_of_cycle m back lower part)
  · intro out left inner count occurs
    obtain ⟨normal, zero⟩ := occurs.normal (normal_exportWithin left).1
    refine ⟨?_, zero⟩
    rintro rfl
    exact normal.self.1 rfl
  · intro survey
    refine toOption_eq_of_ok_iff fun out => ?_
    rw [own, exportViewed_eq_ok_iff survey.fits_view, exportViewed_eq_ok_iff fits_view]
  · intro other same
    refine exportWithin_of_view_eq (fun id => ?_) (nestingLimit + 1) value
    obtain ⟨metatable?, table⟩ := same id
    unfold World.view
    rw [table]
    rfl

/-- Rows of values leave as arrays, by whatever enumeration. A table that holds itself does not
leave. -/
theorem export?_exact_of_loop :
    let source := "rows = \x7b\x7b1, 2\x7d, \x7b\"a\"\x7d\x7d loop = \x7b\x7d loop.me = loop"
    ∃ script, (Interpreter.load .empty "lamp" source).result.toOption = some script
      ∧ (∃ out, export? script.world (script.world.globalNamed "rows") = .ok out
          ∧ out.same (.array [.array [.integer 1, .integer 2], .array [.string "a"]]) = true
          ∧ script.world.Shows (script.world.globalNamed "rows") out
          ∧ ¬ScriptHost.Value.OccursUnder .nil 2 out
          ∧ ∀ survey : Survey script.world,
            (exportViewed survey.view (nestingLimit + 1)
              (script.world.globalNamed "rows")).toOption = some out)
      ∧ (∃ error, export? script.world (script.world.globalNamed "loop") = .error error)
      ∧ export? (script.world.setMetatable 9 (some 0)) (script.world.globalNamed "rows")
          = export? script.world (script.world.globalNamed "rows") := by
  intro source
  have there : ∃ script, script ∈ (Interpreter.load .empty "lamp" source).result.toOption
      ∧ ((export? script.world (script.world.globalNamed "rows")).toOption.any fun out =>
          out.same (.array [.array [.integer 1, .integer 2], .array [.string "a"]])) = true
      ∧ script.world.globalNamed "loop" = .table 12
      ∧ (script.world.table 12).find (.ofString "me") = .table 12 := by
    decide +kernel
  obtain ⟨script, loaded, rows, loop, entry⟩ := there
  obtain ⟨_, shown, _, nils, surveys, metatables⟩ :=
    export?_exact script.world (script.world.globalNamed "rows")
  obtain ⟨_, _, cycles, _⟩ := export?_exact script.world (script.world.globalNamed "loop")
  have me : (.ofString "me", .table 12) ∈ (script.world.table 12).entries :=
    mem_entries.2 ⟨nofun, entry⟩
  obtain ⟨out, left, same⟩ : ∃ out,
      export? script.world (script.world.globalNamed "rows") = .ok out
        ∧ out.same (.array [.array [.integer 1, .integer 2], .array [.string "a"]]) = true := by
    cases left : export? script.world (script.world.globalNamed "rows") with
    | error error =>
      rw [left] at rows
      cases rows
    | ok out =>
      rw [left] at rows
      exact ⟨out, rfl, rows⟩
  refine ⟨script, loaded, ⟨out, left, same, ((shown out).1 left).2, ?_, fun survey => ?_⟩,
    cycles 12 _ _ me .here (loop ▸ .here), metatables _ fun id => ?_⟩
  · exact fun occurs => absurd ((nils out left _ 2 occurs).2 rfl) (by decide)
  · rw [surveys survey, left]
    rfl
  · unfold World.setMetatable
    rw [World.table_modifyTable]
    split
    · exact ⟨_, rfl⟩
    · exact ⟨_, rfl⟩

end ScriptHost.Script
