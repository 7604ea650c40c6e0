import ScriptHost.Proofs.Entries
import ScriptHost.Proofs.Json.Documents
import ScriptHost.Proofs.Value.Structure

/-!
# Tagged forms are read back

* `Value.isSome_tagged?_iff` : the values that have a tagged form.
* `Value.reread?` : what the written form of a value is read as, which can differ from the value in
  its floating point numbers only.
* `Value.ofTagged?_tagged` : the tagged form of a value is read as that, if it is not nested too
  deeply.
-/

namespace ScriptHost.Value

open Json

/-! ## Values with a tagged form -/

theorem taggedItems?_cons (item : Value) (items : List Value) :
    taggedItems? (item :: items)
      = (tagged? item).bind fun first => (taggedItems? items).map (first :: ·) := by
  rw [taggedItems?]
  cases tagged? item with
  | none => rfl
  | some first => cases taggedItems? items <;> rfl

theorem taggedEntries?_cons (entry : String × Value) (entries : Entries Value) :
    taggedEntries? (entry :: entries)
      = (tagged? entry.2).bind fun first =>
        (taggedEntries? entries).map ((entry.1, first) :: ·) := by
  rw [taggedEntries?]
  cases tagged? entry.2 with
  | none => rfl
  | some first => cases taggedEntries? entries <;> rfl

theorem isSome_taggedItems?_iff {items : List Value} :
    (taggedItems? items).isSome = true ↔ ∀ item ∈ items, (tagged? item).isSome = true := by
  induction items with
  | nil => simp [taggedItems?]
  | cons item items ih =>
    rw [List.forall_mem_cons, ← ih, taggedItems?_cons]
    cases tagged? item <;> simp

theorem isSome_taggedEntries?_iff {entries : Entries Value} :
    (taggedEntries? entries).isSome = true
      ↔ ∀ entry ∈ entries, (tagged? entry.2).isSome = true := by
  induction entries with
  | nil => simp [taggedEntries?]
  | cons entry entries ih =>
    rw [List.forall_mem_cons, ← ih, taggedEntries?_cons]
    cases tagged? entry.2 <;> simp

/-- A value has a tagged form when there is no reference inside it. -/
theorem isSome_tagged?_iff (value : Value) :
    (tagged? value).isSome = true ↔ Throughout (fun inner => ¬IsHost inner) value := by
  induction value using tree_induction with
  | ofLeaf value leaf =>
    rw [throughout_leaf leaf]
    cases value with
    | array items => cases leaf
    | map entries => cases leaf
    | _ => simp [tagged?, IsHost]
  | ofArray items ih =>
    rw [throughout_array, tagged?, Option.isSome_map, isSome_taggedItems?_iff]
    simp only [IsHost, not_false_eq_true, true_and]
    exact forall₂_congr ih
  | ofMap entries ih =>
    rw [throughout_map, tagged?, Option.isSome_map, isSome_taggedEntries?_iff]
    simp only [IsHost, not_false_eq_true, true_and]
    exact forall₂_congr ih

/-! ## Reading -/

mutual

/-- What the written form of a value is read as: every number is what its text is read as. -/
def reread? : Value → Option Value
  | number x => (numberDocument x).real?.map number
  | nan _ => none
  | host _ => none
  | array items => (rereadItems? items).map array
  | map entries => (rereadEntries? entries).map map
  | value => some value

/-- What the written forms of some values are read as. -/
def rereadItems? : List Value → Option (List Value)
  | [] => some []
  | item :: items => (reread? item).bind fun first => (rereadItems? items).map (first :: ·)

/-- What the written forms of the entries of a map are read as. -/
def rereadEntries? : List (String × Value) → Option (List (String × Value))
  | [] => some []
  | (key, value) :: entries =>
    (reread? value).bind fun first => (rereadEntries? entries).map ((key, first) :: ·)

end

/-- An integer that fits into sixty-four bits with a sign is read back. -/
theorem integer?_integerDocument {value : Int} (low : -Nat.pow 2 63 ≤ value)
    (high : value < Nat.pow 2 63) : (integerDocument value).integer? = some value := by
  have read : ofNumber? (decide (value < 0)) ⟨Decimal.digitsOf value.natAbs, [], none⟩
      = some (.integer value) := by
    unfold ofNumber?
    dsimp only
    rw [Decimal.readDigits_digitsOf]
    have limit : Decimal.Literal.wordLimit = 2 ^ 64 := rfl
    have half : Nat.pow 2 63 = 2 ^ 63 := rfl
    rw [half] at low high ⊢
    by_cases negative : value < 0
    · rw [if_neg (by simp [negative]), if_pos (by simp [negative]; omega)]
      have same : -(value.natAbs : Int) = value := by omega
      rw [same]
    · have same : (value.natAbs : Int) = value := by omega
      rw [if_pos (by simp [negative, limit]; omega), same]
  simp only [integerDocument, Document.integer?, read]

/-- An integer of sixty-four bits is read back. -/
theorem word?_integerDocument (value : Int64) :
    (integerDocument value.toInt).word? = some value := by
  have low : -Nat.pow 2 63 ≤ value.toInt := value.le_toInt
  have high : value.toInt < Nat.pow 2 63 := value.toInt_lt
  unfold Document.word?
  rw [integer?_integerDocument low high]
  have bound : value.toInt ≤ Int64.maxValue.toInt := Int.le_of_lt_add_one high
  show (if value.toInt ≤ Int64.maxValue.toInt then some (Int64.ofInt value.toInt) else none) = _
  rw [if_pos bound, Int64.ofInt_toInt]

/-- A tagged form is taken apart into its kind and its payload. -/
theorem tagged_tag (kind : String) (payload : Json) (depth : Nat) :
    tagged false depth (tag kind payload).document = some ⟨kind, some payload.document, false⟩ := by
  rfl

/-- Two parts that are read if each of them fits are read if the deeper of them fits. -/
theorem bind_of_fits {α β γ : Type} (a b depth : Nat) (first? : Option α) (rest? : Option β)
    (join : α → β → γ) :
    ((if a ≤ depth then first? else none).bind fun first =>
        (if b ≤ depth then rest? else none).bind fun rest => some (join first rest))
      = if max a b ≤ depth then first?.bind fun first => rest?.map (join first) else none := by
  by_cases fits : a ≤ depth
  · by_cases deep : b ≤ depth
    · rw [if_pos fits, if_pos deep, if_pos (Nat.max_le.2 ⟨fits, deep⟩)]
      cases rest? <;> rfl
    · rw [if_pos fits, if_neg deep, if_neg fun both => deep (Nat.max_le.1 both).2]
      cases first? <;> rfl
  · rw [if_neg fits, if_neg fun both => fits (Nat.max_le.1 both).1]
    rfl

/-- The items of an array are read one by one. -/
theorem mapM_documents_tagged {items : List Value} {forms : List Json} {depth : Nat}
    (forms_eq : taggedItems? items = some forms)
    (h : ∀ item ∈ items, ∀ form, tagged? item = some form →
      ofTagged? false depth form.document
        = if taggedNesting item ≤ depth then reread? item else none) :
    (documents forms).mapM (ofTagged? false depth)
      = if deepestItem items ≤ depth then rereadItems? items else none := by
  induction items generalizing forms with
  | nil =>
    cases forms_eq
    rfl
  | cons item items ih =>
    rw [taggedItems?_cons, Option.bind_eq_some_iff] at forms_eq
    obtain ⟨first, first_eq, forms_eq⟩ := forms_eq
    obtain ⟨rest, rest_eq, rfl⟩ := Option.map_eq_some_iff.1 forms_eq
    have read := h item List.mem_cons_self first first_eq
    have others := ih rest_eq fun other m => h other (List.mem_cons_of_mem item m)
    rw [documents, List.mapM_cons, read, others, deepestItem_cons, rereadItems?]
    exact bind_of_fits (taggedNesting item) (deepestItem items) depth _ _ List.cons

/-- The members of an object are read one by one. -/
theorem mapM_memberDocuments_tagged {entries : Entries Value} {forms : List (String × Json)}
    {depth : Nat} (forms_eq : taggedEntries? entries = some forms)
    (h : ∀ entry ∈ entries, ∀ form, tagged? entry.2 = some form →
      ofTagged? false depth form.document
        = if taggedNesting entry.2 ≤ depth then reread? entry.2 else none) :
    (memberDocuments forms).mapM
        (fun member => do some (← member.1, ← ofTagged? false depth member.2))
      = if deepestEntry entries ≤ depth then rereadEntries? entries else none := by
  induction entries generalizing forms with
  | nil =>
    cases forms_eq
    rfl
  | cons entry entries ih =>
    rw [taggedEntries?_cons, Option.bind_eq_some_iff] at forms_eq
    obtain ⟨first, first_eq, forms_eq⟩ := forms_eq
    obtain ⟨rest, rest_eq, rfl⟩ := Option.map_eq_some_iff.1 forms_eq
    have read := h entry List.mem_cons_self first first_eq
    have others := ih rest_eq fun other m => h other (List.mem_cons_of_mem entry m)
    rw [memberDocuments, List.mapM_cons, others, deepestEntry_cons, rereadEntries?]
    simp only [read, Option.bind_eq_bind, Option.bind_some, Option.bind_assoc]
    exact bind_of_fits (taggedNesting entry.2) (deepestEntry entries) depth _ _
      fun first rest => (entry.1, first) :: rest

/-- Reading keeps the keys of a map. -/
theorem keys_rereadEntries? {entries read : Entries Value}
    (h : rereadEntries? entries = some read) : read.map Prod.fst = entries.map Prod.fst := by
  induction entries generalizing read with
  | nil =>
    cases h
    rfl
  | cons entry entries ih =>
    rw [rereadEntries?, Option.bind_eq_some_iff] at h
    obtain ⟨first, _, h⟩ := h
    obtain ⟨rest, rest_eq, rfl⟩ := Option.map_eq_some_iff.1 h
    rw [List.map_cons, List.map_cons, ih rest_eq]

/-- What is read keeps its place in the order of the keys. -/
theorem ofList_rereadEntries? {entries read : Entries Value} (sorted : Entries.Ascending entries)
    (h : rereadEntries? entries = some read) : Entries.ofList read = read := by
  refine Entries.ofList_of_ascending (List.pairwise_map.1 ?_)
  rw [keys_rereadEntries? h]
  exact List.pairwise_map.2 sorted

/-- The tagged form of a leaf is read at any depth but zero. -/
theorem ofTagged?_leaf {value : Value} (leaf : value.isLeaf = true) {form : Json}
    (form_eq : tagged? value = some form) (depth : Nat) :
    ofTagged? false (depth + 1) form.document = reread? value := by
  cases value with
  | array items => cases leaf
  | map entries => cases leaf
  | host reference => cases form_eq
  | nil =>
    cases form_eq
    rw [ofTagged?]
    rfl
  | integer value =>
    cases form_eq
    rw [ofTagged?, tagged_tag]
    show ((integerDocument value.toInt).word?).map integer = _
    rw [word?_integerDocument]
    rfl
  | _ =>
    cases form_eq
    rw [ofTagged?, tagged_tag]
    rfl

/-- The tagged form of an array takes two levels, and the items are read below them. -/
theorem ofTagged?_array (forms : List Json) (depth : Nat) :
    ofTagged? false (depth + 2) (tag "array" (.array forms)).document
      = ((documents forms).mapM (ofTagged? false depth)).map array := by
  rw [ofTagged?, tagged_tag]
  rfl

/-- The tagged form of a map takes two levels, and the values are read below them. -/
theorem ofTagged?_map (forms : List (String × Json)) (depth : Nat) :
    ofTagged? false (depth + 2) (tag "map" (.object forms)).document
      = (entries? (ofTagged? false depth) (memberDocuments forms)).map map := by
  rw [ofTagged?, tagged_tag]
  rfl

/-- The items of an array are read as what their forms are. -/
theorem readItems_tagged (depth : Nat) {items : List Value} {forms : List Json}
    (forms_eq : taggedItems? items = some forms)
    (h : ∀ item ∈ items, ∀ form, tagged? item = some form →
      ofTagged? false depth form.document
        = if taggedNesting item ≤ depth then reread? item else none) :
    ((documents forms).mapM (ofTagged? false depth)).map array
      = if deepestItem items ≤ depth then reread? (array items) else none := by
  rw [mapM_documents_tagged forms_eq h, reread?]
  split <;> rfl

/-- The entries of a map are read as what their forms are, and stay in order. -/
theorem readEntries_tagged (depth : Nat) {entries : Entries Value} {forms : List (String × Json)}
    (sorted : Entries.Ascending entries) (forms_eq : taggedEntries? entries = some forms)
    (h : ∀ entry ∈ entries, ∀ form, tagged? entry.2 = some form →
      ofTagged? false depth form.document
        = if taggedNesting entry.2 ≤ depth then reread? entry.2 else none) :
    (entries? (ofTagged? false depth) (memberDocuments forms)).map map
      = if deepestEntry entries ≤ depth then reread? (map entries) else none := by
  unfold entries?
  rw [mapM_memberDocuments_tagged forms_eq h, reread?]
  split
  · cases read : rereadEntries? entries with
    | none => rfl
    | some values => simp [ofList_rereadEntries? sorted read]
  · rfl

/-- The tagged form of a value is read as that, if it is not nested too deeply. -/
theorem ofTagged?_tagged {value : Value} (ordered : Ordered value) {form : Json}
    (form_eq : tagged? value = some form) (depth : Nat) :
    ofTagged? false depth form.document
      = if taggedNesting value ≤ depth then reread? value else none := by
  induction value using tree_induction generalizing form depth with
  | ofLeaf value leaf =>
    have shallow : taggedNesting value = 1 := by
      cases value with
      | array items => cases leaf
      | map entries => cases leaf
      | _ => rfl
    rw [shallow]
    cases depth with
    | zero => rw [ofTagged?, if_neg (by omega)]
    | succ depth => rw [ofTagged?_leaf leaf form_eq, if_pos (by omega)]
  | ofArray items ih =>
    rw [tagged?, Option.map_eq_some_iff] at form_eq
    obtain ⟨forms, forms_eq, rfl⟩ := form_eq
    match depth with
    | 0 => rw [ofTagged?, taggedNesting_array, if_neg (by omega)]
    | 1 =>
      rw [ofTagged?, tagged_tag, taggedNesting_array, if_neg (by omega)]
      rfl
    | depth + 2 =>
      have read := readItems_tagged depth forms_eq fun item m form form_eq =>
        ih item m ((throughout_array.1 ordered).2 item m) form_eq depth
      rw [ofTagged?_array, read, taggedNesting_array]
      simp only [Nat.add_comm 2, Nat.add_le_add_iff_right]
  | ofMap entries ih =>
    rw [tagged?, Option.map_eq_some_iff] at form_eq
    obtain ⟨forms, forms_eq, rfl⟩ := form_eq
    obtain ⟨sorted, inner⟩ := throughout_map.1 ordered
    match depth with
    | 0 => rw [ofTagged?, taggedNesting_map, if_neg (by omega)]
    | 1 =>
      rw [ofTagged?, tagged_tag, taggedNesting_map, if_neg (by omega)]
      rfl
    | depth + 2 =>
      have read := readEntries_tagged depth sorted forms_eq fun entry m form form_eq =>
        ih entry m (inner entry m) form_eq depth
      rw [ofTagged?_map, read, taggedNesting_map]
      simp only [Nat.add_comm 2, Nat.add_le_add_iff_right]

/-- The list of the tagged forms of some items is read as the items. -/
theorem ofTaggedItems?_tagged {items : List Value} (ordered : Ordered (array items))
    {forms : List Json} (forms_eq : taggedItems? items = some forms) (depth : Nat) :
    (ofTaggedItems? depth (.array (documents forms))).map array
      = if payloadNesting (array items) ≤ depth then reread? (array items) else none := by
  cases depth with
  | zero =>
    rw [payloadNesting, if_neg (by omega)]
    rfl
  | succ depth =>
    have read := readItems_tagged depth forms_eq fun item m form form_eq =>
      ofTagged?_tagged ((throughout_array.1 ordered).2 item m) form_eq depth
    rw [ofTaggedItems?, read, payloadNesting]
    simp only [Nat.add_comm 1, Nat.add_le_add_iff_right]

/-- The object of the tagged forms of some entries is read as the entries. -/
theorem ofTaggedEntries?_tagged {entries : Entries Value} (ordered : Ordered (map entries))
    {forms : List (String × Json)} (forms_eq : taggedEntries? entries = some forms) (depth : Nat) :
    (ofTaggedEntries? depth (.object (memberDocuments forms))).map map
      = if payloadNesting (map entries) ≤ depth then reread? (map entries) else none := by
  obtain ⟨sorted, inner⟩ := throughout_map.1 ordered
  cases depth with
  | zero =>
    rw [payloadNesting, if_neg (by omega)]
    rfl
  | succ depth =>
    have read := readEntries_tagged depth sorted forms_eq fun entry m form form_eq =>
      ofTagged?_tagged (inner entry m) form_eq depth
    rw [ofTaggedEntries?, read, payloadNesting]
    simp only [Nat.add_comm 1, Nat.add_le_add_iff_right]

theorem rereadItems?_of_same {items : List Value} (h : ∀ item ∈ items, reread? item = some item) :
    rereadItems? items = some items := by
  induction items with
  | nil => rfl
  | cons item items ih =>
    have rest := ih fun other m => h other (List.mem_cons_of_mem item m)
    rw [rereadItems?, h item List.mem_cons_self, rest]
    rfl

theorem rereadEntries?_of_same {entries : Entries Value}
    (h : ∀ entry ∈ entries, reread? entry.2 = some entry.2) :
    rereadEntries? entries = some entries := by
  induction entries with
  | nil => rfl
  | cons entry entries ih =>
    have rest := ih fun other m => h other (List.mem_cons_of_mem entry m)
    rw [rereadEntries?, h entry List.mem_cons_self, rest]
    rfl

/-- What is read from the written form of a value without floating point numbers and references is
the value. -/
theorem reread?_of_floatFree {value : Value}
    (floatFree : Throughout (fun inner => ¬IsFloat inner) value)
    (hostFree : Throughout (fun inner => ¬IsHost inner) value) : reread? value = some value := by
  induction value using tree_induction with
  | ofLeaf value leaf =>
    cases value with
    | array items => cases leaf
    | map entries => cases leaf
    | number x => exact absurd trivial floatFree.self
    | nan negative => exact absurd trivial floatFree.self
    | host reference => exact absurd trivial hostFree.self
    | _ => rfl
  | ofArray items ih =>
    have same : ∀ item ∈ items, reread? item = some item := fun item m =>
      ih item m ((throughout_array.1 floatFree).2 item m) ((throughout_array.1 hostFree).2 item m)
    rw [reread?, rereadItems?_of_same same]
    rfl
  | ofMap entries ih =>
    have same : ∀ entry ∈ entries, reread? entry.2 = some entry.2 := fun entry m =>
      ih entry m ((throughout_map.1 floatFree).2 entry m) ((throughout_map.1 hostFree).2 entry m)
    rw [reread?, rereadEntries?_of_same same]
    rfl

end ScriptHost.Value
