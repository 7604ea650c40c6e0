import Mathlib.Data.Finset.Card
import ScriptHost.Proofs.Entries
import ScriptHost.Proofs.Instance.Steady

/-!
# The attachments of a tag index

A tag index keeps the tags of every function and the functions of every tag. Both maps hold one
relation, and neither has a key with nothing under it.

* `TagIndex.Holds` : what a map of sets holds, and `TagIndex.Tidy` : its form.
* `TagIndex.Describes` : both maps of an index hold a relation.
* `TagIndex.describes_changed` : the relation after some attachments and prunings.
* `TagIndex.consistent_index` : the index of every script that is built, and every index that is
  made by attaching and pruning, is consistent.
-/

namespace ScriptHost

theorem Registry.containsName_iff {registry : Registry} {name : String} :
    registry.containsName name = true ↔ name ∈ registry.names := List.contains_iff_mem

namespace TagIndex

/-! ## Maps of sets -/

/-- A name is in the set under a key. -/
def Holds (sets : Entries NameSet) (key name : String) : Prop :=
  ∃ names, (key, names) ∈ sets ∧ name ∈ names

/-- Each key stands once, in ascending order, and so does each name under it. No key has nothing
under it. -/
structure Tidy (sets : Entries NameSet) : Prop where
  ascending : Entries.Ascending sets
  names_ascending : ∀ entry ∈ sets, NameSet.Ascending entry.2
  nonempty : ∀ entry ∈ sets, entry.2 ≠ []

theorem tidy_nil : Tidy [] := by
  constructor <;> simp

theorem not_holds_nil (key name : String) : ¬Holds [] key name := by
  rintro ⟨names, m, _⟩
  cases m

variable {sets : Entries NameSet}

/-- What is found under a key is what the map holds there. -/
theorem mem_getD_find?_iff (h : Entries.Ascending sets) {key name : String} :
    name ∈ (Entries.find? key sets).getD [] ↔ Holds sets key name := by
  constructor
  · intro m
    cases found : Entries.find? key sets with
    | none =>
      rw [found] at m
      cases m
    | some names =>
      rw [found, Option.getD_some] at m
      exact ⟨names, (Entries.mem_iff_find? h).2 found, m⟩
  · rintro ⟨names, there, m⟩
    rw [(Entries.mem_iff_find? h).1 there, Option.getD_some]
    exact m

/-- What is found under a key of a tidy map stands in ascending order. -/
theorem Tidy.ascending_getD_find? (h : Tidy sets) (key : String) :
    NameSet.Ascending ((Entries.find? key sets).getD []) := by
  cases found : Entries.find? key sets with
  | none => exact NameSet.ascending_nil
  | some names => exact h.names_ascending (key, names) ((Entries.mem_iff_find? h.ascending).2 found)

/-- Adding a name under a key adds that, and nothing else. -/
theorem holds_addTo (h : Entries.Ascending sets) {key name k n : String} :
    Holds (addTo key name sets) k n ↔ (k = key ∧ n = name) ∨ Holds sets k n := by
  have old : n ∈ NameSet.insert name ((Entries.find? key sets).getD [])
      ↔ n = name ∨ Holds sets key n := by
    rw [NameSet.mem_insert, mem_getD_find?_iff h]
  constructor
  · rintro ⟨names, there, m⟩
    rcases (Entries.mem_insert h).1 there with same | ⟨_, there⟩
    · obtain ⟨rfl, rfl⟩ := Prod.mk.inj same
      rcases old.1 m with rfl | held
      · exact .inl ⟨rfl, rfl⟩
      · exact .inr held
    · exact .inr ⟨names, there, m⟩
  · intro held
    by_cases same : k = key
    · subst same
      refine ⟨_, (Entries.mem_insert h).2 (.inl rfl), old.2 ?_⟩
      rcases held with ⟨_, rfl⟩ | held
      · exact .inl rfl
      · exact .inr held
    · rcases held with ⟨e, _⟩ | ⟨names, there, m⟩
      · exact absurd e same
      · exact ⟨names, (Entries.mem_insert h).2 (.inr ⟨same, there⟩), m⟩

theorem Tidy.addTo (h : Tidy sets) (key name : String) : Tidy (TagIndex.addTo key name sets) := by
  refine ⟨h.ascending.insert key _, ?_, ?_⟩
  · intro entry m
    rcases (Entries.mem_insert h.ascending).1 m with rfl | ⟨_, m⟩
    · exact (h.ascending_getD_find? key).insert name
    · exact h.names_ascending entry m
  · intro entry m
    rcases (Entries.mem_insert h.ascending).1 m with rfl | ⟨_, m⟩
    · exact List.ne_nil_of_mem (NameSet.mem_insert.2 (.inl rfl))
    · exact h.nonempty entry m

/-- Keeping some keys keeps what is under them. -/
theorem holds_retain (keep : String → Bool) {key name : String} :
    Holds (Entries.retain keep sets) key name ↔ keep key = true ∧ Holds sets key name := by
  constructor
  · rintro ⟨names, there, m⟩
    obtain ⟨there, kept⟩ := List.mem_filter.1 there
    exact ⟨kept, names, there, m⟩
  · rintro ⟨kept, names, there, m⟩
    exact ⟨names, List.mem_filter.2 ⟨there, kept⟩, m⟩

theorem Tidy.retain (h : Tidy sets) (keep : String → Bool) :
    Tidy (Entries.retain keep sets) := by
  refine ⟨h.ascending.retain keep, ?_, ?_⟩
  · intro entry m
    exact h.names_ascending entry (List.mem_filter.1 m).1
  · intro entry m
    exact h.nonempty entry (List.mem_filter.1 m).1

/-- Keeps some names under every key, and the keys that still have one. -/
def prune (keep : String → Bool) (sets : Entries NameSet) : Entries NameSet :=
  (Entries.mapValues (List.filter keep) sets).filter fun entry => !entry.2.isEmpty

theorem mem_prune {keep : String → Bool} {entry : String × NameSet} :
    entry ∈ prune keep sets
      ↔ entry.2 ≠ [] ∧ ∃ names, (entry.1, names) ∈ sets ∧ entry.2 = names.filter keep := by
  rw [prune, List.mem_filter, Entries.mapValues, List.mem_map]
  constructor
  · rintro ⟨⟨⟨key, names⟩, there, rfl⟩, proper⟩
    refine ⟨?_, names, there, rfl⟩
    intro isEmpty
    rw [isEmpty] at proper
    cases proper
  · rintro ⟨proper, names, there, same⟩
    refine ⟨⟨(entry.1, names), there, ?_⟩, by simpa using proper⟩
    rw [← same]

/-- Keeping some names under every key keeps those and nothing else. -/
theorem holds_prune (keep : String → Bool) {key name : String} :
    Holds (prune keep sets) key name ↔ keep name = true ∧ Holds sets key name := by
  constructor
  · rintro ⟨kept, there, m⟩
    obtain ⟨_, names, there, same⟩ := mem_prune.1 there
    rw [show kept = names.filter keep from same, List.mem_filter] at m
    exact ⟨m.2, names, there, m.1⟩
  · rintro ⟨keeps, names, there, m⟩
    have kept : name ∈ names.filter keep := List.mem_filter.2 ⟨m, keeps⟩
    exact ⟨_, mem_prune.2 ⟨List.ne_nil_of_mem kept, names, there, rfl⟩, kept⟩

theorem Tidy.prune (h : Tidy sets) (keep : String → Bool) : Tidy (TagIndex.prune keep sets) := by
  refine ⟨?_, ?_, ?_⟩
  · have mapped : Entries.Ascending (Entries.mapValues (List.filter keep) sets) :=
      List.pairwise_map.2 h.ascending
    exact List.Pairwise.filter _ mapped
  · intro entry m
    obtain ⟨_, names, there, same⟩ := mem_prune.1 m
    rw [same]
    exact List.Pairwise.filter _ (h.names_ascending _ there)
  · intro entry m
    exact (mem_prune.1 m).1

/-! ## Both sides of a relation -/

/-- Both maps are tidy, and each holds what the other one holds, from the other side. -/
structure Consistent (index : TagIndex) : Prop where
  functions_tidy : Tidy index.functionToTags
  tags_tidy : Tidy index.tagToFunctions
  inverse : ∀ function tag,
    Holds index.functionToTags function tag ↔ Holds index.tagToFunctions tag function

/-- Both maps hold a relation of functions and tags, and nothing else. -/
structure Describes (index : TagIndex) (relation : String → String → Prop) : Prop where
  functions_tidy : Tidy index.functionToTags
  tags_tidy : Tidy index.tagToFunctions
  holds_function : ∀ function tag,
    Holds index.functionToTags function tag ↔ relation function tag
  holds_tag : ∀ function tag,
    Holds index.tagToFunctions tag function ↔ relation function tag

variable {index : TagIndex} {relation : String → String → Prop}

theorem Describes.consistent (h : Describes index relation) : Consistent index := by
  refine ⟨h.functions_tidy, h.tags_tidy, ?_⟩
  intro function tag
  rw [h.holds_function, h.holds_tag]

theorem Consistent.describes (h : Consistent index) :
    Describes index (Holds index.functionToTags) :=
  ⟨h.functions_tidy, h.tags_tidy, fun _ _ => Iff.rfl, fun function tag => (h.inverse function tag).symm⟩

/-- An attachment. -/
theorem Describes.attach (h : Describes index relation) (function tag : String) :
    Describes (index.attach function tag)
      fun f t => (f = function ∧ t = tag) ∨ relation f t := by
  refine ⟨h.functions_tidy.addTo function tag, h.tags_tidy.addTo tag function, ?_, ?_⟩
  · intro f t
    rw [← h.holds_function]
    exact holds_addTo h.functions_tidy.ascending
  · intro f t
    rw [← h.holds_tag, and_comm]
    exact holds_addTo h.tags_tidy.ascending

/-- A pruning: one map loses keys, and the other one names under its keys. -/
theorem Describes.retainFunctions (h : Describes index relation) (keep : String → Bool) :
    Describes (index.retainFunctions keep) fun f t => keep f = true ∧ relation f t := by
  refine ⟨h.functions_tidy.retain keep, h.tags_tidy.prune keep, ?_, ?_⟩
  · intro f t
    rw [← h.holds_function]
    exact holds_retain keep
  · intro f t
    rw [← h.holds_tag]
    exact holds_prune keep

theorem Describes.congr {relation other : String → String → Prop} (h : Describes index relation)
    (same : ∀ function tag, relation function tag ↔ other function tag) :
    Describes index other := by
  refine ⟨h.functions_tidy, h.tags_tidy, ?_, ?_⟩
  · intro function tag
    rw [h.holds_function, same]
  · intro function tag
    rw [h.holds_tag, same]

theorem describes_empty : Describes {} fun _ _ => False := by
  refine ⟨tidy_nil, tidy_nil, ?_, ?_⟩
  · intro f t
    exact iff_of_false (not_holds_nil f t) id
  · intro f t
    exact iff_of_false (not_holds_nil t f) id

/-! ## Questions -/

/-- An index answers questions by the relation that its maps hold. -/
structure Answers (index : TagIndex) (relation : String → String → Prop) : Prop where
  hasTag_iff : ∀ function tag, index.hasTag function tag = true ↔ relation function tag
  mem_functionsWithTag_iff : ∀ function tag,
    function ∈ index.functionsWithTag tag ↔ relation function tag
  functionsWithTag_ascending : ∀ tag, NameSet.Ascending (index.functionsWithTag tag)
  mem_tagsOf_iff : ∀ function tag, tag ∈ index.tagsOf function ↔ relation function tag
  tagsOf_ascending : ∀ function, NameSet.Ascending (index.tagsOf function)
  /-- There are as many attachments as pairs in the relation. -/
  attachmentCount_eq : ∃ pairs : Finset (String × String),
    (∀ function tag, (function, tag) ∈ pairs ↔ relation function tag)
      ∧ index.attachmentCount = pairs.card

/-- The attachments of an index, function by function. -/
def attachments (index : TagIndex) : List (String × String) :=
  index.functionToTags.flatMap fun entry => entry.2.map fun tag => (entry.1, tag)

theorem mem_attachments {function tag : String} :
    (function, tag) ∈ index.attachments ↔ Holds index.functionToTags function tag := by
  rw [attachments, List.mem_flatMap]
  constructor
  · rintro ⟨⟨key, names⟩, there, m⟩
    obtain ⟨name, attached, same⟩ := List.mem_map.1 m
    obtain ⟨rfl, rfl⟩ := Prod.mk.inj same
    exact ⟨names, there, attached⟩
  · rintro ⟨names, there, m⟩
    exact ⟨(function, names), there, List.mem_map.2 ⟨tag, m, rfl⟩⟩

theorem length_attachments : index.attachments.length = index.attachmentCount := by
  simp [attachments, attachmentCount, List.length_flatMap]

theorem nodup_attachments (h : Tidy index.functionToTags) : index.attachments.Nodup := by
  refine List.nodup_flatMap.2 ⟨?_, ?_⟩
  · intro entry m
    refine (h.names_ascending entry m).nodup.map ?_
    intro a b same
    exact (Prod.mk.inj same).2
  · -- Attachments of different functions are different.
    refine h.ascending.imp fun {a b} lt => ?_
    intro pair m n
    obtain ⟨_, _, rfl⟩ := List.mem_map.1 m
    obtain ⟨_, _, same⟩ := List.mem_map.1 n
    rw [← (Prod.mk.inj same).1] at lt
    exact String.lt_irrefl _ lt

theorem Describes.answers (h : Describes index relation) : Answers index relation := by
  have functions : ∀ function tag, function ∈ index.functionsWithTag tag ↔ relation function tag :=
    fun function tag => (mem_getD_find?_iff h.tags_tidy.ascending).trans (h.holds_tag function tag)
  have tags : ∀ function tag, tag ∈ index.tagsOf function ↔ relation function tag :=
    fun function tag =>
      (mem_getD_find?_iff h.functions_tidy.ascending).trans (h.holds_function function tag)
  refine ⟨?_, functions, h.tags_tidy.ascending_getD_find?, tags,
    h.functions_tidy.ascending_getD_find?, index.attachments.toFinset, ?_, ?_⟩
  · intro function tag
    rw [← tags, hasTag, List.contains_iff_mem]
    rfl
  · intro function tag
    rw [List.mem_toFinset, mem_attachments, h.holds_function]
  · rw [List.toFinset_card_of_nodup (nodup_attachments h.functions_tidy), length_attachments]

/-! ## Some changes after each other -/

/-- A change of the attachments. -/
inductive Change where
  | attach (function tag : String)
  /-- Keeps the attachments of the functions that pass the test. -/
  | retain (keep : String → Bool)

/-- An index after a change. -/
def Change.apply (index : TagIndex) : Change → TagIndex
  | attach function tag => index.attach function tag
  | retain keep => index.retainFunctions keep

/-- A relation after a change. -/
def Change.relate (relation : String → String → Prop) : Change → String → String → Prop
  | attach function tag => fun f t => (f = function ∧ t = tag) ∨ relation f t
  | retain keep => fun f t => keep f = true ∧ relation f t

/-- The index after some changes of an empty one, and the relation after the same changes. -/
def changed (changes : List Change) : TagIndex := changes.foldl Change.apply {}

@[inherit_doc changed]
def related (changes : List Change) : String → String → Prop :=
  changes.foldl Change.relate fun _ _ => False

theorem Describes.apply (h : Describes index relation) (change : Change) :
    Describes (change.apply index) (change.relate relation) := by
  cases change with
  | attach function tag => exact h.attach function tag
  | retain keep => exact h.retainFunctions keep

/-- After some changes, both maps hold what was attached and not pruned since. -/
theorem describes_changed (changes : List Change) :
    Describes (changed changes) (related changes) := by
  have general : ∀ index relation, Describes index relation →
      Describes (changes.foldl Change.apply index) (changes.foldl Change.relate relation) := by
    induction changes with
    | nil => exact fun _ _ h => h
    | cons change changes ih => exact fun index relation h => ih _ _ (h.apply change)
  exact general {} _ describes_empty

/-! ## Scripts -/

/-- Tags that are noted leave the attachments alone. -/
theorem Describes.foldl_addTag (h : Describes index relation) (tags : List String) :
    Describes (tags.foldl addTag index) relation := by
  induction tags generalizing index with
  | nil => exact h
  | cons tag tags ih =>
    exact ih ⟨h.functions_tidy, h.tags_tidy, h.holds_function, h.holds_tag⟩

/-- Some tags are attached to one function. -/
theorem Describes.foldl_attach (h : Describes index relation) (function : String)
    (tags : List String) :
    Describes (tags.foldl (fun index tag => index.attach function tag) index)
      fun f t => (f = function ∧ t ∈ tags) ∨ relation f t := by
  induction tags generalizing index relation with
  | nil => exact h.congr (by simp)
  | cons tag tags ih =>
    refine (ih (h.attach function tag)).congr ?_
    intro f t
    rw [List.mem_cons, and_or_left, or_assoc]
    exact or_left_comm

/-- A scan makes a consistent index. -/
theorem consistent_scanLines (h : Consistent index) (lines : List (List Char)) (number : Nat)
    (pending : List String) :
    Consistent (Source.scanLines number pending index lines).tags := by
  induction lines generalizing index number pending with
  | nil => exact h
  | cons line lines ih =>
    unfold Source.scanLines
    split
    · exact ih (h.describes.foldl_addTag _).consistent _ _
    · exact ih (h.describes.foldl_attach _ _).consistent _ _
    · exact ih h _ _

theorem consistent_scan (source : String) : Consistent (Source.scan source).tags :=
  consistent_scanLines describes_empty.consistent _ _ _

/-- The index of a script is that of its scan, without the functions that are not registered. -/
theorem tags_of_build {host : HostFunctions} {name source : String} {inst : Instance}
    (h : (Instance.build host name source).1 = .ok inst) :
    inst.tags = (Source.scan source).tags.retainFunctions inst.registry.containsName := by
  unfold Instance.build at h
  dsimp only at h
  split at h
  · cases h
  · cases h
    rfl

/-- The tag index of every script that is built is consistent. -/
theorem consistent_of_build {host : HostFunctions} {name source : String} {inst : Instance}
    (h : (Instance.build host name source).1 = .ok inst) : Consistent inst.tags := by
  rw [tags_of_build h]
  have scanned := (consistent_scan source).describes
  exact (scanned.retainFunctions inst.registry.containsName).consistent

/-- The tag index of every script that is built is consistent: it has the attachments that the scan
of the text found, as far as their functions are registered, and all tags of the text. Every index
that is made by attaching tags and pruning functions is consistent, too; its maps hold what was
attached and not pruned, and all questions are answered by that. -/
theorem consistent_index :
    (∀ host name source inst, (Instance.build host name source).1 = .ok inst →
      Consistent inst.tags ∧ Answers inst.tags (Holds inst.tags.functionToTags)
        ∧ (∀ entry ∈ inst.tags.functionToTags, entry.1 ∈ inst.registry.names)
        ∧ (∀ entry ∈ inst.tags.tagToFunctions, ∀ function ∈ entry.2,
            function ∈ inst.registry.names)
        ∧ (∀ function tag, Holds inst.tags.functionToTags function tag
            ↔ Holds (Source.scan source).tags.functionToTags function tag
              ∧ inst.registry.containsName function = true)
        ∧ inst.tags.tags = (Source.scan source).tags.tags)
    ∧ ∀ changes, Consistent (changed changes) ∧ Answers (changed changes) (related changes)
        ∧ ∀ function tag,
          Holds (changed changes).functionToTags function tag ↔ related changes function tag := by
  constructor
  · intro host name source inst built
    have tags := tags_of_build built
    have pruned :=
      (consistent_scan source).describes.retainFunctions inst.registry.containsName
    rw [← tags] at pruned
    refine ⟨pruned.consistent, pruned.consistent.describes.answers, ?_, ?_, ?_, ?_⟩
    · intro entry m
      rw [tags] at m
      exact Registry.containsName_iff.1 (List.mem_filter.1 m).2
    · intro entry m function n
      have held : Holds inst.tags.tagToFunctions entry.1 function := ⟨entry.2, m, n⟩
      exact Registry.containsName_iff.1 ((pruned.holds_tag _ _).1 held).1
    · intro function tag
      rw [pruned.holds_function, and_comm]
    · rw [tags]
      rfl
  · intro changes
    have described := describes_changed changes
    exact ⟨described.consistent, described.answers, described.holds_function⟩

/-- A local function loses its tags when the script is built. -/
theorem consistent_index_of_hidden :
    ∃ inst, (Instance.build .empty "lamp"
        "#On\nfunction light() end\n#On, Off\nlocal function hidden() end").1.toOption = some inst
      ∧ Consistent inst.tags ∧ inst.tags.tags = ["Off", "On"]
      ∧ inst.tags.functionsWithTag "On" = ["light"] := by
  have there : ∃ inst, inst ∈ (Instance.build .empty "lamp"
        "#On\nfunction light() end\n#On, Off\nlocal function hidden() end").1.toOption
      ∧ inst.tags.functionsWithTag "On" = ["light"] := by
    decide +kernel
  obtain ⟨inst, there, functions⟩ := there
  obtain ⟨consistent, _, _, _, _, tags⟩ :=
    consistent_index.1 _ _ _ inst (eq_ok_of_mem_toOption there)
  refine ⟨inst, there, consistent, ?_, functions⟩
  rw [tags]
  decide +kernel

end TagIndex

end ScriptHost
