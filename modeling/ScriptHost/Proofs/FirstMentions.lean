import ScriptHost.Tag

/-!
# Names in the order of their first mention

Items are read one after the other, and each of them may mention a name. A name is listed when it is
mentioned for the first time.

* `firstMention` : where a name is mentioned first.
* `FirstMentions` : every name that is mentioned stands in a list once, in the order of the first
  mentions.
* `FirstMentions.concat` : one more item.
* `FirstMentions.perm` : the order of the items only decides the order of the names.
-/

namespace ScriptHost

variable {α : Type} {mention? : α → Option String} {items : List α} {names : List String}

/-- The place of the first item that mentions a name. -/
def firstMention (mention? : α → Option String) (items : List α) (name : String) : Nat :=
  items.findIdx fun item => mention? item = some name

theorem firstMention_lt_iff {name : String} :
    firstMention mention? items name < items.length
      ↔ ∃ item ∈ items, mention? item = some name := by
  simp [firstMention, List.findIdx_lt_length]

/-- Where a name is mentioned first does not depend on the items behind. -/
theorem firstMention_append {name : String} (later : List α)
    (mentioned : ∃ item ∈ items, mention? item = some name) :
    firstMention mention? (items ++ later) name = firstMention mention? items name := by
  have lt : firstMention mention? items name < items.length := firstMention_lt_iff.2 mentioned
  unfold firstMention at lt ⊢
  rw [List.findIdx_append, if_pos lt]

/-- A name that was not mentioned so far is mentioned first where it comes up. -/
theorem firstMention_concat {item : α} {name : String}
    (new : ¬∃ one ∈ items, mention? one = some name) (named : mention? item = some name) :
    firstMention mention? (items ++ [item]) name = items.length := by
  have ge : ¬firstMention mention? items name < items.length := mt firstMention_lt_iff.1 new
  unfold firstMention at ge ⊢
  rw [List.findIdx_append, if_neg ge]
  simp [List.findIdx_cons, named]

/-- The names that items mention, each once, in the order in which they are mentioned first. -/
structure FirstMentions (mention? : α → Option String) (items : List α) (names : List String) :
    Prop where
  mem_iff : ∀ name, name ∈ names ↔ ∃ item ∈ items, mention? item = some name
  ordered : names.Pairwise fun a b =>
    firstMention mention? items a < firstMention mention? items b

namespace FirstMentions

theorem nil : FirstMentions mention? [] [] where
  mem_iff := by simp
  ordered := List.Pairwise.nil

/-- No name stands twice. -/
theorem nodup (h : FirstMentions mention? items names) : names.Nodup := by
  refine List.nodup_iff_pairwise_ne.2 (h.ordered.imp fun {a b} lt same => ?_)
  rw [same] at lt
  exact Nat.lt_irrefl _ lt

/-- The names keep their order when there is a further item. -/
theorem ordered_concat (h : FirstMentions mention? items names) (item : α) :
    names.Pairwise fun a b =>
      firstMention mention? (items ++ [item]) a < firstMention mention? (items ++ [item]) b := by
  refine h.ordered.imp_of_mem fun {a b} ma mb lt => ?_
  rw [firstMention_append _ ((h.mem_iff a).1 ma), firstMention_append _ ((h.mem_iff b).1 mb)]
  exact lt

/-- An item without a name adds none. -/
theorem concat_of_none (h : FirstMentions mention? items names) {item : α}
    (unnamed : mention? item = none) : FirstMentions mention? (items ++ [item]) names where
  mem_iff name := by
    rw [h.mem_iff]
    simp [or_and_right, exists_or, unnamed]
  ordered := h.ordered_concat item

/-- The name of a further item is added if it is new. -/
theorem concat (h : FirstMentions mention? items names) {item : α} {name : String}
    (named : mention? item = some name) :
    FirstMentions mention? (items ++ [item]) (appendNew names name) := by
  have mentioned (other : String) : (∃ one ∈ items ++ [item], mention? one = some other)
      ↔ other ∈ names ∨ name = other := by
    rw [h.mem_iff]
    simp [or_and_right, exists_or, named]
  unfold appendNew
  split
  · next known =>
    have there : name ∈ names := List.contains_iff_mem.1 known
    refine ⟨fun other => ?_, h.ordered_concat item⟩
    rw [mentioned]
    exact ⟨.inl, fun m => m.elim id fun same => same ▸ there⟩
  · next unknown =>
    have new : ¬∃ one ∈ items, mention? one = some name := fun m =>
      unknown (List.contains_iff_mem.2 ((h.mem_iff name).2 m))
    refine ⟨fun other => ?_, List.pairwise_append.2 ⟨h.ordered_concat item, by simp, ?_⟩⟩
    · rw [mentioned, List.mem_append, List.mem_singleton]
      exact or_congr_right eq_comm
    · -- The names so far are mentioned within `items`, and the new one is not.
      intro a m b same
      rw [List.mem_singleton.1 same, firstMention_append _ ((h.mem_iff a).1 m),
        firstMention_concat new named]
      exact firstMention_lt_iff.2 ((h.mem_iff a).1 m)

/-- In another order, items mention the same names. -/
theorem perm {others : List α} {listed : List String} (h : FirstMentions mention? items names)
    (k : FirstMentions mention? others listed) (same : items.Perm others) : names.Perm listed := by
  refine (List.perm_ext_iff_of_nodup h.nodup k.nodup).2 fun name => ?_
  rw [h.mem_iff, k.mem_iff]
  simp only [same.mem_iff]

end FirstMentions

end ScriptHost
