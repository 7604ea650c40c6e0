import Mathlib.Data.List.TakeWhile
import Mathlib.Logic.IsEmpty.Basic
import ScriptHost.Proofs.Tags.Declarations
import ScriptHost.Tag

/-!
# The shapes of tags

Every tag is of exactly one shape, and the parts of a tag are determined by its text, although the
blanks around an equals sign may be left out and the name of a variable may hold further ones.

* `Tag.Serialization`, `Tag.Exposure` : the parts of a tag of the shapes `Serialize v` and
  `Exposed t = v`.
* `Tag.afterWord?_eq_some_iff`, `Tag.serialize?_eq_some_iff`, `Tag.exposed?_eq_some_iff` : what is
  read are such parts.
* `Tag.Shape`, `Tag.exists_shape` : the shapes, one of which every tag has.
* `Tag.parse_shapes` : which tags are read as which.
-/

namespace ScriptHost

namespace Text

/-- A text is cut in one way only into characters with a property and a rest that does not start
with one. -/
theorem append_inj_of_run {p : Char → Bool} {front back other rest : List Char}
    (all : ∀ c ∈ front, p c = true) (stops : ∀ c ∈ back.head?, p c = false)
    (all_other : ∀ c ∈ other, p c = true) (stops_other : ∀ c ∈ rest.head?, p c = false)
    (same : front ++ back = other ++ rest) : front = other ∧ back = rest := by
  have run {front back : List Char} (all : ∀ c ∈ front, p c = true)
      (stops : ∀ c ∈ back.head?, p c = false) : (front ++ back).takeWhile p = front := by
    rw [List.takeWhile_append_of_pos all]
    cases back with
    | nil => simp
    | cons c back => simp [stops c rfl]
  have fronts : front = other := by rw [← run all stops, same, run all_other stops_other]
  subst fronts
  exact ⟨rfl, List.append_cancel_left same⟩

/-- What is left when the characters with a property are dropped does not start with one. -/
theorem head?_dropWhile_not {p : Char → Bool} (cs : List Char) :
    ∀ c ∈ (cs.dropWhile p).head?, p c = false := by
  intro c m
  have stops := List.head?_dropWhile_not p cs
  rw [Option.mem_def.1 m] at stops
  simpa using stops

end Text

namespace Tag

open Text

/-! ## Parts of tags -/

/-- A word: at least one character, and no blank. -/
structure IsName (cs : List Char) : Prop where
  ne_nil : cs ≠ []
  visible : ∀ c ∈ cs, isBlank c = false

/-- At least one character, and blanks only. -/
structure IsGap (cs : List Char) : Prop where
  ne_nil : cs ≠ []
  blank : AllBlank cs

/-- The parts of a tag of the shape `Serialize v`. -/
structure Serialization (cs : List Char) where
  (gap name : List Char)
  text_eq : cs = serializeWord ++ (gap ++ name)
  isGap : IsGap gap
  isName : IsName name

/-- The parts of a tag of the shape `Exposed t = v`. The type has no equals sign, the variable may
have one. -/
structure Exposure (cs : List Char) where
  (gap typeName before after name : List Char)
  text_eq : cs = exposedWord ++ (gap ++ (typeName ++ (before ++ '=' :: (after ++ name))))
  isGap : IsGap gap
  isTypeName : IsName typeName
  no_equals : '=' ∉ typeName
  before_blank : AllBlank before
  after_blank : AllBlank after
  isName : IsName name

theorem isWord_iff {cs : List Char} : isWord cs = true ↔ IsName cs := by
  simp only [isWord, Bool.and_eq_true, Bool.not_eq_true', List.isEmpty_eq_false_iff,
    List.all_eq_true]
  exact ⟨fun h => ⟨h.1, h.2⟩, fun h => ⟨h.1, h.2⟩⟩

/-- A name does not start with a blank, whatever stands behind it. -/
theorem IsName.head_visible {cs : List Char} (h : IsName cs) (rest : List Char) :
    ∀ c ∈ (cs ++ rest).head?, isBlank c = false := by
  intro c m
  cases cs with
  | nil => exact absurd rfl h.ne_nil
  | cons d cs =>
    cases m
    exact h.visible c List.mem_cons_self

theorem equals_visible (rest : List Char) : ∀ c ∈ ('=' :: rest).head?, isBlank c = false := by
  rintro c ⟨⟩
  decide

/-! ## The parts are determined -/

/-- A text is a tag of the shape `Serialize v` in one way at most. -/
theorem Serialization.unique {cs : List Char} (parts others : Serialization cs) :
    parts = others := by
  have same := List.append_cancel_left (parts.text_eq.symm.trans others.text_eq)
  obtain ⟨gaps, names⟩ := append_inj_of_run parts.isGap.blank
    (by simpa using parts.isName.head_visible []) others.isGap.blank
    (by simpa using others.isName.head_visible []) same
  cases parts
  cases others
  cases gaps
  cases names
  rfl

/-- What stands behind a type does not go on with it. -/
theorem Exposure.stops {cs : List Char} (parts : Exposure cs) :
    ∀ c ∈ (parts.before ++ '=' :: (parts.after ++ parts.name)).head?, isTypeChar c = false := by
  intro c m
  cases before_eq : parts.before with
  | nil =>
    rw [before_eq] at m
    cases m
    decide
  | cons d before =>
    rw [before_eq] at m
    cases m
    have blank := parts.before_blank c (by rw [before_eq]; exact List.mem_cons_self)
    simp [isTypeChar, blank]

theorem Exposure.isTypeChar {cs : List Char} (parts : Exposure cs) :
    ∀ c ∈ parts.typeName, isTypeChar c = true := by
  intro c m
  have other : c ≠ '=' := by
    rintro rfl
    exact parts.no_equals m
  simp [Tag.isTypeChar, parts.isTypeName.visible c m, other]

/-- A text is a tag of the shape `Exposed t = v` in one way at most. -/
theorem Exposure.unique {cs : List Char} (parts others : Exposure cs) : parts = others := by
  have same := List.append_cancel_left (parts.text_eq.symm.trans others.text_eq)
  -- From the left, each part ends where the first character stands that cannot belong to it.
  obtain ⟨gaps, same⟩ := append_inj_of_run parts.isGap.blank (parts.isTypeName.head_visible _)
    others.isGap.blank (others.isTypeName.head_visible _) same
  obtain ⟨types, same⟩ := append_inj_of_run parts.isTypeChar parts.stops others.isTypeChar
    others.stops same
  obtain ⟨befores, same⟩ := append_inj_of_run parts.before_blank (equals_visible _) others.before_blank
    (equals_visible _) same
  obtain ⟨afters, names⟩ := append_inj_of_run parts.after_blank
    (by simpa using parts.isName.head_visible []) others.after_blank
    (by simpa using others.isName.head_visible []) (List.cons.inj same).2
  cases parts
  cases others
  cases gaps
  cases types
  cases befores
  cases afters
  cases names
  rfl

/-! ## The parts are read -/

/-- Behind a word and a gap stands what does not start with a blank. -/
theorem afterWord?_eq_some_iff {word cs rest : List Char} :
    afterWord? word cs = some rest
      ↔ ∃ gap, cs = word ++ (gap ++ rest) ∧ IsGap gap ∧ ∀ c ∈ rest.head?, isBlank c = false := by
  constructor
  · intro found
    unfold afterWord? at found
    split at found
    case isFalse => cases found
    case isTrue starts =>
    obtain ⟨behind, rfl⟩ := List.isPrefixOf_iff_prefix.1 starts
    rw [List.drop_left] at found
    cases behind with
    | nil => cases found
    | cons c behind =>
      dsimp only at found
      split at found
      case isFalse => cases found
      case isTrue blank =>
      cases found
      refine ⟨(c :: behind).takeWhile isBlank, ?_, ⟨?_, ?_⟩, ?_⟩
      · rw [trimLeft, List.takeWhile_append_dropWhile]
      · simp [blank]
      · exact fun d m => List.mem_takeWhile_imp m
      · exact head?_dropWhile_not (c :: behind)
  · rintro ⟨gap, rfl, isGap, visible⟩
    have behind := trimLeft_append isGap.blank visible
    have starts : word.isPrefixOf (word ++ (gap ++ rest)) = true :=
      List.isPrefixOf_iff_prefix.2 (List.prefix_append _ _)
    rw [afterWord?, if_pos starts, List.drop_left]
    cases gap with
    | nil => exact absurd rfl isGap.ne_nil
    | cons c gap =>
      dsimp only [List.cons_append]
      rw [if_pos (isGap.blank c List.mem_cons_self), ← List.cons_append, behind]

theorem serialize?_eq_some_iff {cs name : List Char} :
    serialize? cs = some name ↔ ∃ parts : Serialization cs, parts.name = name := by
  constructor
  · intro found
    unfold serialize? at found
    split at found
    case h_2 => cases found
    case h_1 rest behind =>
    split at found
    case isFalse => cases found
    case isTrue word =>
    cases found
    obtain ⟨gap, text_eq, isGap, _⟩ := afterWord?_eq_some_iff.1 behind
    exact ⟨⟨gap, name, text_eq, isGap, isWord_iff.1 word⟩, rfl⟩
  · rintro ⟨parts, rfl⟩
    have behind := afterWord?_eq_some_iff.2
      ⟨parts.gap, parts.text_eq, parts.isGap, by simpa using parts.isName.head_visible []⟩
    rw [serialize?, behind]
    dsimp only
    rw [if_pos (isWord_iff.2 parts.isName)]

theorem exposed?_eq_some_iff {cs typeName name : List Char} :
    exposed? cs = some (typeName, name)
      ↔ ∃ parts : Exposure cs, parts.typeName = typeName ∧ parts.name = name := by
  constructor
  · intro found
    unfold exposed? at found
    split at found
    case h_1 => cases found
    case h_2 rest behind =>
    dsimp only at found
    split at found
    case h_2 => cases found
    case h_1 value equals =>
    split at found
    case isFalse => cases found
    case isTrue proper =>
    cases found
    obtain ⟨gap, rfl, isGap, _⟩ := afterWord?_eq_some_iff.1 behind
    rw [Bool.and_eq_true, Bool.not_eq_true', List.isEmpty_eq_false_iff] at proper
    obtain ⟨nonempty, word⟩ := proper
    have kinds : ∀ c ∈ rest.takeWhile isTypeChar, isBlank c = false ∧ c ≠ '=' := by
      intro c m
      have kind := List.mem_takeWhile_imp m
      simpa [isTypeChar] using kind
    -- The text behind the type is what is trimmed off, the equals sign, and what is trimmed again.
    have back : rest.dropWhile isTypeChar
        = (rest.dropWhile isTypeChar).takeWhile isBlank ++ '='
          :: (value.takeWhile isBlank ++ trimLeft value) := by
      rw [trimLeft, List.takeWhile_append_dropWhile, ← equals, trimLeft,
        List.takeWhile_append_dropWhile]
    refine ⟨⟨gap, rest.takeWhile isTypeChar, (rest.dropWhile isTypeChar).takeWhile isBlank,
      value.takeWhile isBlank, trimLeft value, ?_, isGap, ⟨nonempty, fun c m => (kinds c m).1⟩,
      fun m => (kinds _ m).2 rfl, fun c m => List.mem_takeWhile_imp m,
      fun c m => List.mem_takeWhile_imp m, isWord_iff.1 word⟩, rfl, rfl⟩
    rw [← back, List.takeWhile_append_dropWhile]
  · rintro ⟨parts, rfl, rfl⟩
    have behind := afterWord?_eq_some_iff.2
      ⟨parts.gap, parts.text_eq, parts.isGap, parts.isTypeName.head_visible _⟩
    -- The type is what is taken off, so that the rest is what stands behind it.
    obtain ⟨type_read, back_read⟩ := append_inj_of_run (fun c m => List.mem_takeWhile_imp m)
      (head?_dropWhile_not _) parts.isTypeChar parts.stops
      (List.takeWhile_append_dropWhile (p := isTypeChar))
    rw [exposed?, behind]
    dsimp only
    rw [type_read, back_read, trimLeft_append parts.before_blank (equals_visible _)]
    have name_read : trimLeft (parts.after ++ parts.name) = parts.name :=
      trimLeft_append parts.after_blank (by simpa using parts.isName.head_visible [])
    have proper : (!parts.typeName.isEmpty && isWord parts.name) = true := by
      rw [isWord_iff.2 parts.isName, List.isEmpty_eq_false_iff.2 parts.isTypeName.ne_nil]
      rfl
    simp only [name_read, proper, if_true]

/-! ## The shape of a tag -/

theorem Exposure.starts {cs : List Char} (parts : Exposure cs) : exposedWord <+: cs :=
  ⟨_, parts.text_eq.symm⟩

/-- The two words start with different letters. -/
theorem Serialization.not_starts_exposed {cs : List Char} (parts : Serialization cs) :
    ¬exposedWord <+: cs := by
  rw [parts.text_eq]
  rintro ⟨rest, same⟩
  exact absurd (List.cons.inj same).1 (by decide)

theorem not_serialization_editorOnly : IsEmpty (Serialization editorOnlyToken.toList) := by
  refine ⟨fun parts => ?_⟩
  have read := serialize?_eq_some_iff.2 ⟨parts, rfl⟩
  rw [show serialize? editorOnlyToken.toList = none by decide +kernel] at read
  cases read

theorem not_starts_editorOnly : ¬exposedWord <+: editorOnlyToken.toList := by decide +kernel

theorem parse_of_serialization {token : String} (parts : Serialization token.toList) :
    parse token = .serialize (String.ofList parts.name) := by
  have other : token ≠ editorOnlyToken := by
    rintro rfl
    exact not_serialization_editorOnly.false parts
  rw [parse, if_neg other, serialize?_eq_some_iff.2 ⟨parts, rfl⟩]

/-- What neither is the word for the editor nor starts with the word in front of a variable to keep
is a free word, unless it starts with the word in front of a variable to set. -/
theorem parse_of_not_serialization {token : String} (other : token ≠ editorOnlyToken)
    (no_parts : IsEmpty (Serialization token.toList)) :
    parse token = if exposedWord.isPrefixOf token.toList then
      match exposed? token.toList with
      | some (typeName, name) => .exposed (String.ofList typeName) (String.ofList name)
      | none => .malformedExposed
    else .custom token := by
  have unread : serialize? token.toList = none := by
    refine Option.eq_none_iff_forall_ne_some.2 fun name read => ?_
    obtain ⟨parts, _⟩ := serialize?_eq_some_iff.1 read
    exact no_parts.false parts
  unfold parse
  rw [if_neg other]
  split
  · next name read =>
    rw [unread] at read
    cases read
  · rfl

theorem parse_of_starts {token : String} (starts : exposedWord <+: token.toList) :
    parse token = match exposed? token.toList with
      | some (typeName, name) => .exposed (String.ofList typeName) (String.ofList name)
      | none => .malformedExposed := by
  have other : token ≠ editorOnlyToken := by
    rintro rfl
    exact not_starts_editorOnly starts
  rw [parse_of_not_serialization other ⟨fun parts => parts.not_starts_exposed starts⟩,
    if_pos (List.isPrefixOf_iff_prefix.2 starts)]

theorem parse_of_exposure {token : String} (parts : Exposure token.toList) :
    parse token = .exposed (String.ofList parts.typeName) (String.ofList parts.name) := by
  rw [parse_of_starts parts.starts, exposed?_eq_some_iff.2 ⟨parts, rfl, rfl⟩]

theorem parse_of_malformed {token : String} (starts : exposedWord <+: token.toList)
    (no_parts : IsEmpty (Exposure token.toList)) : parse token = .malformedExposed := by
  have unread : exposed? token.toList = none := by
    refine Option.eq_none_iff_forall_ne_some.2 fun read_parts read => ?_
    obtain ⟨parts, _⟩ := exposed?_eq_some_iff.1 read
    exact no_parts.false parts
  rw [parse_of_starts starts, unread]

theorem parse_of_free {token : String} (other : token ≠ editorOnlyToken)
    (no_parts : IsEmpty (Serialization token.toList)) (free : ¬exposedWord <+: token.toList) :
    parse token = .custom token := by
  rw [parse_of_not_serialization other no_parts,
    if_neg fun starts => free (List.isPrefixOf_iff_prefix.1 starts)]

/-- The shapes of tags, and the parts that are read off a tag. -/
inductive Shape (token : String) : Tag → Prop where
  | editorOnly : token = editorOnlyToken → Shape token .editorOnly
  | serialize (parts : Serialization token.toList) :
    Shape token (.serialize (String.ofList parts.name))
  | exposed (parts : Exposure token.toList) :
    Shape token (.exposed (String.ofList parts.typeName) (String.ofList parts.name))
  | malformed : exposedWord <+: token.toList → IsEmpty (Exposure token.toList) →
    Shape token .malformedExposed
  | free : token ≠ editorOnlyToken → IsEmpty (Serialization token.toList) →
    ¬exposedWord <+: token.toList → Shape token (.custom token)

/-- A tag is read by its shape. -/
theorem Shape.parse_eq {token : String} {tag : Tag} (shape : Shape token tag) :
    parse token = tag := by
  cases shape with
  | editorOnly same => rw [parse, if_pos same]
  | serialize parts => exact parse_of_serialization parts
  | exposed parts => exact parse_of_exposure parts
  | malformed starts no_parts => exact parse_of_malformed starts no_parts
  | free other no_parts free => exact parse_of_free other no_parts free

/-- Every tag has a shape. -/
theorem exists_shape (token : String) : ∃ tag, Shape token tag := by
  by_cases same : token = editorOnlyToken
  · exact ⟨_, .editorOnly same⟩
  by_cases starts : exposedWord <+: token.toList
  · rcases isEmpty_or_nonempty (Exposure token.toList) with no_parts | ⟨⟨parts⟩⟩
    · exact ⟨_, .malformed starts no_parts⟩
    · exact ⟨_, .exposed parts⟩
  · rcases isEmpty_or_nonempty (Serialization token.toList) with no_parts | ⟨⟨parts⟩⟩
    · exact ⟨_, .free same no_parts starts⟩
    · exact ⟨_, .serialize parts⟩

/-- The shape of a tag is the one that it is read by. -/
theorem shape_parse (token : String) : Shape token (parse token) := by
  obtain ⟨tag, shape⟩ := exists_shape token
  rwa [shape.parse_eq]

/-- A tag is read as the word for the editor, as a variable to keep, as a variable to set with its
type, as malformed, or as a free word exactly if it is of that shape. The parts of a tag are
determined by its text. -/
theorem parse_shapes (token : String) :
    (parse token = .editorOnly ↔ token = "EditorOnly")
      ∧ (∀ v, parse token = .serialize v
          ↔ ∃ parts : Serialization token.toList, parts.name = v.toList)
      ∧ (∀ t v, parse token = .exposed t v
          ↔ ∃ parts : Exposure token.toList, parts.typeName = t.toList ∧ parts.name = v.toList)
      ∧ (parse token = .malformedExposed
          ↔ "Exposed".toList <+: token.toList ∧ ¬Nonempty (Exposure token.toList))
      ∧ (∀ w, parse token = .custom w
          ↔ w = token ∧ token ≠ "EditorOnly" ∧ ¬Nonempty (Serialization token.toList)
            ∧ ¬"Exposed".toList <+: token.toList)
      ∧ (∀ parts others : Serialization token.toList, parts = others)
      ∧ ∀ parts others : Exposure token.toList, parts = others := by
  have shape := shape_parse token
  refine ⟨⟨fun read => ?_, fun same => (Shape.editorOnly same).parse_eq⟩,
    fun v => ⟨fun read => ?_, ?_⟩, fun t v => ⟨fun read => ?_, ?_⟩,
    ⟨fun read => ?_, fun h => (Shape.malformed h.1 (not_nonempty_iff.1 h.2)).parse_eq⟩,
    fun w => ⟨fun read => ?_, ?_⟩, Serialization.unique, Exposure.unique⟩
  · rw [read] at shape
    cases shape with
    | editorOnly same => exact same
  · rw [read] at shape
    cases shape with
    | serialize parts => exact ⟨parts, String.toList_ofList.symm⟩
  · rintro ⟨parts, name_eq⟩
    rw [(Shape.serialize parts).parse_eq, name_eq, String.ofList_toList]
  · rw [read] at shape
    cases shape with
    | exposed parts => exact ⟨parts, String.toList_ofList.symm, String.toList_ofList.symm⟩
  · rintro ⟨parts, type_eq, name_eq⟩
    rw [(Shape.exposed parts).parse_eq, type_eq, name_eq, String.ofList_toList,
      String.ofList_toList]
  · rw [read] at shape
    cases shape with
    | malformed starts no_parts => exact ⟨starts, not_nonempty_iff.2 no_parts⟩
  · rw [read] at shape
    cases shape with
    | free other no_parts free => exact ⟨rfl, other, not_nonempty_iff.2 no_parts, free⟩
  · rintro ⟨rfl, other, no_parts, free⟩
    exact (Shape.free other (not_nonempty_iff.1 no_parts) free).parse_eq

/-- An equals sign in the name of a variable is part of it, and no blank is needed around the
other. -/
example : parse "Exposed  Number=a=b" = .exposed "Number" "a=b" := by decide +kernel

end Tag

end ScriptHost
