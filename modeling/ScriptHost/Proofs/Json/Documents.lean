import ScriptHost.Json.Value
import ScriptHost.Proofs.Json.Tokens

/-!
# JSON values are read back as documents

* `Document.read?_tokens` : a document is read back from its tokens.
* `Document.parse?_text` : a document is read back from its text, when its numbers and strings are
  legible.
* `Json.parse?_compact` : the text of every JSON value is read as its document.
-/

namespace ScriptHost.Json

open Decimal

namespace Document

/-! ## Tokens are read back -/

/-- A document starts with no closing bracket, brace or other mark that ends a document. -/
theorem head?_tokens (document : Document) :
    ∃ token rest, document.tokens = token :: rest
      ∧ token ≠ .closeBracket ∧ token ≠ .closeBrace := by
  cases document with
  | array items => cases items <;> exact ⟨_, _, rfl, by decide, by decide⟩
  | object members =>
    cases members with
    | nil => exact ⟨_, _, rfl, by decide, by decide⟩
    | cons member members =>
      obtain ⟨key?, value⟩ := member
      exact ⟨_, _, rfl, by decide, by decide⟩
  | number negative literal => exact ⟨_, _, rfl, by simp, by simp⟩
  | string value? => exact ⟨_, _, rfl, by simp, by simp⟩
  | boolean value => exact ⟨_, _, rfl, by simp, by simp⟩
  | null => exact ⟨_, _, rfl, by simp, by simp⟩

/-- Behind a bracket that is not closed at once there are items. -/
theorem read?_openBracket {token : Token} (h : token ≠ .closeBracket) (bound : Nat)
    (rest : List Token) :
    read? (bound + 1) (.openBracket :: token :: rest)
      = (readItems? bound (token :: rest)).bind fun p => some (.array p.1, p.2) := by
  cases token with
  | closeBracket => exact absurd rfl h
  | _ => rfl

/-- Behind a brace that is not closed at once there are members. -/
theorem read?_openBrace {token : Token} (h : token ≠ .closeBrace) (bound : Nat)
    (rest : List Token) :
    read? (bound + 1) (.openBrace :: token :: rest)
      = (readMembers? bound (token :: rest)).bind fun p => some (.object p.1, p.2) := by
  cases token with
  | closeBrace => exact absurd rfl h
  | _ => rfl

mutual

/-- A document is read back from its tokens. -/
theorem read?_tokens : ∀ (document : Document) (bound : Nat) (rest : List Token),
    document.tokens.length ≤ bound →
      read? bound (document.tokens ++ rest) = some (document, rest)
  | document, 0, rest, enough => by
    -- The bound is the number of tokens, and there is one at least.
    obtain ⟨token, tail, start, _⟩ := head?_tokens document
    rw [start] at enough
    cases enough
  | .null, bound + 1, rest, _ => rfl
  | .boolean value, bound + 1, rest, _ => rfl
  | .number negative literal, bound + 1, rest, _ => rfl
  | .string value?, bound + 1, rest, _ => rfl
  | .array [], bound + 1, rest, _ => rfl
  | .array (item :: items), bound + 1, rest, enough => by
    have read := readItems?_tokens item items bound rest (Nat.le_of_succ_le_succ enough)
    -- The first item starts with no closing bracket, so the array is not taken for an empty one.
    obtain ⟨token, tail, start, bracket, _⟩ := head?_tokens item
    show read? (bound + 1) (.openBracket :: (item.tokens ++ itemTokens items ++ rest)) = _
    rw [start, List.cons_append, List.cons_append] at read ⊢
    rw [read?_openBracket bracket, read]
    rfl
  | .object [], bound + 1, rest, _ => rfl
  | .object ((key?, value) :: members), bound + 1, rest, enough => by
    have read := readMembers?_tokens key? value members bound rest (Nat.le_of_succ_le_succ enough)
    show read? (bound + 1)
      (.openBrace :: .string key? :: .colon :: (value.tokens ++ memberTokens members ++ rest)) = _
    rw [read?_openBrace (by simp), read]
    rfl

/-- The items of an array are read back from their tokens. -/
theorem readItems?_tokens : ∀ (item : Document) (items : List Document) (bound : Nat)
    (rest : List Token), (item.tokens ++ itemTokens items).length ≤ bound →
      readItems? bound (item.tokens ++ itemTokens items ++ rest) = some (item :: items, rest)
  | item, items, 0, rest, enough => by
    obtain ⟨token, tail, start, _⟩ := head?_tokens item
    rw [start] at enough
    cases enough
  | item, [], bound + 1, rest, enough => by
    have first := read?_tokens item bound (.closeBracket :: rest) (by
      simp only [itemTokens, List.length_append, List.length_cons, List.length_nil] at enough
      omega)
    rw [itemTokens, List.append_assoc, readItems?]
    show (read? bound (item.tokens ++ .closeBracket :: rest)).bind _ = _
    rw [first]
    rfl
  | item, next :: items, bound + 1, rest, enough => by
    simp only [itemTokens, List.length_append, List.length_cons] at enough
    have first := read?_tokens item bound
      (.comma :: (next.tokens ++ itemTokens items ++ rest)) (by omega)
    have others := readItems?_tokens next items bound rest (by
      rw [List.length_append]
      omega)
    rw [itemTokens, List.append_assoc, readItems?]
    show (read? bound (item.tokens ++ .comma :: (next.tokens ++ itemTokens items ++ rest))).bind _
      = _
    rw [first]
    show (readItems? bound (next.tokens ++ itemTokens items ++ rest)).bind _ = _
    rw [others]
    rfl

/-- The members of an object are read back from their tokens. -/
theorem readMembers?_tokens : ∀ (key? : Option String) (value : Document)
    (members : List (Option String × Document)) (bound : Nat) (rest : List Token),
    (.string key? :: .colon :: (value.tokens ++ memberTokens members)).length ≤ bound →
      readMembers? bound
          (.string key? :: .colon :: (value.tokens ++ memberTokens members ++ rest))
        = some ((key?, value) :: members, rest)
  | key?, value, members, 0, rest, enough => by cases enough
  | key?, value, [], bound + 1, rest, enough => by
    have first := read?_tokens value bound (.closeBrace :: rest) (by
      simp only [memberTokens, List.length_append, List.length_cons, List.length_nil] at enough
      omega)
    rw [memberTokens, List.append_assoc, readMembers?]
    show (read? bound (value.tokens ++ .closeBrace :: rest)).bind _ = _
    rw [first]
    rfl
  | key?, value, (nextKey?, next) :: members, bound + 1, rest, enough => by
    simp only [memberTokens, List.length_append, List.length_cons] at enough
    have first := read?_tokens value bound
      (.comma :: .string nextKey? :: .colon :: (next.tokens ++ memberTokens members ++ rest))
      (by omega)
    have others := readMembers?_tokens nextKey? next members bound rest (by
      simp only [List.length_append, List.length_cons]
      omega)
    rw [memberTokens, List.append_assoc, readMembers?]
    show (read? bound (value.tokens ++ .comma :: .string nextKey? :: .colon ::
      (next.tokens ++ memberTokens members ++ rest))).bind _ = _
    rw [first]
    show (readMembers? bound (.string nextKey? :: .colon ::
      (next.tokens ++ memberTokens members ++ rest))).bind _ = _
    rw [others]
    rfl

end

/-! ## No two numbers touch -/

/-- What goes on with no number can stand behind anything. -/
theorem separated_cons {token : Token} {rest : List Token} (h : Token.Separated rest)
    (next : ∀ t, rest.head? = some t → t.isNumber = false) :
    Token.Separated (token :: rest) :=
  h.cons fun t k _ => next t k

/-- Behind a token that is no number anything can stand. -/
theorem separated_cons_of_mark {token : Token} (mark : token.isNumber = false) {rest : List Token}
    (h : Token.Separated rest) : Token.Separated (token :: rest) := by
  refine h.cons fun t _ number => ?_
  rw [mark] at number
  cases number

mutual

/-- The numbers of a document stand apart, and apart from what follows unless that is a number. -/
theorem separated_tokens : ∀ (document : Document) {rest : List Token}, Token.Separated rest →
    (∀ t, rest.head? = some t → t.isNumber = false) → Token.Separated (document.tokens ++ rest)
  | .null, _, h, _ => separated_cons_of_mark rfl h
  | .boolean _, _, h, _ => separated_cons_of_mark rfl h
  | .string _, _, h, _ => separated_cons_of_mark rfl h
  | .number _ _, _, h, next => separated_cons h next
  | .array [], _, h, _ => separated_cons_of_mark rfl (separated_cons_of_mark rfl h)
  | .array (item :: items), rest, h, _ => by
    have tail := separated_itemTokens items h
    refine separated_cons_of_mark rfl ?_
    show Token.Separated (item.tokens ++ itemTokens items ++ rest)
    rw [List.append_assoc]
    exact separated_tokens item tail.1 tail.2
  | .object [], _, h, _ => separated_cons_of_mark rfl (separated_cons_of_mark rfl h)
  | .object ((key?, value) :: members), rest, h, _ => by
    have tail := separated_memberTokens members h
    refine separated_cons_of_mark rfl (separated_cons_of_mark rfl (separated_cons_of_mark rfl ?_))
    show Token.Separated (value.tokens ++ memberTokens members ++ rest)
    rw [List.append_assoc]
    exact separated_tokens value tail.1 tail.2

theorem separated_itemTokens : ∀ (items : List Document) {rest : List Token},
    Token.Separated rest → Token.Separated (itemTokens items ++ rest)
      ∧ ∀ t, (itemTokens items ++ rest).head? = some t → t.isNumber = false
  | [], _, h => by
    refine ⟨separated_cons_of_mark rfl h, fun t k => ?_⟩
    cases k
    rfl
  | item :: items, rest, h => by
    have tail := separated_itemTokens items h
    refine ⟨separated_cons_of_mark rfl ?_, fun t k => ?_⟩
    · show Token.Separated (item.tokens ++ itemTokens items ++ rest)
      rw [List.append_assoc]
      exact separated_tokens item tail.1 tail.2
    · cases k
      rfl

theorem separated_memberTokens : ∀ (members : List (Option String × Document))
    {rest : List Token}, Token.Separated rest → Token.Separated (memberTokens members ++ rest)
      ∧ ∀ t, (memberTokens members ++ rest).head? = some t → t.isNumber = false
  | [], _, h => by
    refine ⟨separated_cons_of_mark rfl h, fun t k => ?_⟩
    cases k
    rfl
  | (key?, value) :: members, rest, h => by
    have tail := separated_memberTokens members h
    refine ⟨separated_cons_of_mark rfl (separated_cons_of_mark rfl (separated_cons_of_mark rfl ?_)),
      fun t k => ?_⟩
    · show Token.Separated (value.tokens ++ memberTokens members ++ rest)
      rw [List.append_assoc]
      exact separated_tokens value tail.1 tail.2
    · cases k
      rfl

end

/-! ## Texts are read back -/

/-- A document whose numbers and strings are legible. -/
def Legible (document : Document) : Prop := ∀ token ∈ document.tokens, token.Legible

/-- A legible document is read back from its text. -/
theorem parse?_text {document : Document} (legible : document.Legible) :
    parse? (String.ofList document.text) = some document := by
  have separated : Token.Separated (document.tokens ++ []) :=
    separated_tokens document .nil fun t k => by cases k
  have read := read?_tokens document (document.tokens.length + 1) [] (Nat.le_succ _)
  rw [List.append_nil] at separated read
  unfold parse? text
  rw [String.toList_ofList, Token.scan?_texts legible separated]
  simp only [Option.bind_some, ofTokens?, read]

theorem legible_itemTokens {items : List Document} (h : ∀ item ∈ items, item.Legible) :
    ∀ token ∈ itemTokens items, token.Legible := by
  induction items with
  | nil =>
    intro token m
    rw [itemTokens, List.mem_singleton] at m
    rw [m]
    trivial
  | cons item items ih =>
    intro token m
    rw [itemTokens, List.mem_cons, List.mem_append] at m
    rcases m with m | m | m
    · rw [m]
      trivial
    · exact h item List.mem_cons_self token m
    · exact ih (fun i k => h i (List.mem_cons_of_mem item k)) token m

theorem legible_array {items : List Document} (h : ∀ item ∈ items, item.Legible) :
    (array items).Legible := by
  intro token m
  cases items with
  | nil =>
    simp only [tokens, List.mem_cons, List.not_mem_nil, or_false] at m
    rcases m with m | m <;> rw [m] <;> trivial
  | cons item items =>
    rw [tokens, List.mem_cons] at m
    rcases m with m | m
    · rw [m]
      trivial
    · exact legible_itemTokens h token (List.mem_cons_of_mem Token.comma m)

theorem legible_memberTokens {members : List (Option String × Document)}
    (h : ∀ member ∈ members, member.1.isSome = true ∧ member.2.Legible) :
    ∀ token ∈ memberTokens members, token.Legible := by
  induction members with
  | nil =>
    intro token m
    rw [memberTokens, List.mem_singleton] at m
    rw [m]
    trivial
  | cons member members ih =>
    intro token m
    obtain ⟨key, legible⟩ := h member List.mem_cons_self
    rw [memberTokens, List.mem_cons, List.mem_cons, List.mem_cons, List.mem_append] at m
    rcases m with m | m | m | m | m
    · rw [m]
      trivial
    · rw [m]
      exact key
    · rw [m]
      trivial
    · exact legible token m
    · exact ih (fun i k => h i (List.mem_cons_of_mem member k)) token m

theorem legible_object {members : List (Option String × Document)}
    (h : ∀ member ∈ members, member.1.isSome = true ∧ member.2.Legible) :
    (object members).Legible := by
  intro token m
  cases members with
  | nil =>
    simp only [tokens, List.mem_cons, List.not_mem_nil, or_false] at m
    rcases m with m | m <;> rw [m] <;> trivial
  | cons member members =>
    rw [tokens, List.mem_cons] at m
    rcases m with m | m
    · rw [m]
      trivial
    · exact legible_memberTokens h token (List.mem_cons_of_mem Token.comma m)

theorem legible_of_token {document : Document} {token : Token}
    (single : document.tokens = [token]) (h : token.Legible) : document.Legible := by
  intro t m
  rw [single, List.mem_singleton] at m
  rw [m]
  exact h

end Document

/-! ## JSON values -/

open Document

theorem legible_integerDocument (value : Int) : (integerDocument value).Legible :=
  legible_of_token rfl (Literal.wellFormed_digitsOf value.natAbs)

theorem legible_numberDocument (x : Float) : (numberDocument x).Legible := by
  unfold numberDocument
  split
  · exact legible_of_token rfl (Layout.wellFormed_literal _ _)
  · exact legible_of_token rfl trivial

mutual

/-- The document of a JSON value is legible. -/
theorem legible_document : ∀ value : Json, value.document.Legible
  | .null => legible_of_token rfl trivial
  | .boolean _ => legible_of_token rfl trivial
  | .integer value => legible_integerDocument value
  | .real value => legible_numberDocument value
  | .string _ => legible_of_token rfl rfl
  | .array items => legible_array (legible_documents items)
  | .object members => legible_object (legible_memberDocuments members)

theorem legible_documents : ∀ items : List Json, ∀ item ∈ documents items, item.Legible
  | [] => fun item m => by cases m
  | first :: items => by
    intro item m
    rw [documents, List.mem_cons] at m
    rcases m with m | m
    · rw [m]
      exact legible_document first
    · exact legible_documents items item m

theorem legible_memberDocuments : ∀ members : List (String × Json),
    ∀ member ∈ memberDocuments members, member.1.isSome = true ∧ member.2.Legible
  | [] => fun member m => by cases m
  | (key, value) :: members => by
    intro member m
    rw [memberDocuments, List.mem_cons] at m
    rcases m with m | m
    · rw [m]
      exact ⟨rfl, legible_document value⟩
    · exact legible_memberDocuments members member m

end

/-- The text of a JSON value is read as its document. -/
theorem parse?_compact (value : Json) : Document.parse? value.compact = some value.document :=
  parse?_text (legible_document value)

end ScriptHost.Json
