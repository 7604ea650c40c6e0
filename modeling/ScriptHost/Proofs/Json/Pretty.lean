import ScriptHost.Proofs.Json.Documents

/-!
# JSON values over several lines are read back

A text over several lines has the tokens of the text on one line, with blanks between them.

* `Token.Spaced` : tokens in a row, with blanks around them.
* `Token.scan?_spaced` : such tokens are read back.
* `spaced_prettyText` : a document over several lines is its tokens with blanks around them.
* `parse?_pretty` : the text of every JSON value over several lines is read as its document.
-/

namespace ScriptHost.Json

open Decimal

namespace Token

/-! ## Blanks around tokens -/

/-- A text is some tokens in a row with blanks around them, where no text of a number goes on. -/
inductive Spaced : List Token → List Char → Prop
  | nil : Spaced [] []
  | blank {tokens : List Token} {cs : List Char} {c : Char} (space : isSpace c = true)
      (rest : Spaced tokens cs) : Spaced tokens (c :: cs)
  | token {tokens : List Token} {cs : List Char} {token : Token}
      (stop : token.isNumber = true → EndsNumber cs) (rest : Spaced tokens cs) :
      Spaced (token :: tokens) (token.text ++ cs)

/-- Whatever blanks stand between them, tokens are read back. -/
theorem scanWithin?_spaced {tokens : List Token} {cs : List Char} (spaced : Spaced tokens cs)
    (legible : ∀ token ∈ tokens, token.Legible) {bound : Nat} (enough : cs.length ≤ bound) :
    scanWithin? bound cs = some tokens := by
  induction spaced generalizing bound with
  | nil => cases bound <;> rfl
  | blank space rest ih =>
    obtain ⟨bound, rfl⟩ : ∃ n, bound = n + 1 := ⟨bound - 1, by simp at enough; omega⟩
    rw [scanWithin?, if_pos space]
    exact ih legible (Nat.le_of_succ_le_succ enough)
  | @token tokens cs token stop rest ih =>
    have first : token.Legible := legible token List.mem_cons_self
    have read := next?_text first stop
    obtain ⟨c, text, text_eq, printed⟩ := head?_text first
    rw [text_eq] at enough read ⊢
    simp only [List.cons_append, List.length_cons, List.length_append] at enough
    obtain ⟨bound, rfl⟩ : ∃ n, bound = n + 1 := ⟨bound - 1, by omega⟩
    have others : scanWithin? bound cs = some tokens :=
      ih (fun t m => legible t (List.mem_cons_of_mem token m)) (by omega)
    rw [List.cons_append, scanWithin?, if_neg (by rw [printed]; decide), ← List.cons_append, read]
    simp [others]

theorem scan?_spaced {tokens : List Token} {cs : List Char} (spaced : Spaced tokens cs)
    (legible : ∀ token ∈ tokens, token.Legible) : scan? cs = some tokens :=
  scanWithin?_spaced spaced legible (Nat.le_refl _)

/-- A token that is no number can stand in front of anything. -/
theorem Spaced.mark {tokens : List Token} {cs : List Char} (rest : Spaced tokens cs)
    (token : Token) (mark : token.isNumber = false) :
    Spaced (token :: tokens) (token.text ++ cs) := by
  refine .token (fun number => ?_) rest
  rw [mark] at number
  cases number

/-- The blanks in front of a line count for nothing. -/
theorem Spaced.newLine {tokens : List Token} {cs : List Char} (rest : Spaced tokens cs)
    (level : Nat) : Spaced tokens (newLine level ++ cs) := by
  refine .blank rfl ?_
  show Spaced tokens (List.replicate (2 * level) ' ' ++ cs)
  induction 2 * level with
  | zero => exact rest
  | succ n ih =>
    rw [List.replicate_succ]
    exact .blank rfl ih

theorem endsNumber_cons {c : Char}
    (h : isDigit c = false ∧ c ≠ '.' ∧ c ≠ 'e' ∧ c ≠ 'E') (rest : List Char) :
    EndsNumber (c :: rest) := by
  intro d k
  cases k
  exact h

end Token

open Token

/-! ## Documents over several lines -/

/-- A key with its colon stands in front of a value. -/
theorem spaced_key {tokens : List Token} {cs : List Char} (rest : Spaced tokens cs)
    (key? : Option String) :
    Spaced (.string key? :: .colon :: tokens)
      ((Token.string key?).text ++ ([':', ' '] ++ cs)) :=
  ((Spaced.blank rfl rest).mark .colon rfl).mark (.string key?) rfl

mutual

/-- A document over several lines is its tokens with blanks around them, and so is what follows it,
unless a number would go on there. -/
theorem spaced_prettyText : ∀ (document : Document) (level : Nat) {tokens : List Token}
    {cs : List Char}, Spaced tokens cs → EndsNumber cs →
      Spaced (document.tokens ++ tokens) (prettyText level document ++ cs)
  | .null, _, _, _, rest, _ => rest.mark .null rfl
  | .boolean value, _, _, _, rest, _ => rest.mark (.boolean value) rfl
  | .string value?, _, _, _, rest, _ => rest.mark (.string value?) rfl
  | .number _ _, _, _, _, rest, stop => .token (fun _ => stop) rest
  | .array [], _, _, _, rest, _ => (rest.mark .closeBracket rfl).mark .openBracket rfl
  | .array (item :: items), level, tokens, cs, rest, _ => by
    obtain ⟨others, stop⟩ := spaced_prettyItems items level rest
    have first := spaced_prettyText item (level + 1) others stop
    have all := (first.newLine (level + 1)).mark .openBracket rfl
    simpa only [prettyText, Document.tokens, Token.text, List.append_assoc, List.cons_append,
      List.nil_append] using all
  | .object [], _, _, _, rest, _ => (rest.mark .closeBrace rfl).mark .openBrace rfl
  | .object ((key?, value) :: members), level, tokens, cs, rest, _ => by
    obtain ⟨others, stop⟩ := spaced_prettyMembers members level rest
    have first := spaced_key (spaced_prettyText value (level + 1) others stop) key?
    have all := (first.newLine (level + 1)).mark .openBrace rfl
    rw [prettyText, Document.tokens]
    simpa only [Token.text, List.append_assoc, List.cons_append, List.nil_append] using all

/-- The further items of an array, up to its end. No number goes on there. -/
theorem spaced_prettyItems : ∀ (items : List Document) (level : Nat) {tokens : List Token}
    {cs : List Char}, Spaced tokens cs →
      Spaced (Document.itemTokens items ++ tokens) (prettyItems level items ++ cs)
        ∧ EndsNumber (prettyItems level items ++ cs)
  | [], level, tokens, cs, rest => by
    have all := (rest.mark .closeBracket rfl).newLine level
    refine ⟨?_, endsNumber_cons (by decide) _⟩
    simpa only [prettyItems, Document.itemTokens, Token.text, List.append_assoc,
      List.singleton_append] using all
  | item :: items, level, tokens, cs, rest => by
    obtain ⟨others, stop⟩ := spaced_prettyItems items level rest
    have first := spaced_prettyText item (level + 1) others stop
    have all := (first.newLine (level + 1)).mark .comma rfl
    refine ⟨?_, endsNumber_cons (by decide) _⟩
    simpa only [prettyItems, Document.itemTokens, Token.text, List.append_assoc, List.cons_append,
      List.nil_append] using all

/-- The further members of an object, up to its end. -/
theorem spaced_prettyMembers : ∀ (members : List (Option String × Document)) (level : Nat)
    {tokens : List Token} {cs : List Char}, Spaced tokens cs →
      Spaced (Document.memberTokens members ++ tokens) (prettyMembers level members ++ cs)
        ∧ EndsNumber (prettyMembers level members ++ cs)
  | [], level, tokens, cs, rest => by
    have all := (rest.mark .closeBrace rfl).newLine level
    refine ⟨?_, endsNumber_cons (by decide) _⟩
    simpa only [prettyMembers, Document.memberTokens, Token.text, List.append_assoc,
      List.singleton_append] using all
  | (key?, value) :: members, level, tokens, cs, rest => by
    obtain ⟨others, stop⟩ := spaced_prettyMembers members level rest
    have first := spaced_key (spaced_prettyText value (level + 1) others stop) key?
    have all := (first.newLine (level + 1)).mark .comma rfl
    refine ⟨?_, endsNumber_cons (by decide) _⟩
    rw [prettyMembers, Document.memberTokens]
    simpa only [Token.text, List.append_assoc, List.cons_append, List.nil_append] using all

end

/-- The text of a JSON value over several lines is read as its document. -/
theorem parse?_pretty (value : Json) : Document.parse? value.pretty = some value.document := by
  have spaced := spaced_prettyText value.document 0 .nil fun c h => by cases h
  have read := Document.read?_tokens value.document (value.document.tokens.length + 1) []
    (Nat.le_succ _)
  rw [List.append_nil] at spaced read
  rw [List.append_nil] at spaced
  unfold Document.parse? pretty
  rw [String.toList_ofList, scan?_spaced spaced (legible_document value)]
  simp only [Option.bind_some, Document.ofTokens?, read]

end ScriptHost.Json
