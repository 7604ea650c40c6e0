import Mathlib.Data.List.Chain
import ScriptHost.Json.Token
import ScriptHost.Proofs.Decimal.WellFormed

/-!
# Tokens are read back

* `Token.pieces?_quoted`, `Token.characters?_pieces` : every string is read back from its escapes.
* `Token.literal?_text` : a well-formed literal is read back, unless what follows could be a part
  of it.
* `Token.scan?_texts` : tokens that are written one after the other are read back, if no two
  numbers touch.
-/

namespace ScriptHost.Json.Token

open Decimal

/-! ## Strings -/

/-- The piece that the escape of a character is read as. -/
def pieceOf (c : Char) : Piece :=
  if (escape c).length = 6 then .unit c.toNat else .char c

/-- The two digits of a control character are its code. -/
theorem unit?_hexDigit {n : Nat} (h : n < 0x20) :
    unit? '0' '0' (hexDigit (n / 16)) (hexDigit (n % 16)) = some n := by
  have codes : ∀ k : Fin 0x20,
      unit? '0' '0' (hexDigit (k.val / 16)) (hexDigit (k.val % 16)) = some k.val := by decide
  exact codes ⟨n, h⟩

/-- A character that needs no escape is read as it is. -/
theorem pieces?_ordinary {c : Char} (quote : c ≠ '"') (backslash : c ≠ '\\')
    (printable : ¬c.toNat < 0x20) (rest : List Char) :
    pieces? (c :: rest) = (pieces? rest).map fun p => (.char c :: p.1, p.2) := by
  rw [pieces?.eq_def]
  split
  · next h => cases h
  · next h => exact absurd (List.cons.inj h).1 quote
  · next h => exact absurd (List.cons.inj h).1 backslash
  · next h => exact absurd (List.cons.inj h).1 backslash
  · next h =>
    cases h
    cases pieces? rest <;> simp [printable, backslash]

/-- A letter behind a backslash is read as the character that it stands for. -/
theorem pieces?_escaped {c value : Char} (h : escaped? c = some value) (rest : List Char) :
    pieces? ('\\' :: c :: rest) = (pieces? rest).map fun p => (.char value :: p.1, p.2) := by
  rw [pieces?.eq_def]
  split
  · next k => cases k
  · next k => cases k
  · next k =>
    cases k
    cases h
  · next k =>
    cases k
    rw [h]
    cases pieces? rest <;> rfl
  · next other k =>
    cases k
    exact (other c rest rfl rfl).elim

/-- Four digits are read as a code unit. -/
theorem pieces?_unit {a b c d : Char} {code : Nat} (h : unit? a b c d = some code)
    (rest : List Char) :
    pieces? ('\\' :: 'u' :: a :: b :: c :: d :: rest)
      = (pieces? rest).map fun p => (.unit code :: p.1, p.2) := by
  show ((unit? a b c d).bind fun code =>
    (pieces? rest).bind fun p => some (.unit code :: p.1, p.2)) = _
  rw [h]
  cases pieces? rest <;> rfl

/-- A character is written with a letter behind a backslash, with its code, or as it is. -/
theorem escape_cases (c : Char) :
    (∃ letter, escape c = ['\\', letter] ∧ escaped? letter = some c)
      ∨ escape c = ['\\', 'u', '0', '0', hexDigit (c.toNat / 16), hexDigit (c.toNat % 16)]
          ∧ c.toNat < 0x20
      ∨ escape c = [c] ∧ c ≠ '"' ∧ c ≠ '\\' ∧ ¬c.toNat < 0x20 := by
  generalize text : escape c = cs
  unfold escape at text
  -- The first seven cases are the characters with a letter of their own.
  iterate 7
    split at text
    · next special =>
      subst special
      exact .inl ⟨_, text.symm, rfl⟩
  split at text
  · next control => exact .inr (.inl ⟨text.symm, control⟩)
  · next quote backslash _ _ _ _ _ printable =>
    exact .inr (.inr ⟨text.symm, quote, backslash, printable⟩)

/-- One escape is read as one piece. -/
theorem pieces?_escape (c : Char) (rest : List Char) :
    pieces? (escape c ++ rest) = (pieces? rest).map fun p => (pieceOf c :: p.1, p.2) := by
  unfold pieceOf
  rcases escape_cases c with ⟨letter, text, value⟩ | ⟨text, control⟩
      | ⟨text, quote, backslash, printable⟩
  · rw [text]
    exact pieces?_escaped value rest
  · rw [text]
    exact pieces?_unit (unit?_hexDigit control) rest
  · rw [text]
    exact pieces?_ordinary quote backslash printable rest

/-- The pieces of a quoted string, up to its closing quote. -/
theorem pieces?_quoted (cs rest : List Char) :
    pieces? (cs.flatMap escape ++ '"' :: rest) = some (cs.map pieceOf, rest) := by
  induction cs with
  | nil => rfl
  | cons c cs ih =>
    rw [List.flatMap_cons, List.append_assoc, pieces?_escape, ih]
    rfl

/-- Control characters have units for pieces, and all others themselves. -/
theorem pieceOf_cases (c : Char) :
    pieceOf c = .char c ∨ pieceOf c = .unit c.toNat ∧ c.toNat < 0x20 := by
  unfold pieceOf
  rcases escape_cases c with ⟨letter, text, _⟩ | ⟨text, control⟩ | ⟨text, _⟩
  · left
    rw [text]
    rfl
  · right
    rw [text]
    exact ⟨rfl, control⟩
  · left
    rw [text]
    rfl

/-- A unit below the surrogates is a character of its own. -/
theorem characters?_unit {code : Nat} (h : code < 0x20) (pieces : List Piece) :
    characters? (.unit code :: pieces) = (characters? pieces).map (Char.ofNat code :: ·) := by
  have high : isHighSurrogate code = false := by
    unfold isHighSurrogate
    simp only [Bool.and_eq_false_iff, decide_eq_false_iff_not]
    omega
  have low : isLowSurrogate code = false := by
    unfold isLowSurrogate
    simp only [Bool.and_eq_false_iff, decide_eq_false_iff_not]
    omega
  rw [characters?.eq_def]
  split
  · next k => cases k
  · next k => cases k
  · next k =>
    cases k
    rw [high, low]
    rfl
  · next k =>
    cases k
    rw [high, low]
    rfl

/-- The pieces of a string are its characters. -/
theorem characters?_pieces (cs : List Char) : characters? (cs.map pieceOf) = some cs := by
  induction cs with
  | nil => rfl
  | cons c cs ih =>
    rw [List.map_cons]
    rcases pieceOf_cases c with piece | ⟨piece, control⟩
    · rw [piece, characters?, ih]
      rfl
    · rw [piece, characters?_unit control, ih, Char.ofNat_toNat]
      rfl

/-! ## Numbers -/

/-- The text cannot go on with a digit. -/
def EndsDigits (rest : List Char) : Prop := ∀ c, rest.head? = some c → isDigit c = false

/-- The text cannot go on with a part of a number. -/
def EndsNumber (rest : List Char) : Prop :=
  ∀ c, rest.head? = some c → isDigit c = false ∧ c ≠ '.' ∧ c ≠ 'e' ∧ c ≠ 'E'

theorem endsDigits_cons {c : Char} (h : isDigit c = false) (rest : List Char) :
    EndsDigits (c :: rest) := by
  intro d k
  cases k
  exact h

theorem EndsNumber.endsDigits {rest : List Char} (h : EndsNumber rest) : EndsDigits rest :=
  fun c k => (h c k).1

/-- Digits are read up to their end. -/
theorem digits?_append {ds rest : List Char} (nonempty : ds ≠ []) (digits : AllDigits ds)
    (stop : EndsDigits rest) : digits? (ds ++ rest) = some (ds, rest) := by
  have none_left : rest.takeWhile isDigit = [] ∧ rest.dropWhile isDigit = rest := by
    cases rest with
    | nil => exact ⟨rfl, rfl⟩
    | cons c rest =>
      have other : ¬isDigit c = true := by
        rw [stop c rfl]
        decide
      exact ⟨List.takeWhile_cons_of_neg other, List.dropWhile_cons_of_neg other⟩
  unfold digits?
  rw [List.takeWhile_append_of_pos digits, List.dropWhile_append_of_pos digits, none_left.1,
    none_left.2, List.append_nil]
  cases ds with
  | nil => exact absurd rfl nonempty
  | cons d ds => rfl

theorem whole?_append {ds rest : List Char} (whole : IsWhole ds) (stop : EndsDigits rest) :
    whole? (ds ++ rest) = some (ds, rest) := by
  rcases whole with rfl | ⟨nonempty, zero, digits⟩
  · rfl
  · rw [← digits?_append nonempty digits stop]
    cases ds with
    | nil => exact absurd rfl nonempty
    | cons d ds =>
      rw [List.cons_append, whole?.eq_def]
      split
      · next h =>
        cases h
        exact absurd rfl zero
      · rfl

/-- The text of a fraction; there is none when it has no digits. -/
def fractionText (fraction : List Char) : List Char :=
  if fraction.isEmpty then [] else '.' :: fraction

/-- The text of an exponent, if there is one. -/
def exponentText : Option Exponent → List Char
  | none => []
  | some e => 'e' :: (if e.negative then '-' else '+') :: e.digits

theorem fraction?_text {fraction rest : List Char} (digits : AllDigits fraction)
    (stop : EndsDigits rest) (point : rest.head? ≠ some '.') :
    fraction? (fractionText fraction ++ rest) = some (fraction, rest) := by
  cases fraction with
  | nil =>
    show fraction? rest = some ([], rest)
    rw [fraction?.eq_def]
    split
    · exact absurd rfl point
    · rfl
  | cons d ds => exact digits?_append (List.cons_ne_nil d ds) digits stop

theorem exponent?_text {exponent? : Option Exponent} {rest : List Char}
    (digits : ∀ e, exponent? = some e → e.digits ≠ [] ∧ AllDigits e.digits)
    (stop : EndsNumber rest) :
    Token.exponent? (exponentText exponent? ++ rest) = some (exponent?, rest) := by
  cases exponent? with
  | none =>
    show Token.exponent? rest = some (none, rest)
    cases rest with
    | nil => rfl
    | cons c rest =>
      obtain ⟨_, _, lower, upper⟩ := stop c rfl
      simp [Token.exponent?, lower, upper]
  | some e =>
    obtain ⟨nonempty, digits⟩ := digits e rfl
    have read := digits?_append nonempty digits stop.endsDigits
    obtain ⟨negative, ds⟩ := e
    cases negative <;> simp [exponentText, Token.exponent?, exponentSign, read]

/-- A well-formed literal is read back, unless what follows could be a part of it. -/
theorem literal?_text {literal : Literal} (h : literal.WellFormed) {rest : List Char}
    (stop : EndsNumber rest) : literal? (literal.text ++ rest) = some (literal, rest) := by
  obtain ⟨whole, fraction, exponent?⟩ := literal
  obtain ⟨isWhole, isFraction, isExponent⟩ := h
  have text : (Literal.mk whole fraction exponent?).text ++ rest
      = whole ++ (fractionText fraction ++ (exponentText exponent? ++ rest)) := by
    cases exponent? <;> simp [Literal.text, fractionText, exponentText]
  -- No part of the literal can be taken for a longer one, since what follows starts otherwise.
  have tail : EndsDigits (exponentText exponent? ++ rest)
      ∧ (exponentText exponent? ++ rest).head? ≠ some '.' := by
    cases exponent? with
    | none => exact ⟨stop.endsDigits, fun point => (stop '.' point).2.1 rfl⟩
    | some e => exact ⟨endsDigits_cons rfl _, by simp [exponentText]⟩
  have middle : EndsDigits (fractionText fraction ++ (exponentText exponent? ++ rest)) := by
    cases fraction with
    | nil => exact tail.1
    | cons d ds => exact endsDigits_cons rfl _
  unfold literal?
  rw [text, whole?_append isWhole middle]
  simp only [Option.bind_eq_bind, Option.bind_some, fraction?_text isFraction tail.1 tail.2,
    exponent?_text isExponent stop]

/-! ## Tokens -/

/-- A token whose text is read back: numbers are well formed, and strings have a value. -/
def Legible : Token → Prop
  | number _ literal => literal.WellFormed
  | string value? => value?.isSome = true
  | _ => True

/-- Whether the token is a number. -/
def isNumber : Token → Bool
  | number .. => true
  | _ => false

/-- The first character of a text of digits is a digit. -/
theorem head?_literal {literal : Literal} (h : literal.WellFormed) :
    ∃ c rest, literal.text = c :: rest ∧ isDigit c = true := by
  obtain ⟨whole, fraction, exponent?⟩ := literal
  rcases h.whole with zero | ⟨nonempty, _, digits⟩
  · change whole = ['0'] at zero
    subst zero
    exact ⟨'0', _, rfl, rfl⟩
  · cases whole with
    | nil => exact absurd rfl nonempty
    | cons c cs => exact ⟨c, _, rfl, digits c List.mem_cons_self⟩

/-- Only numbers start like a part of a number. -/
theorem endsNumber_text {token : Token} (h : token.isNumber = false) (rest : List Char) :
    EndsNumber (token.text ++ rest) := by
  intro c k
  cases token with
  | number negative literal => cases h
  | boolean value => cases value <;> cases k <;> decide
  | _ => cases k; decide

/-- A text that starts with a digit is read as a number. -/
theorem next?_digit {c : Char} (digit : isDigit c = true) (rest : List Char) :
    next? (c :: rest) = (literal? (c :: rest)).map fun p => (number false p.1, p.2) := by
  rw [next?.eq_def]
  -- The first eleven cases are the characters that other tokens and the minus sign start with.
  split
  iterate 11
    · next h =>
      cases h
      exact absurd digit (by decide)
  · rfl

/-- A token is read back, a number only when the text does not go on with a part of it. -/
theorem next?_text {token : Token} (legible : token.Legible) {rest : List Char}
    (stop : token.isNumber = true → EndsNumber rest) :
    next? (token.text ++ rest) = some (token, rest) := by
  cases token with
  | boolean value => cases value <;> rfl
  | number negative literal =>
    have read := literal?_text legible (stop rfl)
    cases negative with
    | true =>
      show (literal? (literal.text ++ rest)).map _ = _
      rw [read]
      rfl
    | false =>
      show next? (literal.text ++ rest) = _
      obtain ⟨c, cs, text, digit⟩ := head?_literal legible
      rw [text] at read ⊢
      rw [List.cons_append, next?_digit digit, ← List.cons_append, read]
      rfl
  | string value? =>
    cases value? with
    | none => cases legible
    | some value =>
      have text : (string (some value)).text ++ rest
          = '"' :: (value.toList.flatMap escape ++ '"' :: rest) := by
        simp [Token.text, quoted]
      rw [text]
      show (pieces? _).map _ = _
      rw [pieces?_quoted, Option.map_some]
      simp only [characters?_pieces, Option.map_some, String.ofList_toList]
  | _ => rfl

/-! ## Texts of several tokens -/

/-- No two numbers stand side by side, so that their texts do not run together. -/
def Separated (tokens : List Token) : Prop :=
  tokens.IsChain fun a b => a.isNumber = true → b.isNumber = false

/-- No token starts with a blank. -/
theorem head?_text {token : Token} (legible : token.Legible) :
    ∃ c rest, token.text = c :: rest ∧ isSpace c = false := by
  cases token with
  | boolean value => cases value <;> exact ⟨_, _, rfl, rfl⟩
  | number negative literal =>
    cases negative with
    | true => exact ⟨_, _, rfl, rfl⟩
    | false =>
      obtain ⟨c, rest, text, digit⟩ := head?_literal legible
      refine ⟨c, rest, text, ?_⟩
      simp only [isSpace, Bool.or_eq_false_iff, beq_eq_false_iff_ne]
      refine ⟨⟨⟨?_, ?_⟩, ?_⟩, ?_⟩ <;> rintro rfl <;> cases digit
  | _ => exact ⟨_, _, rfl, rfl⟩

theorem scanWithin?_texts {tokens : List Token} {bound : Nat}
    (legible : ∀ token ∈ tokens, token.Legible) (separated : Separated tokens)
    (enough : tokens.length ≤ bound) :
    scanWithin? bound (tokens.flatMap text) = some tokens := by
  induction tokens generalizing bound with
  | nil => cases bound <;> rfl
  | cons token tokens ih =>
    obtain ⟨bound, rfl⟩ : ∃ n, bound = n + 1 := ⟨bound - 1, by simp at enough; omega⟩
    have first : token.Legible := legible token List.mem_cons_self
    have rest := ih (fun t m => legible t (List.mem_cons_of_mem token m)) separated.tail
      (Nat.le_of_succ_le_succ enough)
    have stop : token.isNumber = true → EndsNumber (tokens.flatMap text) := by
      intro number
      cases tokens with
      | nil =>
        intro c h
        cases h
      | cons second tokens =>
        rw [List.flatMap_cons]
        exact endsNumber_text (separated.rel number) _
    have read := next?_text first stop
    obtain ⟨c, cs, text, printed⟩ := head?_text first
    rw [List.flatMap_cons]
    rw [text] at read ⊢
    rw [List.cons_append, scanWithin?, if_neg (by rw [printed]; decide), ← List.cons_append, read]
    simp [rest]

/-- Tokens are read back from their texts in a row. -/
theorem scan?_texts {tokens : List Token} (legible : ∀ token ∈ tokens, token.Legible)
    (separated : Separated tokens) : scan? (tokens.flatMap text) = some tokens := by
  refine scanWithin?_texts legible separated ?_
  -- The bound is the length of the text, and every token has a character at least.
  clear separated
  induction tokens with
  | nil => exact Nat.le_refl 0
  | cons token tokens ih =>
    obtain ⟨c, cs, text, _⟩ := head?_text (legible token List.mem_cons_self)
    have rest := ih fun t m => legible t (List.mem_cons_of_mem token m)
    rw [List.flatMap_cons, text, List.length_cons, List.length_append, List.length_cons]
    omega

end ScriptHost.Json.Token
