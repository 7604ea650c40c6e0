import ScriptHost.Json.Token

/-!
# The structure of JSON texts

A document is what a text says, before its numbers are read and its members are sorted.

* `Document.parse?` : the document of a text.
* `Document.text` : a document as it is written, without blanks.
-/

namespace ScriptHost.Json

open Decimal

/-- A JSON text as a tree. -/
inductive Document where
  | null
  | boolean (value : Bool)
  | number (negative : Bool) (literal : Literal)
  | string (value? : Option String)
  | array (items : List Document)
  /-- The members in order; a key can stand more than once. -/
  | object (members : List (Option String × Document))
  deriving Repr

namespace Document

/-! ## Reading -/

mutual

/-- Reads a document from the front of some tokens. `depth` bounds the number of steps. -/
def read? : Nat → List Token → Option (Document × List Token)
  | 0, _ => none
  | bound + 1, tokens =>
    match tokens with
    | .null :: rest => some (.null, rest)
    | .boolean value :: rest => some (.boolean value, rest)
    | .number negative literal :: rest => some (.number negative literal, rest)
    | .string value? :: rest => some (.string value?, rest)
    | .openBracket :: .closeBracket :: rest => some (.array [], rest)
    | .openBracket :: rest => do
      let (items, rest) ← readItems? bound rest
      some (.array items, rest)
    | .openBrace :: .closeBrace :: rest => some (.object [], rest)
    | .openBrace :: rest => do
      let (members, rest) ← readMembers? bound rest
      some (.object members, rest)
    | _ => none

/-- Reads one or more items with commas between them, and the closing bracket. -/
def readItems? : Nat → List Token → Option (List Document × List Token)
  | 0, _ => none
  | bound + 1, tokens => do
    let (item, rest) ← read? bound tokens
    match rest with
    | .comma :: rest => do
      let (items, rest) ← readItems? bound rest
      some (item :: items, rest)
    | .closeBracket :: rest => some ([item], rest)
    | _ => none

/-- Reads one or more members with commas between them, and the closing brace. -/
def readMembers? : Nat → List Token → Option (List (Option String × Document) × List Token)
  | 0, _ => none
  | bound + 1, tokens =>
    match tokens with
    | .string key? :: .colon :: rest => do
      let (value, rest) ← read? bound rest
      match rest with
      | .comma :: rest => do
        let (members, rest) ← readMembers? bound rest
        some ((key?, value) :: members, rest)
      | .closeBrace :: rest => some ([(key?, value)], rest)
      | _ => none
    | _ => none

end

/-- The document that some tokens make up. -/
def ofTokens? (tokens : List Token) : Option Document :=
  match read? (tokens.length + 1) tokens with
  | some (document, []) => some document
  | _ => none

/-- The document of a text. -/
def parse? (text : String) : Option Document := (Token.scan? text.toList).bind ofTokens?

/-! ## Writing -/

mutual

/-- The tokens of a document. -/
def tokens : Document → List Token
  | .null => [.null]
  | .boolean value => [.boolean value]
  | .number negative literal => [.number negative literal]
  | .string value? => [.string value?]
  | .array [] => [.openBracket, .closeBracket]
  | .array (item :: items) => .openBracket :: (item.tokens ++ itemTokens items)
  | .object [] => [.openBrace, .closeBrace]
  | .object ((key?, value) :: members) =>
    .openBrace :: .string key? :: .colon :: (value.tokens ++ memberTokens members)

/-- The tokens of the further items of an array, up to its end. -/
def itemTokens : List Document → List Token
  | [] => [.closeBracket]
  | item :: items => .comma :: (item.tokens ++ itemTokens items)

/-- The tokens of the further members of an object, up to its end. -/
def memberTokens : List (Option String × Document) → List Token
  | [] => [.closeBrace]
  | (key?, value) :: members =>
    .comma :: .string key? :: .colon :: (value.tokens ++ memberTokens members)

end

/-- A document as it is written, without blanks. -/
def text (document : Document) : List Char := document.tokens.flatMap Token.text

end Document

end ScriptHost.Json
