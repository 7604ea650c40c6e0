import ScriptHost.Decimal.Layout
import ScriptHost.Json.Document
import ScriptHost.Ordered

/-!
# JSON values

* `Json` : values, with integers and floating point numbers kept apart.
* `Json.ofDocument?` : the value of a document, within a nesting limit.
* `Json.document` : a value as a document; `Json.compact` and `Json.pretty` are its texts.
-/

namespace ScriptHost

open Decimal Json

/-- A JSON value. -/
inductive Json where
  | null
  | boolean (value : Bool)
  | integer (value : Int)
  | real (value : Float)
  | string (value : String)
  | array (items : List Json)
  | object (members : List (String × Json))
  deriving Repr, Inhabited

namespace Json

/-! ## Reading -/

/-- The deepest nesting of arrays and objects that is read. -/
def nestingLimit : Nat := 127

/-- The value of a number. A whole number that fits into sixty-four bits, with or without a sign, is
an integer; all others, and `-0`, are floating point numbers. -/
def ofNumber? (negative : Bool) (literal : Literal) : Option Json :=
  let magnitude := readDigits literal.whole
  let whole := literal.fraction.isEmpty && literal.exponent?.isNone
  if whole && !negative && magnitude < Literal.wordLimit then some (.integer magnitude)
  else if whole && negative && magnitude ≠ 0 && magnitude ≤ Nat.pow 2 63 then
    some (.integer (-(magnitude : Int)))
  else literal.scaled?.map fun x => .real (if negative then -x else x)

mutual

/-- The value of a document with at most `depth` levels of arrays and objects. Of two members with
one key the later counts, and members are sorted by key. -/
def ofDocument? (depth : Nat) : Document → Option Json
  | .null => some .null
  | .boolean value => some (.boolean value)
  | .number negative literal => ofNumber? negative literal
  | .string value? => value?.map .string
  | .array items =>
    match depth with
    | 0 => none
    | depth + 1 => (ofItems? depth items).map .array
  | .object members =>
    match depth with
    | 0 => none
    | depth + 1 => (ofMembers? depth members).map fun pairs => .object (Entries.ofList pairs)

/-- The values of some documents. -/
def ofItems? (depth : Nat) : List Document → Option (List Json)
  | [] => some []
  | item :: items => do
    let value ← ofDocument? depth item
    let values ← ofItems? depth items
    some (value :: values)

/-- The members of an object, in the order written. -/
def ofMembers? (depth : Nat) : List (Option String × Document) → Option (List (String × Json))
  | [] => some []
  | (key?, value) :: members => do
    let key ← key?
    let value ← ofDocument? depth value
    let pairs ← ofMembers? depth members
    some ((key, value) :: pairs)

end

/-- The value of a text. -/
def parse? (text : String) : Option Json := (Document.parse? text).bind (ofDocument? nestingLimit)

/-! ## Writing -/

/-- Numbers are positional from a hundred thousandth up to below ten to the sixteenth. -/
def numberLayout : Layout := ⟨-5, 15, 1⟩

/-- A floating point number as a document; those that are not finite have no number. -/
def numberDocument (x : Float) : Document :=
  match Binary.ofFloat x with
  | .finite negative magnitude => .number negative (numberLayout.literal (shortest magnitude))
  | _ => .null

/-- An integer as a document. -/
def integerDocument (value : Int) : Document :=
  .number (decide (value < 0)) ⟨digitsOf value.natAbs, [], none⟩

mutual

/-- A value as a document. -/
def document : Json → Document
  | .null => .null
  | .boolean value => .boolean value
  | .integer value => integerDocument value
  | .real value => numberDocument value
  | .string value => .string (some value)
  | .array items => .array (documents items)
  | .object members => .object (memberDocuments members)

/-- Values as documents. -/
def documents : List Json → List Document
  | [] => []
  | item :: items => item.document :: documents items

/-- The members of an object as documents. -/
def memberDocuments : List (String × Json) → List (Option String × Document)
  | [] => []
  | (key, value) :: members => (some key, value.document) :: memberDocuments members

end

/-- A value on one line, without blanks. -/
def compact (value : Json) : String := String.ofList value.document.text

/-! ## Writing over several lines -/

/-- A line end and the indentation of a nesting level. -/
def newLine (level : Nat) : List Char := '\n' :: List.replicate (2 * level) ' '

mutual

/-- A document over several lines: each item and each member has a line, indented by its level. -/
def prettyText (level : Nat) : Document → List Char
  | .array [] => ['[', ']']
  | .array (item :: items) =>
    '[' :: newLine (level + 1) ++ prettyText (level + 1) item ++ prettyItems level items
  | .object [] => ['{', '}']
  | .object ((key?, value) :: members) =>
    '{' :: newLine (level + 1) ++ (Token.string key?).text ++ [':', ' '] ++
      prettyText (level + 1) value ++ prettyMembers level members
  | .null => Token.null.text
  | .boolean value => (Token.boolean value).text
  | .number negative literal => (Token.number negative literal).text
  | .string value? => (Token.string value?).text

/-- The further items of an array, up to its end. -/
def prettyItems (level : Nat) : List Document → List Char
  | [] => newLine level ++ [']']
  | item :: items =>
    ',' :: newLine (level + 1) ++ prettyText (level + 1) item ++ prettyItems level items

/-- The further members of an object, up to its end. -/
def prettyMembers (level : Nat) : List (Option String × Document) → List Char
  | [] => newLine level ++ ['}']
  | (key?, value) :: members =>
    ',' :: newLine (level + 1) ++ (Token.string key?).text ++ [':', ' '] ++
      prettyText (level + 1) value ++ prettyMembers level members

end

/-- A value over several lines. -/
def pretty (value : Json) : String := String.ofList (prettyText 0 value.document)

end Json

end ScriptHost
