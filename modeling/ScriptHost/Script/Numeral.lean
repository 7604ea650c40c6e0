import ScriptHost.Decimal.Layout
import ScriptHost.Script.Value

/-!
# Numerals of the script language

* `Numeral.read?` : the number that a text stands for, as in scripts and in strings that take part
  in arithmetic.
* `Numeral.writeFloat`, `Numeral.writeInteger` : a number as text.
-/

namespace ScriptHost.Script.Numeral

open Decimal

/-! ## Reading -/

/-- The blanks around a numeral. -/
def isSpace (c : Char) : Bool := c == ' ' || ('\t' ≤ c && c ≤ '\r')

/-- The value of a hexadecimal digit. -/
def hexValue? (c : Char) : Option Nat :=
  if '0' ≤ c && c ≤ '9' then some (c.toNat - '0'.toNat)
  else if 'a' ≤ c && c ≤ 'f' then some (c.toNat - 'a'.toNat + 10)
  else if 'A' ≤ c && c ≤ 'F' then some (c.toNat - 'A'.toNat + 10)
  else none

/-- The number that hexadecimal digits stand for. -/
def readHex (cs : List Char) : Nat :=
  cs.foldl (fun n c => 16 * n + (hexValue? c).getD 0) 0

/-- Reads an exponent behind one of two letters, if there is one. The text has to end with it. -/
def exponent? (letters : List Char) : List Char → Option Int
  | [] => some 0
  | c :: rest =>
    if letters.contains c then
      let (negative, digits) :=
        match rest with
        | '-' :: digits => (true, digits)
        | '+' :: digits => (false, digits)
        | digits => (false, digits)
      if digits.isEmpty || !digits.all isDigit then none
      else some (if negative then -(readDigits digits) else readDigits digits)
    else none

/-- Cuts digits, and a point with further digits, from the front of a text. -/
def mantissa (digit : Char → Bool) (cs : List Char) : List Char × List Char × List Char × Bool :=
  let whole := cs.takeWhile digit
  match cs.dropWhile digit with
  | '.' :: rest => (whole, rest.takeWhile digit, rest.dropWhile digit, true)
  | rest => (whole, [], rest, false)

/-- The double nearest to `digits * 2 ^ exponent`. -/
def nearestBinary (digits : Nat) (exponent : Int) : Float :=
  let size : Int := exponent + Nat.log2 digits
  if digits = 0 || size < -1100 then 0.0
  else if 1100 < size then 1.0 / 0.0
  else if 0 ≤ exponent then Float.ofScientific (digits * Nat.pow 2 exponent.toNat) false 0
  else
    let places := (-exponent).toNat
    Float.ofScientific (digits * Nat.pow 5 places) true places

/-- The number of an unsigned hexadecimal numeral, without its `0x`. Integers wrap around. -/
def readHexadecimal? (cs : List Char) : Option Value :=
  let (whole, fraction, rest, point) := mantissa (fun c => (hexValue? c).isSome) cs
  if whole.isEmpty && fraction.isEmpty then none
  else if rest.isEmpty && !point then some (.integer (Int64.ofNat (readHex whole)))
  else (exponent? ['p', 'P'] rest).map fun exponent =>
    .number (nearestBinary (readHex (whole ++ fraction)) (exponent - 4 * fraction.length))

/-- The number of an unsigned decimal numeral. A whole number up to `limit` is an integer. -/
def readDecimal? (limit : Nat) (cs : List Char) : Option Value :=
  let (whole, fraction, rest, point) := mantissa isDigit cs
  if whole.isEmpty && fraction.isEmpty then none
  else if rest.isEmpty && !point && readDigits whole ≤ limit then
    some (.integer (Int64.ofNat (readDigits whole)))
  else (exponent? ['e', 'E'] rest).map fun exponent =>
    .number (Literal.nearestScaled (readDigits (whole ++ fraction)) (exponent - fraction.length))

/-- The number of an unsigned numeral. -/
def readUnsigned? (limit : Nat) : List Char → Option Value
  | '0' :: 'x' :: rest | '0' :: 'X' :: rest => readHexadecimal? rest
  | cs => readDecimal? limit cs

/-- The opposite of a number. -/
def opposite : Value → Value
  | .integer n => .integer (-n)
  | .number x => .number (-x)
  | .nan negative => .nan !negative
  | value => value

/-- The number that a text stands for, with blanks around it and with a sign. -/
def read? (cs : List Char) : Option Value :=
  let inner := ((cs.dropWhile isSpace).reverse.dropWhile isSpace).reverse
  match inner with
  | '-' :: rest => (readUnsigned? (Nat.pow 2 63) rest).map opposite
  | '+' :: rest => readUnsigned? (Nat.pow 2 63 - 1) rest
  | rest => readUnsigned? (Nat.pow 2 63 - 1) rest

/-- The number that the bytes of a string stand for. -/
def ofBytes? (bytes : ByteArray) : Option Value :=
  read? (bytes.toList.map fun b => Char.ofNat b.toNat)

/-! ## Writing -/

/-- Numbers are positional from a ten thousandth up to below ten to the fourteenth. -/
def layout : Layout := ⟨-4, 13, 2⟩

/-- The most digits that are written. -/
def digits : Nat := 14

/-- A NaN as text. -/
def writeNan (negative : Bool) : String := if negative then "-nan" else "nan"

/-- A double as text. -/
def writeFloat (x : Float) : String :=
  match Binary.ofFloat x with
  | .nan => writeNan false
  | .infinite negative => if negative then "-inf" else "inf"
  | .finite negative m =>
    String.ofList ((if negative then ['-'] else []) ++ (layout.literal (rounded digits m)).text)

/-- An integer as text. -/
def writeInteger (n : Int64) : String := toString n.toInt

end ScriptHost.Script.Numeral
