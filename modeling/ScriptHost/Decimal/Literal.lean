import ScriptHost.Decimal.Digits

/-!
# Decimal literals

A literal is a text of digits with an optional fraction and an optional exponent. Two readings as a
double are given.

* `Literal.text` : the text of a literal.
* `Literal.nearest` : the double nearest to the number written.
* `Literal.scaled?` : the digits are collected into a machine word, as far as they fit, and scaled
  by a power of ten once. This is fast and at times a unit off in the last place.
-/

namespace ScriptHost.Decimal

/-- An exponent as written. -/
structure Exponent where
  negative : Bool
  digits : List Char
  deriving DecidableEq, Repr

/-- An unsigned decimal number as written. -/
structure Literal where
  whole : List Char
  fraction : List Char := []
  exponent? : Option Exponent := none
  deriving DecidableEq, Repr

namespace Literal

/-- The exponent that is written, zero when there is none. -/
def writtenExponent (literal : Literal) : Int :=
  match literal.exponent? with
  | none => 0
  | some e => if e.negative then -(readDigits e.digits) else readDigits e.digits

/-- The text of a literal; the sign of an exponent is always written. -/
def text (literal : Literal) : List Char :=
  literal.whole ++ (if literal.fraction.isEmpty then [] else '.' :: literal.fraction) ++
    match literal.exponent? with
    | none => []
    | some e => 'e' :: (if e.negative then '-' else '+') :: e.digits

/-! ## The nearest double -/

/-- The double nearest to `digits * 10 ^ exponent`. -/
def nearestScaled (digits : Nat) (exponent : Int) : Float :=
  let leading := exponent + digitCount digits
  if digits = 0 || leading < -330 then 0.0
  else if 330 < leading then 1.0 / 0.0
  else Float.ofScientific digits (decide (exponent < 0)) exponent.natAbs

/-- The double nearest to the number written. -/
def nearest (literal : Literal) : Float :=
  nearestScaled (readDigits (literal.whole ++ literal.fraction))
    (literal.writtenExponent - literal.fraction.length)

/-! ## A word scaled once -/

/-- Digits collected into a word. -/
structure Collected where
  word : Nat := 0
  /-- The power of ten that the word is still to be multiplied by. -/
  exponent : Int := 0
  deriving DecidableEq, Repr

/-- The words that fit into sixty-four bits. -/
def wordLimit : Nat := Nat.pow 2 64

/-- Collects the digits of a whole number. From the first digit on that does not fit, digits only
count. -/
def collectWhole (word : Nat) : List Char → Collected
  | [] => ⟨word, 0⟩
  | c :: rest =>
    let next := 10 * word + digitValue c
    if next < wordLimit then collectWhole next rest else ⟨word, rest.length + 1⟩

/-- Collects the digits of a fraction. From the first digit on that does not fit, digits are
ignored. -/
def collectFraction (start : Collected) : List Char → Collected
  | [] => start
  | c :: rest =>
    let next := 10 * start.word + digitValue c
    if next < wordLimit then collectFraction ⟨next, start.exponent - 1⟩ rest else start

/-- The digits of a literal, collected. -/
def collected (literal : Literal) : Collected :=
  collectFraction (collectWhole 0 literal.whole) literal.fraction

/-- The double nearest to a power of ten. -/
def powerOfTen (n : Nat) : Float := Float.ofScientific 1 false n

/-- The greatest power of ten that is a double. -/
def greatestPower : Nat := 308

/-- Multiplies by `10 ^ exponent`, if the product is finite. Exponents below the least power are
taken in steps, at most `steps` of them. -/
def scale? (x : Float) (exponent : Int) (steps : Nat) : Option Float :=
  if exponent.natAbs ≤ greatestPower then
    if exponent < 0 then some (x / powerOfTen exponent.natAbs)
    else
      let product := x * powerOfTen exponent.natAbs
      if product.isInf then none else some product
  else if x == 0.0 then some x
  else if 0 < exponent then none
  else match steps with
    | 0 => some 0.0
    | steps + 1 => scale? (x / powerOfTen greatestPower) (exponent + greatestPower) steps

/-- Written exponents beyond this are not looked at. -/
def exponentLimit : Nat := Nat.pow 2 31

/-- The number written, with its collected digits scaled once; none when it is too great. -/
def scaled? (literal : Literal) : Option Float :=
  let digits := literal.collected
  let written := literal.writtenExponent
  if written.natAbs < exponentLimit then
    scale? (digits.word.toUInt64.toFloat) (digits.exponent + written) 4
  else if 0 < written && digits.word ≠ 0 then none
  else some 0.0

end Literal

end ScriptHost.Decimal
