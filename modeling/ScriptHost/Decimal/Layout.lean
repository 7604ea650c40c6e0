import ScriptHost.Decimal.Literal
import ScriptHost.Decimal.Shortest

/-!
# Layout of decimals

How a decimal number is written: digits with a point in a range of magnitudes, and one digit, a
point and an exponent outside it.

* `Layout` : the choices that one format makes.
* `Layout.literal` : a decimal as a literal.
-/

namespace ScriptHost.Decimal

/-- What a format decides about the text of a number. -/
structure Layout where
  /-- The least exponent of the leading digit that is written without an exponent part. -/
  lowest : Int
  /-- The greatest exponent of the leading digit that is written without an exponent part. -/
  highest : Int
  /-- The least number of digits in an exponent part. -/
  exponentDigits : Nat
  deriving DecidableEq, Repr

namespace Layout

/-- The exponent of the leading digit. -/
def leading (s : Scaled) : Int := s.exponent + digitCount s.digits - 1

/-- Digits with a point; a whole number keeps one zero behind it. -/
def positional (s : Scaled) : Literal :=
  let digits := digitsOf s.digits
  if 0 ≤ s.exponent then ⟨digits ++ List.replicate s.exponent.toNat '0', ['0'], none⟩
  else
    let places := (-s.exponent).toNat
    if places < digits.length then
      ⟨digits.take (digits.length - places), digits.drop (digits.length - places), none⟩
    else ⟨['0'], List.replicate (places - digits.length) '0' ++ digits, none⟩

/-- One digit, a point if there are more, and the exponent of that digit. -/
def scientific (layout : Layout) (s : Scaled) : Literal :=
  let digits := digitsOf s.digits
  let exponent := leading s
  ⟨digits.take 1, digits.drop 1,
    some ⟨decide (exponent < 0), paddedDigits layout.exponentDigits exponent.natAbs⟩⟩

/-- The literal of a decimal. -/
def literal (layout : Layout) (s : Scaled) : Literal :=
  if s.digits = 0 then positional ⟨0, 0⟩
  else if layout.lowest ≤ leading s ∧ leading s ≤ layout.highest then positional s
  else layout.scientific s

end Layout

end ScriptHost.Decimal
