/-!
# Binary floating point numbers

A double is a sign and an exact product of a natural number and a power of two, or an infinity, or
not a number.

* `Binary.ofFloat x` : the parts of a double, from its bits.
* `Binary.Magnitude.ratio` : a magnitude as a quotient of naturals.
* `Binary.Magnitude.interval` : the quotients next to which no other double lies nearer.
-/

namespace ScriptHost.Decimal

namespace Binary

/-- The number `mantissa * 2 ^ exponent`. -/
structure Magnitude where
  mantissa : Nat
  exponent : Int
  deriving DecidableEq, Repr

/-- A quotient of natural numbers. -/
structure Ratio where
  num : Nat
  den : Nat
  deriving DecidableEq, Repr

/-- The parts of a double. -/
inductive Parts where
  | nan
  | infinite (negative : Bool)
  | finite (negative : Bool) (magnitude : Magnitude)
  deriving DecidableEq, Repr

/-- The parts of the double with the given bits: one bit of sign, eleven of exponent, fifty-two of
mantissa. -/
def ofBits (bits : Nat) : Parts :=
  let negative := decide (Nat.pow 2 63 ≤ bits)
  let field : Nat := bits / Nat.pow 2 52 % Nat.pow 2 11
  let fraction : Nat := bits % Nat.pow 2 52
  if field = 2047 then
    if fraction = 0 then .infinite negative else .nan
  else if field = 0 then .finite negative ⟨fraction, -1074⟩
  else .finite negative ⟨Nat.pow 2 52 + fraction, Int.ofNat field - 1075⟩

/-- The parts of a double. -/
def ofFloat (x : Float) : Parts := ofBits x.toBits.toNat

namespace Magnitude

/-- `count` quarters of the unit `2 ^ exponent`. -/
def quarters (m : Magnitude) (count : Nat) : Ratio :=
  ⟨count * Nat.pow 2 m.exponent.toNat, 4 * Nat.pow 2 (-m.exponent).toNat⟩

/-- The magnitude as a quotient. -/
def ratio (m : Magnitude) : Ratio := m.quarters (4 * m.mantissa)

/-- Below a power of two, doubles lie half as far apart as above it. -/
def isStep (m : Magnitude) : Bool := m.mantissa == Nat.pow 2 52 && decide (-1074 < m.exponent)

/-- The ends of the interval of numbers that round to the magnitude. -/
def interval (m : Magnitude) : Ratio × Ratio :=
  (m.quarters (if m.isStep then 4 * m.mantissa - 1 else 4 * m.mantissa - 2),
    m.quarters (4 * m.mantissa + 2))

/-- A number half way between two doubles rounds to the one with an even mantissa. -/
def closed (m : Magnitude) : Bool := m.mantissa % 2 == 0

end Magnitude

end Binary

end ScriptHost.Decimal
