import ScriptHost.Decimal.Binary
import ScriptHost.Decimal.Digits

/-!
# Decimal digits of a number

A decimal is `digits * 10 ^ exponent`. Two ways to choose one for a number are given.

* `shortest m` : of the decimals that round to the double `m`, one with the fewest digits, and of
  those the nearest.
* `rounded count r` : the nearest decimal with `count` digits, a half going to the even one.
-/

namespace ScriptHost.Decimal

open Binary

/-- The number `digits * 10 ^ exponent`. -/
structure Scaled where
  digits : Nat
  exponent : Int
  deriving DecidableEq, Repr

/-- The exponent of the leading digit of a positive quotient: the greatest `e` with
`10 ^ e ≤ num / den`. -/
def leadingExponent (r : Ratio) : Int :=
  if r.den ≤ r.num then (digitCount (r.num / r.den) : Int) - 1
  else -(digitCount ((r.den + r.num - 1) / r.num - 1) : Int)

/-- The quotient divided by `10 ^ exponent`. -/
def Binary.Ratio.inUnits (r : Ratio) (exponent : Int) : Ratio :=
  ⟨r.num * Nat.pow 10 (-exponent).toNat, r.den * Nat.pow 10 exponent.toNat⟩

/-- Drops trailing zeros from the digits. -/
def Scaled.normalized (fuel : Nat) (s : Scaled) : Scaled :=
  match fuel with
  | 0 => s
  | fuel + 1 =>
    if s.digits % 10 = 0 ∧ s.digits ≠ 0 then
      Scaled.normalized fuel ⟨s.digits / 10, s.exponent + 1⟩
    else s

/-! ## The fewest digits -/

/-- Whether `k * 10 ^ exponent` rounds to the magnitude. -/
def Binary.Magnitude.covers (m : Magnitude) (exponent : Int) (k : Nat) : Bool :=
  let low := m.interval.1.inUnits exponent
  let high := m.interval.2.inUnits exponent
  if m.closed then decide (low.num ≤ k * low.den ∧ k * high.den ≤ high.num)
  else decide (low.num < k * low.den ∧ k * high.den < high.num)

/-- The nearer of the two multiples of `10 ^ exponent` around the magnitude that round to it; of two
that are equally near, the even one. -/
def onGrid? (m : Magnitude) (exponent : Int) : Option Nat :=
  let r := m.ratio.inUnits exponent
  let below := r.num / r.den
  let twice := 2 * (r.num - below * r.den)
  let first := twice < r.den || (twice == r.den && below % 2 == 0)
  match m.covers exponent below, m.covers exponent (below + 1) with
  | true, true => some (if first then below else below + 1)
  | true, false => some below
  | false, true => some (below + 1)
  | false, false => none

/-- The first grid with a hit, of those with `count` and up to `remaining` more digits. -/
def shortestFrom (m : Magnitude) (leading : Int) (count : Nat) : Nat → Scaled
  | 0 => ⟨(m.ratio.inUnits (leading - 16)).num / (m.ratio.inUnits (leading - 16)).den, leading - 16⟩
  | remaining + 1 =>
    let exponent := leading - count + 1
    match onGrid? m exponent with
    | some k => ⟨k, exponent⟩
    | none => shortestFrom m leading (count + 1) remaining

/-- The most digits that a double needs. -/
def mostDigits : Nat := 17

/-- The decimal with the fewest digits that rounds to a magnitude. -/
def shortest (m : Magnitude) : Scaled :=
  if m.mantissa = 0 then ⟨0, 0⟩
  else (shortestFrom m (leadingExponent m.ratio) 1 mostDigits).normalized (mostDigits + 1)

/-! ## A fixed number of digits -/

/-- The nearest natural number; a half goes to the even one. -/
def Binary.Ratio.round (r : Ratio) : Nat :=
  let below := r.num / r.den
  let twice := 2 * (r.num - below * r.den)
  if twice < r.den || (twice == r.den && below % 2 == 0) then below else below + 1

/-- The nearest decimal with `count` digits, without trailing zeros. -/
def rounded (count : Nat) (m : Magnitude) : Scaled :=
  if m.mantissa = 0 then ⟨0, 0⟩
  else
    let exponent := leadingExponent m.ratio - count + 1
    (Scaled.mk (m.ratio.inUnits exponent).round exponent).normalized (count + 1)

end ScriptHost.Decimal
