import Mathlib.Algebra.Order.Field.Power
import Mathlib.Algebra.Order.Field.Rat
import Mathlib.Tactic.FieldSimp
import Mathlib.Tactic.Linarith
import Mathlib.Tactic.Positivity
import Mathlib.Tactic.Ring
import ScriptHost.Decimal.Shortest

/-!
# The size of the shortest decimal

The decimal with the fewest digits that rounds to a double lies half a unit in the last place above
the double at most, and has 17 digits at most.

* `Binary.Ratio.value`, `Binary.Magnitude.value`, `Scaled.value` : the numbers that are meant.
* `shortest_spec` : the bounds on the decimal and on its digits.
-/

namespace ScriptHost.Decimal

open Binary

/-! ## Values -/

/-- The number that a quotient is. -/
def Binary.Ratio.value (r : Ratio) : ℚ := r.num / r.den

/-- The number that a magnitude is. -/
def Binary.Magnitude.value (m : Magnitude) : ℚ := m.mantissa * 2 ^ m.exponent

/-- The number that a decimal is. -/
def Scaled.value (s : Scaled) : ℚ := s.digits * 10 ^ s.exponent

/-- A power is split at its sign. -/
theorem zpow_eq_div {a : ℚ} (h : a ≠ 0) (e : ℤ) : a ^ e = a ^ e.toNat / a ^ (-e).toNat := by
  rw [← zpow_natCast, ← zpow_natCast, ← zpow_sub₀ h]
  congr 1
  omega

theorem value_inUnits (r : Ratio) (e : ℤ) : (r.inUnits e).value = r.value / 10 ^ e := by
  unfold Ratio.inUnits Ratio.value
  rw [zpow_eq_div (by norm_num)]
  simp only [Nat.pow_eq]
  push_cast
  rw [div_div_eq_mul_div, div_mul_eq_mul_div, div_div]

theorem value_quarters (m : Magnitude) (count : Nat) :
    (m.quarters count).value = count / 4 * 2 ^ m.exponent := by
  unfold Magnitude.quarters Ratio.value
  rw [zpow_eq_div (by norm_num)]
  simp only [Nat.pow_eq]
  push_cast
  rw [div_mul_div_comm]

theorem value_ratio (m : Magnitude) : m.ratio.value = m.value := by
  unfold Magnitude.ratio Magnitude.value
  rw [value_quarters]
  push_cast
  ring

/-- The upper end of the interval of a magnitude. -/
theorem value_interval (m : Magnitude) :
    m.interval.2.value = (m.mantissa + 1 / 2) * 2 ^ m.exponent := by
  unfold Magnitude.interval
  rw [value_quarters]
  push_cast
  ring

/-! ## Quotients and natural numbers -/

theorem den_inUnits_pos {r : Ratio} (h : 0 < r.den) (e : ℤ) : 0 < (r.inUnits e).den :=
  Nat.mul_pos h (Nat.pow_pos (by decide))

theorem den_quarters_pos (m : Magnitude) (count : Nat) : 0 < (m.quarters count).den :=
  Nat.mul_pos (by decide) (Nat.pow_pos (by decide))

/-- A natural number is not above a quotient if its product with the denominator is not above the
numerator. -/
theorem natCast_le_value {r : Ratio} (h : 0 < r.den) {n : Nat} (le : n * r.den ≤ r.num) :
    (n : ℚ) ≤ r.value := by
  unfold Ratio.value
  rw [le_div_iff₀ (by exact_mod_cast h)]
  exact_mod_cast le

theorem div_lt_of_value_lt {r : Ratio} (h : 0 < r.den) {n : Nat} (lt : r.value < n) :
    r.num / r.den < n := by
  unfold Ratio.value at lt
  rw [div_lt_iff₀ (by exact_mod_cast h)] at lt
  rw [Nat.div_lt_iff_lt_mul h]
  exact_mod_cast lt

theorem digitCount_pos (n : Nat) : 0 < digitCount n := List.length_pos_iff.2 Nat.toDigits_ne_nil

theorem lt_ten_pow_digitCount (n : Nat) : n < 10 ^ digitCount n :=
  (length_digitsOf_le_iff (digitCount_pos n)).1 (Nat.le_refl _)

theorem ten_pow_digitCount_le {n : Nat} (h : 0 < n) : 10 ^ (digitCount n - 1) ≤ n := by
  by_cases single : digitCount n = 1
  · rw [single]
    exact h
  · by_contra less
    have positive := digitCount_pos n
    have fewer := (length_digitsOf_le_iff (n := n) (k := digitCount n - 1) (by omega)).2
      (Nat.lt_of_not_le less)
    have same : (digitsOf n).length = digitCount n := rfl
    omega

/-- A positive quotient is less than the power of ten above its leading exponent. -/
theorem value_lt_leadingExponent {r : Ratio} (num : 0 < r.num) (den : 0 < r.den) :
    r.value < 10 ^ (leadingExponent r + 1) := by
  have den_pos : (0 : ℚ) < r.den := by exact_mod_cast den
  unfold leadingExponent Ratio.value
  split
  · rw [sub_add_cancel, zpow_natCast, div_lt_iff₀ den_pos]
    have whole := lt_ten_pow_digitCount (r.num / r.den)
    rw [Nat.div_lt_iff_lt_mul den] at whole
    exact_mod_cast whole
  · next less =>
    -- A quotient below one is compared through its inverse, whose digits are those of `gap`.
    generalize gap_eq : (r.den + r.num - 1) / r.num - 1 = gap
    have two : 2 ≤ (r.den + r.num - 1) / r.num := (Nat.le_div_iff_mul_le num).2 (by omega)
    have product : gap * r.num < r.den := by
      have floor := Nat.div_mul_le_self (r.den + r.num - 1) r.num
      rw [← gap_eq, Nat.sub_mul]
      omega
    have positive := digitCount_pos gap
    have power : r.num * 10 ^ (digitCount gap - 1) < r.den := by
      have leading := ten_pow_digitCount_le (show 0 < gap by omega)
      rw [Nat.mul_comm]
      exact Nat.lt_of_le_of_lt (Nat.mul_le_mul_right _ leading) product
    have exponent : -(digitCount gap : ℤ) + 1 = -((digitCount gap - 1 : Nat) : ℤ) := by omega
    rw [exponent, zpow_neg, zpow_natCast, div_lt_iff₀ den_pos, inv_mul_eq_div,
      lt_div_iff₀ (by positivity)]
    exact_mod_cast power

/-! ## The shortest decimal -/

theorem value_le_of_covers {m : Magnitude} {e : ℤ} {k : Nat} (h : m.covers e k = true) :
    (Scaled.mk k e).value ≤ m.interval.2.value := by
  have fits : k * (m.interval.2.inUnits e).den ≤ (m.interval.2.inUnits e).num := by
    unfold Magnitude.covers at h
    dsimp only at h
    split at h
    · exact (of_decide_eq_true h).2
    · exact (of_decide_eq_true h).2.le
  have units := natCast_le_value (den_inUnits_pos (den_quarters_pos m _) e) fits
  rw [value_inUnits, le_div_iff₀ (by positivity)] at units
  exact units

/-- A hit on a grid is one of the two points around the magnitude. -/
theorem of_onGrid? {m : Magnitude} {e : ℤ} {k : Nat} (h : onGrid? m e = some k) :
    m.covers e k = true ∧ k ≤ (m.ratio.inUnits e).num / (m.ratio.inUnits e).den + 1 := by
  unfold onGrid? at h
  dsimp only at h
  split at h
  · next low high =>
    cases h
    split
    · exact ⟨low, Nat.le_succ _⟩
    · exact ⟨high, Nat.le_refl _⟩
  · next low _ =>
    cases h
    exact ⟨low, Nat.le_succ _⟩
  · next _ high =>
    cases h
    exact ⟨high, Nat.le_refl _⟩
  · cases h

/-- A multiple of a power of ten below a magnitude has as many digits as there are exponents up to
the leading one. -/
theorem floor_lt_pow {m : Magnitude} {leading e : ℤ} (below : m.value < 10 ^ (leading + 1))
    (count : Nat) (exponent : e = leading - count + 1) :
    (m.ratio.inUnits e).num / (m.ratio.inUnits e).den < 10 ^ count := by
  have den : 0 < m.ratio.den := den_quarters_pos m _
  refine div_lt_of_value_lt (den_inUnits_pos den e) ?_
  rw [value_inUnits, value_ratio, div_lt_iff₀ (by positivity)]
  push_cast
  rw [← zpow_natCast, ← zpow_add₀ (by norm_num)]
  have sum : (count : ℤ) + e = leading + 1 := by omega
  rwa [sum]

theorem shortestFrom_spec {m : Magnitude} {leading : ℤ} (below : m.value < 10 ^ (leading + 1))
    (count remaining : Nat) (most : count + remaining ≤ mostDigits + 1) :
    (shortestFrom m leading count remaining).value ≤ m.interval.2.value
      ∧ (shortestFrom m leading count remaining).digits ≤ 10 ^ mostDigits := by
  induction remaining generalizing count with
  | zero =>
    -- No number of digits was enough: the decimal is the double cut off after 17 digits.
    have den : 0 < m.ratio.den := den_quarters_pos m _
    have floor := natCast_le_value (den_inUnits_pos den (leading - 16))
      (Nat.div_mul_le_self _ _)
    rw [value_inUnits, value_ratio, le_div_iff₀ (by positivity)] at floor
    have upper : m.value ≤ m.interval.2.value := by
      rw [value_interval, Magnitude.value]
      gcongr
      linarith
    have last : leading - 16 = leading - (mostDigits : Nat) + 1 := by
      show leading - 16 = leading - 17 + 1
      omega
    have digits := floor_lt_pow below mostDigits last
    exact ⟨floor.trans upper, digits.le⟩
  | succ remaining ih =>
    unfold shortestFrom
    dsimp only
    split
    · next k hit =>
      obtain ⟨covered, bounded⟩ := of_onGrid? hit
      have floor := floor_lt_pow below count rfl
      have fewer : 10 ^ count ≤ 10 ^ mostDigits := Nat.pow_le_pow_right (by decide) (by omega)
      refine ⟨value_le_of_covers covered, ?_⟩
      show k ≤ 10 ^ mostDigits
      omega
    · exact ih (count + 1) (by omega)

/-- Dropping trailing zeros does not change the number. -/
theorem value_normalized (fuel : Nat) (s : Scaled) : (s.normalized fuel).value = s.value := by
  induction fuel generalizing s with
  | zero => rfl
  | succ fuel ih =>
    unfold Scaled.normalized
    split
    · next zero =>
      rw [ih]
      unfold Scaled.value
      have split : s.digits = s.digits / 10 * 10 := by omega
      rw [zpow_add_one₀ (by norm_num)]
      conv_rhs => rw [split]
      push_cast
      ring
    · rfl

theorem digits_normalized_le (fuel : Nat) (s : Scaled) :
    (s.normalized fuel).digits ≤ s.digits := by
  induction fuel generalizing s with
  | zero => exact Nat.le_refl _
  | succ fuel ih =>
    unfold Scaled.normalized
    split
    · exact (ih _).trans (Nat.div_le_self _ _)
    · exact Nat.le_refl _

/-- The decimal is half a unit in the last place above the double at most, and has 17 digits or is
the least number with 18. -/
theorem shortest_spec (m : Magnitude) :
    (shortest m).value ≤ (m.mantissa + 1 / 2) * 2 ^ m.exponent
      ∧ (shortest m).digits ≤ 10 ^ mostDigits := by
  unfold shortest
  split
  · next zero =>
    refine ⟨?_, Nat.zero_le _⟩
    show ((0 : Nat) : ℚ) * 10 ^ (0 : ℤ) ≤ _
    rw [Nat.cast_zero, zero_mul]
    positivity
  · next positive =>
    have num : 0 < m.ratio.num :=
      Nat.mul_pos (by omega) (Nat.pow_pos (by decide))
    have below := value_lt_leadingExponent num (den_quarters_pos m _)
    rw [value_ratio] at below
    obtain ⟨value, digits⟩ := shortestFrom_spec below 1 mostDigits (by decide)
    rw [value_normalized, ← value_interval]
    exact ⟨value, (digits_normalized_le _ _).trans digits⟩

end ScriptHost.Decimal
