import ScriptHost.Proofs.Decimal.Nearest

/-!
# The shortest decimal rounds to the double

The search for the decimal with the fewest digits ends with one that rounds to the double, since
multiples of a power of ten with 17 digits lie closer together than the interval of the double is
wide.

* `covers_iff` : the search decides which multiples round to the double.
* `ten_zpow_leadingExponent_le` : the power of ten of the leading digit.
* `attracts_shortest` : the shortest decimal of a double rounds to it.
-/

namespace ScriptHost.Decimal

open Binary

/-! ## Comparing with natural numbers -/

theorem num_le_iff {r : Ratio} (den : 0 < r.den) (e : ℤ) (k : Nat) :
    (r.inUnits e).num ≤ k * (r.inUnits e).den ↔ r.value ≤ k * 10 ^ e := by
  have units : (0 : ℚ) < (r.inUnits e).den := by exact_mod_cast den_inUnits_pos den e
  rw [← div_le_iff₀ (by positivity), ← value_inUnits, Ratio.value, div_le_iff₀ units]
  exact_mod_cast Iff.rfl

theorem le_num_iff {r : Ratio} (den : 0 < r.den) (e : ℤ) (k : Nat) :
    k * (r.inUnits e).den ≤ (r.inUnits e).num ↔ k * 10 ^ e ≤ r.value := by
  have units : (0 : ℚ) < (r.inUnits e).den := by exact_mod_cast den_inUnits_pos den e
  rw [← le_div_iff₀ (by positivity), ← value_inUnits, Ratio.value, le_div_iff₀ units]
  exact_mod_cast Iff.rfl

/-- The search for a short decimal tries whether a multiple of a power of ten rounds to the
magnitude. -/
theorem covers_iff (m : Magnitude) (e : ℤ) (k : Nat) :
    m.covers e k = true ↔ m.Attracts (Scaled.mk k e).value := by
  have low := den_quarters_pos m (if m.isStep then 4 * m.mantissa - 1 else 4 * m.mantissa - 2)
  have high := den_quarters_pos m (4 * m.mantissa + 2)
  unfold Magnitude.covers Magnitude.Attracts Scaled.value
  dsimp only
  split
  · rw [decide_eq_true_eq]
    exact and_congr (num_le_iff low e k) (le_num_iff high e k)
  · rw [decide_eq_true_eq, ← not_le, ← not_le, ← not_le, ← not_le]
    exact and_congr (not_congr (le_num_iff low e k)) (not_congr (num_le_iff high e k))

/-! ## The leading digit -/

/-- A positive quotient is at least the power of ten of its leading exponent. -/
theorem ten_zpow_leadingExponent_le {r : Ratio} (num : 0 < r.num) (den : 0 < r.den) :
    (10 : ℚ) ^ leadingExponent r ≤ r.value := by
  have den_pos : (0 : ℚ) < r.den := by exact_mod_cast den
  unfold leadingExponent Ratio.value
  split
  · next whole =>
    have positive := digitCount_pos (r.num / r.den)
    have leading := ten_pow_digitCount_le (Nat.div_pos whole den)
    have exponent : (digitCount (r.num / r.den) : ℤ) - 1
        = ((digitCount (r.num / r.den) - 1 : Nat) : ℤ) := by omega
    rw [Nat.le_div_iff_mul_le den] at leading
    rw [exponent, zpow_natCast, le_div_iff₀ den_pos]
    exact_mod_cast leading
  · generalize gap_eq : (r.den + r.num - 1) / r.num - 1 = gap
    -- The inverse, rounded up, has one unit more than `gap` and is at most the next power of ten.
    have product : r.den ≤ r.num * 10 ^ digitCount gap := by
      have less := lt_ten_pow_digitCount gap
      have above : r.den + r.num - 1 < r.num * ((r.den + r.num - 1) / r.num + 1) :=
        Nat.lt_mul_div_succ _ num
      have next : r.num * ((r.den + r.num - 1) / r.num + 1) ≤ r.num * (10 ^ digitCount gap + 1) :=
        Nat.mul_le_mul_left _ (by omega)
      rw [Nat.mul_succ r.num (10 ^ digitCount gap)] at next
      omega
    rw [zpow_neg, zpow_natCast, inv_eq_one_div, div_le_div_iff₀ (by positivity) den_pos, one_mul]
    exact_mod_cast product

/-! ## The grid with 17 digits -/

/-- Of two numbers around a magnitude that lie closer together than its interval is wide, one rounds
to it. -/
theorem attracts_or_attracts {m : Magnitude} {low high : ℚ} (positive : 0 < m.mantissa)
    (below : low ≤ m.value) (above : m.value ≤ high)
    (close : high - low < (m.margin + 1 / 2) * 2 ^ m.exponent) :
    m.Attracts low ∨ m.Attracts high := by
  have unit : (0 : ℚ) < 2 ^ m.exponent := by positivity
  have margin := mul_pos m.margin_pos unit
  unfold Magnitude.value at below above
  rw [add_mul] at close
  by_cases near : (m.mantissa - m.margin) * 2 ^ m.exponent < low
  · left
    have upper : low < (m.mantissa + 1 / 2) * 2 ^ m.exponent := by
      rw [add_mul]
      linarith
    exact Magnitude.attracts_of_bounds positive near.le upper.le fun _ => ⟨near, upper⟩
  · right
    have upper : high < (m.mantissa + 1 / 2) * 2 ^ m.exponent := by
      rw [sub_mul] at near
      rw [add_mul]
      linarith
    have lower : (m.mantissa - m.margin) * 2 ^ m.exponent < high := by
      rw [sub_mul]
      linarith
    exact Magnitude.attracts_of_bounds positive lower.le upper.le fun _ => ⟨lower, upper⟩

/-- A grid is missed when neither of the two points around the magnitude rounds to it. -/
theorem of_onGrid?_eq_none {m : Magnitude} {e : ℤ} (h : onGrid? m e = none) :
    m.covers e ((m.ratio.inUnits e).num / (m.ratio.inUnits e).den) = false
      ∧ m.covers e ((m.ratio.inUnits e).num / (m.ratio.inUnits e).den + 1) = false := by
  unfold onGrid? at h
  dsimp only at h
  split at h
  · cases h
  · cases h
  · cases h
  · next low high => exact ⟨low, high⟩

/-- Multiples of a power of ten are tried with success when they lie closer together than the
interval is wide. -/
theorem onGrid?_ne_none {m : Magnitude} {e : ℤ} (positive : 0 < m.mantissa)
    (fine : (10 : ℚ) ^ e < (m.margin + 1 / 2) * 2 ^ m.exponent) : onGrid? m e ≠ none := by
  have den : 0 < m.ratio.den := den_quarters_pos m (4 * m.mantissa)
  have units := den_inUnits_pos den e
  intro missed
  obtain ⟨missed_low, missed_high⟩ := of_onGrid?_eq_none missed
  generalize below_eq : (m.ratio.inUnits e).num / (m.ratio.inUnits e).den = below
    at missed_low missed_high
  have low : (below : ℚ) * 10 ^ e ≤ m.value := by
    rw [← value_ratio, ← le_num_iff den e below, ← below_eq]
    exact Nat.div_mul_le_self _ _
  have high : m.value ≤ ((below + 1 : Nat) : ℚ) * 10 ^ e := by
    rw [← value_ratio, ← num_le_iff den e (below + 1), ← below_eq, Nat.mul_comm]
    exact (Nat.lt_mul_div_succ _ units).le
  have close : ((below + 1 : Nat) : ℚ) * 10 ^ e - below * 10 ^ e
      < (m.margin + 1 / 2) * 2 ^ m.exponent := by
    push_cast
    linarith
  obtain hit | hit := attracts_or_attracts positive low high close
  · exact Bool.false_ne_true (missed_low.symm.trans ((covers_iff m e below).2 hit))
  · exact Bool.false_ne_true (missed_high.symm.trans ((covers_iff m e (below + 1)).2 hit))

/-- The numbers with 17 digits lie closer together than the interval of a double is wide. -/
theorem ten_zpow_lt_width {m : Magnitude} {leading : ℤ}
    (bits : m.mantissa < 2 ^ 53) (least : (10 : ℚ) ^ leading ≤ m.value) :
    (10 : ℚ) ^ (leading - 16) < (m.margin + 1 / 2) * 2 ^ m.exponent := by
  have unit : (0 : ℚ) < 2 ^ m.exponent := by positivity
  have width : (m.mantissa : ℚ) < (m.margin + 1 / 2) * 10 ^ 16 := by
    unfold Magnitude.margin
    split
    · next step =>
      unfold Magnitude.isStep at step
      simp only [Bool.and_eq_true, beq_iff_eq, Nat.pow_eq] at step
      rw [step.1]
      norm_num
    · have : (m.mantissa : ℚ) < 2 ^ 53 := by exact_mod_cast bits
      linarith
  have spacing : (10 : ℚ) ^ (leading - 16) * 10 ^ 16 = 10 ^ leading := by
    rw [← zpow_natCast, ← zpow_add₀ (by norm_num)]
    congr 1
    omega
  refine lt_of_mul_lt_mul_right ?_ (show (0 : ℚ) ≤ 10 ^ 16 by positivity)
  calc (10 : ℚ) ^ (leading - 16) * 10 ^ 16 ≤ m.mantissa * 2 ^ m.exponent := spacing.trans_le least
    _ < (m.margin + 1 / 2) * 10 ^ 16 * 2 ^ m.exponent := mul_lt_mul_of_pos_right width unit
    _ = (m.margin + 1 / 2) * 2 ^ m.exponent * 10 ^ 16 := by ring

/-! ## The search -/

/-- The search ends with a decimal that rounds to the magnitude. -/
theorem attracts_shortestFrom {m : Magnitude} {leading : ℤ}
    (last : onGrid? m (leading - 16) ≠ none) (count remaining : Nat)
    (most : count + remaining = mostDigits) :
    m.Attracts (shortestFrom m leading count (remaining + 1)).value := by
  induction remaining generalizing count with
  | zero =>
    have exponent : leading - count + 1 = leading - 16 := by
      have digits : mostDigits = 17 := rfl
      omega
    unfold shortestFrom
    dsimp only
    rw [exponent]
    split
    · next k hit => exact (covers_iff m _ k).1 (of_onGrid? hit).1
    · next missed => exact absurd missed last
  | succ remaining ih =>
    unfold shortestFrom
    dsimp only
    split
    · next k hit => exact (covers_iff m _ k).1 (of_onGrid? hit).1
    · exact ih (count + 1) (by omega)

/-- The shortest decimal of a double rounds to it. -/
theorem attracts_shortest {m : Magnitude} (positive : 0 < m.mantissa)
    (bits : m.mantissa < 2 ^ 53) : m.Attracts (shortest m).value := by
  have num : 0 < m.ratio.num := Nat.mul_pos (by omega) (Nat.pow_pos (by decide))
  have least := ten_zpow_leadingExponent_le num (den_quarters_pos m _)
  rw [value_ratio] at least
  have last := onGrid?_ne_none positive (ten_zpow_lt_width bits least)
  unfold shortest
  rw [if_neg positive.ne', value_normalized]
  exact attracts_shortestFrom last 1 16 rfl

end ScriptHost.Decimal
