import ScriptHost.Proofs.Decimal.Rounding
import ScriptHost.Proofs.Decimal.Shortest

/-!
# Rounding to the nearest double

A number is attracted by a magnitude when it lies in the interval of numbers that round to it. Of
the magnitudes with 53 bits no two attract one number, so a result that is known to be rounded from
a number is known when one magnitude is found that attracts it.

* `Binary.Magnitude.Attracts` : a number rounds to a magnitude.
* `Binary.Magnitude.Attracts.unique` : it rounds to one magnitude only.
* `Represents` : what a mantissa and its residual bits say about a number.
* `attracts_roundWithAccuracy` : rounding gives a magnitude that attracts the number.
-/

namespace ScriptHost.Decimal

open Binary Float.Model Float.Model.UnpackedFloat

/-! ## The numbers that round to a magnitude -/

namespace Binary.Magnitude

/-- A number lies in the interval of numbers that round to the magnitude. -/
def Attracts (m : Magnitude) (q : ℚ) : Prop :=
  if m.closed then m.interval.1.value ≤ q ∧ q ≤ m.interval.2.value
  else m.interval.1.value < q ∧ q < m.interval.2.value

/-- How far the interval reaches below the magnitude, in units in the last place. -/
def margin (m : Magnitude) : ℚ := if m.isStep then 1 / 4 else 1 / 2

/-- The mantissa has 53 bits, and the exponent is one that doubles have. -/
structure IsNormal (m : Magnitude) : Prop where
  mantissa_ge : 2 ^ 52 ≤ m.mantissa
  mantissa_lt : m.mantissa < 2 ^ 53
  exponent_ge : -1074 ≤ m.exponent

theorem margin_le (m : Magnitude) : m.margin ≤ 1 / 2 := by
  unfold margin
  split <;> norm_num

theorem margin_pos (m : Magnitude) : 0 < m.margin := by
  unfold margin
  split <;> norm_num

/-- The lower end of the interval of a magnitude. -/
theorem value_interval_low {m : Magnitude} (positive : 0 < m.mantissa) :
    m.interval.1.value = (m.mantissa - m.margin) * 2 ^ m.exponent := by
  unfold interval margin
  dsimp only
  rw [value_quarters]
  split
  · rw [Nat.cast_sub (by omega)]
    push_cast
    ring
  · rw [Nat.cast_sub (by omega)]
    push_cast
    ring

theorem Attracts.low {m : Magnitude} {q : ℚ} (h : m.Attracts q) (positive : 0 < m.mantissa) :
    (m.mantissa - m.margin) * 2 ^ m.exponent ≤ q := by
  rw [← value_interval_low positive]
  unfold Attracts at h
  split at h
  · exact h.1
  · exact h.1.le

theorem Attracts.high {m : Magnitude} {q : ℚ} (h : m.Attracts q) :
    q ≤ (m.mantissa + 1 / 2) * 2 ^ m.exponent := by
  rw [← value_interval]
  unfold Attracts at h
  split at h
  · exact h.2
  · exact h.2.le

/-- The ends of the interval round to a magnitude with an even mantissa only. -/
theorem Attracts.inside {m : Magnitude} {q : ℚ} (h : m.Attracts q) (odd : m.mantissa % 2 = 1) :
    (m.mantissa - m.margin) * 2 ^ m.exponent < q
      ∧ q < (m.mantissa + 1 / 2) * 2 ^ m.exponent := by
  have opened : m.closed = false := by
    unfold closed
    rw [odd]
    rfl
  rw [← value_interval, ← value_interval_low (by omega)]
  unfold Attracts at h
  rw [opened] at h
  exact h

/-- What rounds to a positive double is positive. -/
theorem Attracts.pos {m : Magnitude} {q : ℚ} (h : m.Attracts q) (positive : 0 < m.mantissa) :
    0 < q := by
  refine lt_of_lt_of_le ?_ (h.low positive)
  have one : (1 : ℚ) ≤ m.mantissa := by exact_mod_cast positive
  have margin := m.margin_le
  exact mul_pos (by linarith) (by positivity)

theorem Attracts.digits_ne_zero {m : Magnitude} {s : Scaled} (h : m.Attracts s.value)
    (positive : 0 < m.mantissa) : s.digits ≠ 0 := by
  intro zero
  have above := h.pos positive
  unfold Scaled.value at above
  rw [zero, Nat.cast_zero, zero_mul] at above
  exact lt_irrefl _ above

/-- A number that is nearer than the ends of the interval, or at an end of an even mantissa, rounds
to the magnitude. -/
theorem attracts_of_bounds {m : Magnitude} {q : ℚ} (positive : 0 < m.mantissa)
    (low : (m.mantissa - m.margin) * 2 ^ m.exponent ≤ q)
    (high : q ≤ (m.mantissa + 1 / 2) * 2 ^ m.exponent)
    (odd : m.mantissa % 2 = 1 → (m.mantissa - m.margin) * 2 ^ m.exponent < q
      ∧ q < (m.mantissa + 1 / 2) * 2 ^ m.exponent) : m.Attracts q := by
  rw [← value_interval_low positive] at low odd
  rw [← value_interval] at high odd
  unfold Attracts
  split
  · exact ⟨low, high⟩
  · next opened =>
    refine odd ?_
    unfold closed at opened
    rw [beq_iff_eq] at opened
    omega

/-- The number that a magnitude is rounds to it. -/
theorem attracts_value {m : Magnitude} (positive : 0 < m.mantissa) : m.Attracts m.value := by
  have unit : (0 : ℚ) < 2 ^ m.exponent := by positivity
  have below : (m.mantissa - m.margin) * 2 ^ m.exponent < m.value := by
    refine mul_lt_mul_of_pos_right ?_ unit
    linarith [m.margin_pos]
  have above : m.value < (m.mantissa + 1 / 2) * 2 ^ m.exponent := by
    refine mul_lt_mul_of_pos_right ?_ unit
    linarith
  exact attracts_of_bounds positive below.le above.le fun _ => ⟨below, above⟩

/-! ## One magnitude for a number -/

/-- Of two magnitudes with one exponent that a number rounds to, none has the greater mantissa. -/
theorem Attracts.mantissa_le {m n : Magnitude} (hm : m.IsNormal)
    (same : m.exponent = n.exponent) {q : ℚ} (h : m.Attracts q) (k : n.Attracts q) :
    n.mantissa ≤ m.mantissa := by
  by_contra more
  have unit : (0 : ℚ) < 2 ^ n.exponent := by positivity
  -- The greater one is no power of two, so it reaches down by half a unit as the other reaches up.
  have not_step : n.margin = 1 / 2 := by
    unfold margin isStep
    rw [if_neg]
    simp only [Bool.and_eq_true, beq_iff_eq, Nat.pow_eq, not_and]
    have := hm.mantissa_ge
    omega
  have up := h.high
  have down := k.low (by omega)
  rw [same] at up
  rw [not_step] at down
  have near : (n.mantissa : ℚ) - 1 / 2 ≤ m.mantissa + 1 / 2 :=
    le_of_mul_le_mul_right (down.trans up) unit
  have next : n.mantissa = m.mantissa + 1 := by
    have : (n.mantissa : ℚ) ≤ ((m.mantissa + 1 : Nat) : ℚ) := by
      push_cast
      linarith
    have := Nat.cast_le.1 this
    omega
  -- Half way between them, one of the two mantissas is odd, and its interval is open.
  by_cases odd : m.mantissa % 2 = 1
  · have up := (h.inside odd).2
    rw [same] at up
    have := lt_of_mul_lt_mul_right (down.trans_lt up) unit.le
    rw [next] at this
    push_cast at this
    linarith
  · have down := (k.inside (by omega)).1
    rw [not_step] at down
    have := lt_of_mul_lt_mul_right (down.trans_le up) unit.le
    rw [next] at this
    push_cast at this
    linarith

/-- A number that rounds to a magnitude with 53 bits does not round to one with a greater
exponent. -/
theorem Attracts.exponent_le {m n : Magnitude} (hm : m.IsNormal) (hn : n.IsNormal) {q : ℚ}
    (h : m.Attracts q) (k : n.Attracts q) : n.exponent ≤ m.exponent := by
  by_contra greater
  have unit : (0 : ℚ) < 2 ^ m.exponent := by positivity
  have doubled : (2 : ℚ) * 2 ^ m.exponent ≤ 2 ^ n.exponent := by
    rw [← zpow_one_add₀ (by norm_num)]
    exact zpow_le_zpow_right₀ (by norm_num) (by omega)
  have ge : (2 : ℚ) ^ 52 - 1 / 4 ≤ n.mantissa - n.margin := by
    by_cases least : n.mantissa = 2 ^ 52
    · have step : n.margin = 1 / 4 := by
        unfold margin isStep
        rw [if_pos]
        simp only [least, Bool.and_eq_true, beq_iff_eq, decide_eq_true_eq]
        exact ⟨rfl, by have := hm.exponent_ge; omega⟩
      rw [step, least]
      push_cast
      exact le_refl _
    · have more : (2 : ℚ) ^ 52 + 1 ≤ n.mantissa := by
        have := hn.mantissa_ge
        have : 2 ^ 52 + 1 ≤ n.mantissa := by omega
        exact_mod_cast this
      linarith [n.margin_le]
  have down : ((2 : ℚ) ^ 53 - 1 / 2) * 2 ^ m.exponent ≤ q := by
    calc ((2 : ℚ) ^ 53 - 1 / 2) * 2 ^ m.exponent
        = (2 ^ 52 - 1 / 4) * (2 * 2 ^ m.exponent) := by ring
      _ ≤ (n.mantissa - n.margin) * 2 ^ n.exponent := by
          refine mul_le_mul ge doubled (by positivity) ?_
          exact le_trans (by norm_num) ge
      _ ≤ q := k.low (by have := hn.mantissa_ge; omega)
  -- Only the end of the interval of the greatest mantissa is left, and that mantissa is odd.
  have top : m.mantissa = 2 ^ 53 - 1 := by
    have near := le_of_mul_le_mul_right (down.trans h.high) unit
    have : ((2 ^ 53 : Nat) : ℚ) ≤ ((m.mantissa + 1 : Nat) : ℚ) := by
      push_cast
      linarith
    have := Nat.cast_le.1 this
    have := hm.mantissa_lt
    omega
  have up := (h.inside (by rw [top]; rfl)).2
  have := lt_of_mul_lt_mul_right (down.trans_lt up) unit.le
  rw [top] at this
  norm_num at this

/-- A number rounds to one magnitude with 53 bits only. -/
theorem Attracts.unique {m n : Magnitude} (hm : m.IsNormal) (hn : n.IsNormal) {q : ℚ}
    (h : m.Attracts q) (k : n.Attracts q) : m = n := by
  have exponent : m.exponent = n.exponent :=
    le_antisymm (k.exponent_le hn hm h) (h.exponent_le hm hn k)
  have mantissa : m.mantissa = n.mantissa :=
    le_antisymm (k.mantissa_le hn exponent.symm h) (h.mantissa_le hm exponent k)
  cases m
  cases n
  cases exponent
  cases mantissa
  rfl

end Binary.Magnitude

/-! ## Residual bits -/

/-- A number lies at or above a mantissa, by less than one. The round bit says whether it reaches the
middle, and the sticky bit whether it is neither the mantissa nor the middle. -/
structure Represents (extended : ExtendedMantissa) (q : ℚ) : Prop where
  ge : (extended.mantissa : ℚ) ≤ q
  lt : q < extended.mantissa + 1
  round : extended.roundBit = true ↔ (extended.mantissa : ℚ) + 1 / 2 ≤ q
  sticky : extended.stickyBit = true ↔ q ≠ extended.mantissa ∧ q ≠ extended.mantissa + 1 / 2

/-- One of the residual bits is set unless the number is the mantissa. -/
theorem Represents.residual {extended : ExtendedMantissa} {q : ℚ} (h : Represents extended q) :
    (extended.roundBit || extended.stickyBit) = true ↔ q ≠ extended.mantissa := by
  rw [Bool.or_eq_true, h.round, h.sticky]
  constructor
  · rintro (middle | ⟨above, _⟩)
    · intro same
      rw [same] at middle
      linarith
    · exact above
  · intro above
    by_cases middle : q = extended.mantissa + 1 / 2
    · exact .inl middle.ge
    · exact .inr ⟨above, middle⟩

/-- A shift by one bit halves the number. -/
theorem Represents.shiftRightOne {extended : ExtendedMantissa} {q : ℚ}
    (h : Represents extended q) : Represents extended.shiftRightOne (q / 2) := by
  have ge := h.ge
  have lt := h.lt
  have residual := h.residual
  have parts : (extended.mantissa : ℚ)
      = 2 * (extended.mantissa / 2 : Nat) + (extended.mantissa % 2 : Nat) := by
    exact_mod_cast (Nat.div_add_mod _ 2).symm
  -- The bit that is shifted out decides on which side of the new middle the number lies.
  unfold ExtendedMantissa.shiftRightOne
  obtain even | odd := Nat.mod_two_eq_zero_or_one extended.mantissa
  · rw [even, Nat.cast_zero, add_zero] at parts
    refine ⟨?_, ?_, ?_, ?_⟩ <;> dsimp only
    · linarith
    · linarith
    · rw [even]
      refine iff_of_false (by decide) ?_
      linarith
    · rw [residual, parts]
      constructor
      · intro other
        exact ⟨fun same => other (by linarith), fun middle => by linarith⟩
      · rintro ⟨other, _⟩ same
        exact other (by linarith)
  · rw [odd, Nat.cast_one] at parts
    refine ⟨?_, ?_, ?_, ?_⟩ <;> dsimp only
    · linarith
    · linarith
    · rw [odd]
      refine iff_of_true (by decide) ?_
      linarith
    · rw [residual, parts]
      constructor
      · intro other
        exact ⟨fun same => by linarith, fun middle => other (by linarith)⟩
      · rintro ⟨_, other⟩ same
        exact other (by linarith)

/-- A shift divides the number by a power of two. -/
theorem Represents.shiftRight {extended : ExtendedMantissa} {q : ℚ} (h : Represents extended q)
    (count : Nat) : Represents (extended >>> count) (q / 2 ^ count) := by
  induction count with
  | zero => rwa [pow_zero, div_one]
  | succ count ih =>
    rw [pow_succ, ← div_div]
    exact ih.shiftRightOne

/-- The rounded mantissa is at most a half away, and less than that if it is odd. -/
theorem Represents.rounded {extended : ExtendedMantissa} {q : ℚ} (h : Represents extended q) :
    (extended.roundedMantissa : ℚ) - 1 / 2 ≤ q ∧ q ≤ extended.roundedMantissa + 1 / 2
      ∧ (extended.roundedMantissa % 2 = 1 → (extended.roundedMantissa : ℚ) - 1 / 2 < q
        ∧ q < extended.roundedMantissa + 1 / 2) := by
  obtain ⟨ge, lt, round, sticky⟩ := h
  obtain ⟨mantissa, round_bit, sticky_bit⟩ := extended
  unfold ExtendedMantissa.roundedMantissa
  dsimp only at ge lt round sticky
  cases round_bit with
  | false =>
    have below : q < mantissa + 1 / 2 := not_le.1 fun k => Bool.false_ne_true (round.2 k)
    have kept : (ExtendedMantissa.mk mantissa false sticky_bit).accuracy.roundToNearestEven mantissa
        = mantissa := by
      cases sticky_bit <;> rfl
    dsimp only
    rw [kept]
    exact ⟨by linarith, below.le, fun _ => ⟨by linarith, below⟩⟩
  | true =>
    have above : (mantissa : ℚ) + 1 / 2 ≤ q := round.1 rfl
    cases sticky_bit with
    | false =>
      have middle : q = mantissa + 1 / 2 := by
        by_contra other
        refine Bool.false_ne_true (sticky.2 ⟨?_, other⟩)
        intro same
        linarith
      show ((mantissa + mantissa % 2 : Nat) : ℚ) - 1 / 2 ≤ q
        ∧ q ≤ (mantissa + mantissa % 2 : Nat) + 1 / 2 ∧ ((mantissa + mantissa % 2) % 2 = 1 → _)
      refine ⟨?_, ?_, fun odd => by omega⟩
      · obtain even | odd := Nat.mod_two_eq_zero_or_one mantissa
        · rw [even]
          push_cast
          linarith
        · rw [odd]
          push_cast
          linarith
      · rw [middle]
        push_cast
        linarith [Nat.cast_nonneg (α := ℚ) (mantissa % 2)]
    | true =>
      have beyond : (mantissa : ℚ) + 1 / 2 < q := lt_of_le_of_ne above (sticky.1 rfl).2.symm
      show ((mantissa + 1 : Nat) : ℚ) - 1 / 2 ≤ q ∧ q ≤ (mantissa + 1 : Nat) + 1 / 2
        ∧ ((mantissa + 1) % 2 = 1 → ((mantissa + 1 : Nat) : ℚ) - 1 / 2 < q
          ∧ q < (mantissa + 1 : Nat) + 1 / 2)
      push_cast
      exact ⟨by linarith, by linarith, fun _ => ⟨by linarith, by linarith⟩⟩

/-- A natural number is its own mantissa. -/
theorem represents_exact (n : Nat) :
    Represents (ExtendedMantissa.ofMantissaAndAccuracy n .exact) n := by
  refine ⟨le_refl _, lt_add_one _, ?_, ?_⟩
  · refine iff_of_false Bool.false_ne_true ?_
    show ¬(n : ℚ) + 1 / 2 ≤ n
    linarith
  · refine iff_of_false Bool.false_ne_true ?_
    rintro ⟨other, _⟩
    exact other rfl

/-- A fraction is compared with a half. -/
theorem represents_fraction (n : Nat) {num den : Nat} (lt : num < den) :
    Represents (ExtendedMantissa.ofMantissaAndAccuracy n (accuracyOfFraction num den))
      (n + num / den) := by
  have den_pos : (0 : ℚ) < den := by exact_mod_cast Nat.zero_lt_of_lt lt
  have below : (num : ℚ) / den < 1 := (div_lt_one den_pos).2 (by exact_mod_cast lt)
  unfold accuracyOfFraction
  split
  · next zero =>
    rw [zero, Nat.cast_zero, zero_div, add_zero]
    exact represents_exact n
  · next nonzero =>
    have above : (0 : ℚ) < num / den :=
      div_pos (by exact_mod_cast Nat.pos_of_ne_zero nonzero) den_pos
    cases half : compare (2 * num) den with
    | lt =>
      have less : (num : ℚ) / den < 1 / 2 := by
        have double : (2 : ℚ) * num < den := by exact_mod_cast Nat.compare_eq_lt.1 half
        rw [div_lt_iff₀ den_pos]
        linarith
      refine ⟨?_, ?_, iff_of_false Bool.false_ne_true ?_, iff_of_true rfl ⟨?_, ?_⟩⟩ <;>
        dsimp only [ExtendedMantissa.ofMantissaAndAccuracy] <;> linarith
    | eq =>
      have middle : (num : ℚ) / den = 1 / 2 := by
        have double : (2 : ℚ) * num = den := by exact_mod_cast Nat.compare_eq_eq.1 half
        rw [div_eq_iff den_pos.ne']
        linarith
      rw [middle]
      refine ⟨?_, ?_, iff_of_true rfl (le_refl _),
        iff_of_false Bool.false_ne_true fun other => other.2 rfl⟩ <;>
        dsimp only [ExtendedMantissa.ofMantissaAndAccuracy] <;> linarith
    | gt =>
      have more : (1 : ℚ) / 2 < num / den := by
        have double : (den : ℚ) < 2 * num := by exact_mod_cast Nat.compare_eq_gt.1 half
        rw [lt_div_iff₀ den_pos]
        linarith
      refine ⟨?_, ?_, iff_of_true rfl ?_, iff_of_true rfl ⟨?_, ?_⟩⟩ <;>
        dsimp only [ExtendedMantissa.ofMantissaAndAccuracy] <;> linarith

/-- A quotient is represented by its whole part and its rest. -/
theorem represents_div (n : Nat) {d : Nat} (positive : 0 < d) :
    Represents (ExtendedMantissa.ofMantissaAndAccuracy (n / d) (accuracyOfFraction (n % d) d))
      (n / d) := by
  have parts : (n : ℚ) = d * (n / d : Nat) + (n % d : Nat) := by
    exact_mod_cast (Nat.div_add_mod n d).symm
  have quotient : (n : ℚ) / d = (n / d : Nat) + (n % d : Nat) / d := by
    field_simp
    linarith
  rw [quotient]
  exact represents_fraction (n / d) (Nat.mod_lt n positive)

/-! ## Rounding to 53 bits -/

/-- A mantissa of 53 bits that a number is rounded to is the one of a magnitude that the number
rounds to, if the number has no fewer bits itself. -/
theorem attracts_of_rounded {r : Nat} {e : ℤ} {q : ℚ} (ge : 2 ^ 52 ≤ r) (normal : (2 : ℚ) ^ 52 ≤ q)
    (low : (r : ℚ) - 1 / 2 ≤ q) (high : q ≤ r + 1 / 2)
    (odd : r % 2 = 1 → (r : ℚ) - 1 / 2 < q ∧ q < r + 1 / 2) :
    (Magnitude.mk r e).Attracts (q * 2 ^ e) := by
  have unit : (0 : ℚ) < 2 ^ e := by positivity
  -- Only a power of two reaches down by less than a half, and no number below it is rounded.
  have margin : (r : ℚ) - (Magnitude.mk r e).margin ≤ q
      ∧ (r % 2 = 1 → (r : ℚ) - (Magnitude.mk r e).margin < q) := by
    unfold Magnitude.margin
    split
    · next step =>
      unfold Magnitude.isStep at step
      simp only [Bool.and_eq_true, beq_iff_eq, Nat.pow_eq] at step
      have power : (r : ℚ) = 2 ^ 52 := by exact_mod_cast step.1
      exact ⟨by linarith, fun _ => by linarith⟩
    · exact ⟨low, fun k => (odd k).1⟩
  refine Magnitude.attracts_of_bounds (by dsimp only; omega) ?_ ?_ fun k => ⟨?_, ?_⟩
  · exact mul_le_mul_of_nonneg_right margin.1 unit.le
  · exact mul_le_mul_of_nonneg_right high unit.le
  · exact mul_lt_mul_of_pos_right (margin.2 k) unit
  · exact mul_lt_mul_of_pos_right (odd k).2 unit

/-- A number that is rounded up to a 54th bit rounds to the power of two. -/
theorem attracts_of_carried {e : ℤ} {q : ℚ} (exponent : -1074 ≤ e)
    (low : (2 : ℚ) ^ 53 - 1 / 2 ≤ q) (high : q ≤ 2 ^ 53) :
    (Magnitude.mk (2 ^ 52) (e + 1)).Attracts (q * 2 ^ e) := by
  have unit : (0 : ℚ) < 2 ^ e := by positivity
  have step : (Magnitude.mk (2 ^ 52) (e + 1)).margin = 1 / 4 := by
    unfold Magnitude.margin Magnitude.isStep
    rw [if_pos]
    simp only [Bool.and_eq_true, beq_iff_eq, decide_eq_true_eq]
    exact ⟨rfl, by omega⟩
  have doubled : (2 : ℚ) ^ (e + 1) = 2 * 2 ^ e := by
    rw [zpow_add_one₀ (by norm_num), mul_comm]
  refine Magnitude.attracts_of_bounds (Nat.two_pow_pos 52) ?_ ?_
    fun odd => absurd odd (show ¬2 ^ 52 % 2 = 1 by decide)
  · calc (((2 ^ 52 : Nat) : ℚ) - (Magnitude.mk (2 ^ 52) (e + 1)).margin) * 2 ^ (e + 1)
        = (2 ^ 53 - 1 / 2) * 2 ^ e := by rw [step, doubled]; push_cast; ring
      _ ≤ q * 2 ^ e := mul_le_mul_of_nonneg_right low unit.le
  · calc q * 2 ^ e ≤ (2 ^ 53 + 1) * 2 ^ e := mul_le_mul_of_nonneg_right (by linarith) unit.le
      _ = (((2 ^ 52 : Nat) : ℚ) + 1 / 2) * 2 ^ (e + 1) := by rw [doubled]; push_cast; ring

/-- Rounding a mantissa with 53 bits at least gives a magnitude that the represented number rounds
to. -/
theorem attracts_roundWithAccuracy {n : Nat} {e : ℤ} {accuracy : Accuracy} {q : ℚ}
    (bits : 52 ≤ n.log2) (low : -1074 ≤ e)
    (represents : Represents (.ofMantissaAndAccuracy n accuracy) (q / 2 ^ e)) (sign : Sign) :
    ∃ (m : Magnitude) (positive : 0 < m.mantissa),
      roundWithAccuracy Format.binary64 sign n e accuracy
          = .finite sign m.mantissa m.exponent positive
        ∧ m.IsNormal ∧ m.Attracts q := by
  obtain ⟨normal_ge, normal_lt⟩ := shifted_bounds bits
  have shifted := represents.shiftRight (n.log2 - 52)
  generalize extended_eq : ExtendedMantissa.ofMantissaAndAccuracy n accuracy >>> (n.log2 - 52)
    = extended at shifted
  have mantissa : extended.mantissa = n / 2 ^ (n.log2 - 52) := by
    rw [← extended_eq, mantissa_shiftRight, mantissa_ofMantissaAndAccuracy]
  rw [← mantissa] at normal_ge normal_lt
  obtain ⟨left, carry, positive, result, ge, lt, form⟩ :=
    roundWithAccuracy_eq bits low accuracy sign extended_eq rfl
  generalize n.log2 - 52 = shift at shifted result form
  -- What is left of the number, in units of its new exponent.
  generalize rest_eq : q / 2 ^ e / 2 ^ shift = rest at shifted
  have whole : q = rest * 2 ^ (e + (shift : ℤ)) := by
    rw [← rest_eq, zpow_add₀ (by norm_num), zpow_natCast]
    field_simp
  have normal : (2 : ℚ) ^ 52 ≤ rest := le_trans (by exact_mod_cast normal_ge) shifted.ge
  obtain ⟨near_low, near_high, odd⟩ := shifted.rounded
  refine ⟨⟨left, e + shift + carry⟩, positive, result, ⟨ge, lt, by dsimp only; omega⟩, ?_⟩
  rw [whole]
  obtain ⟨same, rfl⟩ | ⟨rfl, rfl, carried⟩ := form
  · rw [← same] at near_low near_high odd
    rw [Nat.cast_zero, add_zero]
    exact attracts_of_rounded ge normal near_low near_high odd
  · have below : rest ≤ 2 ^ 53 := shifted.lt.le.trans (by exact_mod_cast normal_lt)
    rw [carried] at near_low
    exact attracts_of_carried (by omega) (by exact_mod_cast near_low) below

end ScriptHost.Decimal
