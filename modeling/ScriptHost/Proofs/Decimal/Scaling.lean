import ScriptHost.Decimal.Layout
import ScriptHost.Proofs.Decimal.Rounding
import ScriptHost.Proofs.Decimal.Shortest

/-!
# Written doubles can be scaled

A literal is read by collecting its digits in a word and scaling that once. This fails when the
scaled number is too great for a double, also when the number that is written is not. It does not
fail for the shortest decimal of a double.

* `Literal.collected_of_fits`, `Layout.collected_scientific` : what is collected from a literal, and
  from one in the scientific form.
* `Literal.isSome_scale?_of_neg`, `Literal.isSome_scale?_of_isInf` : when scaling gives a double.
* `isInf_shortest` : scaling the shortest decimal of a double gives a finite number.
-/

namespace ScriptHost.Decimal

open Binary

namespace Literal

/-! ## Collecting digits -/

theorem le_ofDigitChars (cs : List Char) (word : Nat) : word ≤ Nat.ofDigitChars 10 cs word := by
  rw [Nat.ofDigitChars_eq_ofDigitChars_zero]
  have : word ≤ 10 ^ cs.length * word := Nat.le_mul_of_pos_left word (Nat.pow_pos (by decide))
  omega

/-- The digits of a whole number that fits into a word are all collected. -/
theorem collectWhole_of_fits {word : Nat} {cs : List Char}
    (fits : Nat.ofDigitChars 10 cs word < wordLimit) :
    collectWhole word cs = ⟨Nat.ofDigitChars 10 cs word, 0⟩ := by
  induction cs generalizing word with
  | nil => rfl
  | cons c cs ih =>
    rw [Nat.ofDigitChars_cons] at fits ⊢
    have next : 10 * word + digitValue c < wordLimit :=
      Nat.lt_of_le_of_lt (le_ofDigitChars cs _) fits
    unfold collectWhole
    dsimp only
    rw [if_pos next]
    exact ih fits

/-- So are the digits of a fraction. -/
theorem collectFraction_of_fits {start : Collected} {cs : List Char}
    (fits : Nat.ofDigitChars 10 cs start.word < wordLimit) :
    collectFraction start cs
      = ⟨Nat.ofDigitChars 10 cs start.word, start.exponent - cs.length⟩ := by
  induction cs generalizing start with
  | nil => simp [collectFraction]
  | cons c cs ih =>
    rw [Nat.ofDigitChars_cons] at fits ⊢
    have next : 10 * start.word + digitValue c < wordLimit :=
      Nat.lt_of_le_of_lt (le_ofDigitChars cs _) fits
    unfold collectFraction
    dsimp only
    rw [if_pos next, ih fits]
    simp only [Collected.mk.injEq, List.length_cons]
    exact ⟨rfl, by omega⟩

/-- When all digits of a literal fit into a word, they are collected as one number, and those of the
fraction lower the exponent. -/
theorem collected_of_fits {literal : Literal} {n : Nat}
    (digits : readDigits (literal.whole ++ literal.fraction) = n) (fits : n < wordLimit) :
    literal.collected = ⟨n, -literal.fraction.length⟩ := by
  unfold readDigits at digits
  rw [Nat.ofDigitChars_append] at digits
  have front : Nat.ofDigitChars 10 literal.whole 0 < wordLimit := by
    refine Nat.lt_of_le_of_lt ?_ fits
    rw [← digits]
    exact le_ofDigitChars _ _
  unfold collected
  rw [collectWhole_of_fits front, collectFraction_of_fits (by dsimp only; rw [digits]; exact fits)]
  dsimp only
  rw [digits, zero_sub]

/-! ## Scaling -/

/-- Dividing never fails. -/
theorem isSome_scale?_of_neg {x : Float} {e : ℤ} (h : e < 0) (steps : Nat) :
    (scale? x e steps).isSome = true := by
  induction steps generalizing x e with
  | zero =>
    unfold scale?
    split
    · rfl
    · split
      · rfl
      · rw [if_neg (by omega)]
        rfl
  | succ steps ih =>
    unfold scale?
    split
    · rfl
    · next large =>
      split
      · rfl
      · rw [if_neg (by omega)]
        have limit : greatestPower = 308 := rfl
        exact ih (by omega)

theorem isSome_scale?_of_isInf {x : Float} {n : Nat} (small : n ≤ greatestPower)
    (finite : (x * powerOfTen n).isInf = false) (steps : Nat) :
    (scale? x n steps).isSome = true := by
  unfold scale?
  rw [if_pos (by omega), if_neg (by omega), Int.natAbs_natCast]
  dsimp only
  rw [finite]
  rfl

end Literal

/-! ## Forms of literals -/

namespace Layout

theorem readDigits_paddedDigits (width n : Nat) : readDigits (paddedDigits width n) = n := by
  unfold readDigits paddedDigits
  rw [Nat.ofDigitChars_append, Nat.ofDigitChars_replicate_zero, Nat.mul_zero]
  exact readDigits_digitsOf n

theorem writtenExponent_scientific (layout : Layout) (s : Scaled) :
    (layout.scientific s).writtenExponent = leading s := by
  unfold Literal.writtenExponent scientific
  dsimp only
  rw [readDigits_paddedDigits]
  split
  · next negative =>
    have := of_decide_eq_true negative
    omega
  · next positive =>
    have := of_decide_eq_false (Bool.eq_false_iff.2 positive)
    omega

/-- The digits of the scientific form are all collected, and those of the fraction lower the
exponent. -/
theorem collected_scientific (layout : Layout) {s : Scaled} (small : s.digits < Literal.wordLimit) :
    (layout.scientific s).collected = ⟨s.digits, 1 - digitCount s.digits⟩ := by
  have all : readDigits ((layout.scientific s).whole ++ (layout.scientific s).fraction)
      = s.digits := by
    unfold scientific
    dsimp only
    rw [List.take_append_drop]
    exact readDigits_digitsOf s.digits
  have positive := digitCount_pos s.digits
  rw [Literal.collected_of_fits all small]
  unfold scientific
  dsimp only
  rw [List.length_drop]
  simp only [Literal.Collected.mk.injEq, true_and]
  show -((digitCount s.digits - 1 : Nat) : ℤ) = 1 - digitCount s.digits
  omega

end Layout

/-! ## The shortest decimal of a double -/

/-- A magnitude that is the one of a double. -/
structure Binary.Magnitude.IsDouble (m : Magnitude) : Prop where
  mantissa_lt : m.mantissa < 2 ^ 53
  exponent_le : m.exponent ≤ 971

theorem two_zpow_le {e f : ℤ} (h : e ≤ f) : (2 : ℚ) ^ e ≤ 2 ^ f :=
  zpow_le_zpow_right₀ (by norm_num) h

/-- The shortest decimal of a double is less than `2 ^ 1024`. -/
theorem value_shortest_lt {m : Magnitude} (double : m.IsDouble) :
    (shortest m).value < 2 ^ (1024 : ℤ) := by
  have mantissa : (m.mantissa : ℚ) + 1 / 2 < 2 ^ (53 : ℤ) := by
    have : (m.mantissa : ℚ) + 1 ≤ 2 ^ (53 : ℤ) := by exact_mod_cast double.mantissa_lt
    linarith
  calc (shortest m).value ≤ (m.mantissa + 1 / 2) * 2 ^ m.exponent := (shortest_spec m).1
    _ < 2 ^ (53 : ℤ) * 2 ^ m.exponent := by gcongr
    _ ≤ 2 ^ (53 : ℤ) * 2 ^ (971 : ℤ) :=
        mul_le_mul_of_nonneg_left (two_zpow_le double.exponent_le) (by positivity)
    _ = 2 ^ (1024 : ℤ) := by rw [← zpow_add₀ (by norm_num)]; rfl

/-- The leading digit of a decimal below `2 ^ 1024` stands for a power of ten that is a double. -/
theorem leading_le {s : Scaled} (nonzero : s.digits ≠ 0) (small : s.value < 2 ^ (1024 : ℤ)) :
    Layout.leading s ≤ 308 := by
  have positive := digitCount_pos s.digits
  have digits : (10 : ℚ) ^ (digitCount s.digits - 1) ≤ s.digits := by
    exact_mod_cast ten_pow_digitCount_le (Nat.pos_of_ne_zero nonzero)
  have greatest : (2 : ℚ) ^ (1024 : ℤ) < 10 ^ (309 : ℤ) := by
    have : 2 ^ 1024 < 10 ^ 309 := by decide +kernel
    exact_mod_cast this
  have power : (10 : ℚ) ^ Layout.leading s < 10 ^ (309 : ℤ) := by
    have exponent : Layout.leading s = ((digitCount s.digits - 1 : Nat) : ℤ) + s.exponent := by
      unfold Layout.leading
      omega
    rw [exponent, zpow_add₀ (by norm_num), zpow_natCast]
    calc (10 : ℚ) ^ (digitCount s.digits - 1) * 10 ^ s.exponent ≤ s.value := by
          unfold Scaled.value
          gcongr
      _ < 10 ^ (309 : ℤ) := small.trans greatest
  have := (zpow_lt_zpow_iff_right₀ (by norm_num)).1 power
  omega

/-- Except for the greatest doubles, the shortest decimal stays below the greatest of them by more
than what scaling can add. -/
theorem value_shortest_le {m : Magnitude} (double : m.IsDouble)
    (notTop : ¬(m.exponent = 971 ∧ 2 ^ 53 - 16 ≤ m.mantissa)) :
    (shortest m).value ≤ (2 ^ 54 - 33) * 2 ^ (970 : ℤ) := by
  refine (shortest_spec m).1.trans ?_
  -- Below the last exponent half of the greatest double is not reached, whatever the mantissa.
  by_cases top : m.exponent = 971
  · have mantissa : (m.mantissa : ℚ) + 17 ≤ 2 ^ 53 := by
      have : m.mantissa + 17 ≤ 2 ^ 53 := by omega
      exact_mod_cast this
    have split : (2 : ℚ) ^ (971 : ℤ) = 2 * 2 ^ (970 : ℤ) := by
      rw [← zpow_one_add₀ (by norm_num)]
      rfl
    rw [top, split, ← mul_assoc]
    refine mul_le_mul_of_nonneg_right ?_ (zpow_nonneg (by norm_num) _)
    linarith
  · have mantissa : (m.mantissa : ℚ) + 1 ≤ 2 ^ 53 := by exact_mod_cast double.mantissa_lt
    have exponent : (2 : ℚ) ^ m.exponent ≤ 2 ^ (970 : ℤ) :=
      two_zpow_le (by have := double.exponent_le; omega)
    calc (m.mantissa + 1 / 2) * (2 : ℚ) ^ m.exponent
        ≤ (2 ^ 54 - 33) * 2 ^ m.exponent := by
          gcongr
          linarith
      _ ≤ (2 ^ 54 - 33) * 2 ^ (970 : ℤ) := mul_le_mul_of_nonneg_left exponent (by norm_num)

/-- Scaling the shortest decimal of one of the greatest doubles gives a finite number. -/
theorem isInf_top : ∀ i : Fin 16, ((shortest ⟨2 ^ 53 - 16 + i, 971⟩).digits.toUInt64.toFloat
    * Literal.powerOfTen (shortest ⟨2 ^ 53 - 16 + i, 971⟩).exponent.toNat).isInf = false := by
  decide +kernel

/-- Scaling the shortest decimal of a double gives a finite number. -/
theorem isInf_shortest {m : Magnitude} (double : m.IsDouble) (nonzero : (shortest m).digits ≠ 0)
    (nonneg : 0 ≤ (shortest m).exponent) :
    ((shortest m).digits.toUInt64.toFloat
      * Literal.powerOfTen (shortest m).exponent.toNat).isInf = false := by
  -- Next to the greatest double the bound does not tell a finite product from an infinite one.
  by_cases top : m.exponent = 971 ∧ 2 ^ 53 - 16 ≤ m.mantissa
  · obtain ⟨exponent, near⟩ := top
    have bounded := double.mantissa_lt
    have listed := isInf_top ⟨m.mantissa - (2 ^ 53 - 16), by omega⟩
    have same : (⟨2 ^ 53 - 16 + (m.mantissa - (2 ^ 53 - 16)), 971⟩ : Magnitude) = m := by
      rw [← exponent, Nat.add_sub_cancel' near]
    rw [← same]
    exact listed
  · have value := value_shortest_le double top
    have leading_small := leading_le nonzero (value_shortest_lt double)
    have positive := digitCount_pos (shortest m).digits
    have digits : (shortest m).digits < 2 ^ 64 :=
      Nat.lt_of_le_of_lt (shortest_spec m).2 (by decide)
    obtain ⟨n, exponent⟩ := Int.eq_ofNat_of_zero_le nonneg
    have exponent_small : n ≤ Literal.greatestPower := by
      unfold Layout.leading at leading_small
      have greatest : Literal.greatestPower = 308 := rfl
      omega
    have product : (shortest m).digits * 10 ^ n ≤ (2 ^ 54 - 33) * 2 ^ 970 := by
      unfold Scaled.value at value
      have mantissa : (2 : ℚ) ^ 54 - 33 = ((2 ^ 54 - 33 : Nat) : ℚ) := by norm_num
      have power : (2 : ℚ) ^ (970 : ℤ) = 2 ^ 970 := zpow_natCast 2 970
      rw [exponent, mantissa, power] at value
      exact_mod_cast value
    have small : 4 * ((shortest m).digits * 10 ^ n * (2 ^ 52 + 1) ^ 3) < 2 ^ 1182 := by
      have greatest : 4 * ((2 ^ 54 - 33) * 2 ^ 970 * (2 ^ 52 + 1) ^ 3) < 2 ^ 1182 := by
        decide +kernel
      refine Nat.lt_of_le_of_lt ?_ greatest
      exact Nat.mul_le_mul_left 4 (Nat.mul_le_mul_right _ product)
    rw [exponent, Int.toNat_natCast]
    exact isInf_mul (isUpTo_toFloat (Nat.pos_of_ne_zero nonzero) digits)
      (isUpTo_powerOfTen exponent_small) small

end ScriptHost.Decimal
