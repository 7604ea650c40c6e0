import ScriptHost.Proofs.Decimal.Exact

/-!
# The decimal that is collected

A literal is read by collecting its digits in a word. For the literal of a decimal these are the
digits of the decimal, and the zero behind the point of a whole number.

* `Layout.gathered` : the decimal that is collected from the literal of a decimal.
* `Layout.scaled?_literal` : the literal of a decimal is read by scaling that once.
* `scaled?_shortest`, `isSome_scale?_gathered` : so is the one of a double, and that gives a double.
* `isExact_gathered` : doubles with up to 15 digits and a moderate exponent are read exactly.
-/

namespace ScriptHost.Decimal

open Binary

namespace Layout

/-! ## Collected decimals -/

/-- The decimal that is collected from digits with a point: a whole number has one more zero. -/
def pointed (s : Scaled) : Scaled :=
  if 0 ≤ s.exponent then ⟨s.digits * 10 ^ (s.exponent.toNat + 1), -1⟩ else s

/-- The decimal that is collected from the literal of a decimal. -/
def gathered (layout : Layout) (s : Scaled) : Scaled :=
  if s.digits = 0 then pointed ⟨0, 0⟩
  else if layout.lowest ≤ leading s ∧ leading s ≤ layout.highest then pointed s
  else s

theorem value_pointed (s : Scaled) : (pointed s).value = s.value := by
  unfold pointed
  split
  · next whole =>
    obtain ⟨n, exponent⟩ := Int.eq_ofNat_of_zero_le whole
    unfold Scaled.value
    dsimp only
    rw [exponent, Int.toNat_natCast, zpow_natCast, zpow_neg, zpow_one, pow_succ]
    push_cast
    field_simp
  · rfl

/-- What is collected is the same number. -/
theorem value_gathered (layout : Layout) (s : Scaled) : (layout.gathered s).value = s.value := by
  unfold gathered
  split
  · next zero =>
    rw [value_pointed]
    unfold Scaled.value
    rw [zero, Nat.cast_zero, zero_mul, zero_mul]
  · split
    · exact value_pointed s
    · rfl

theorem readDigits_append_zeros (cs : List Char) (count : Nat) :
    readDigits (cs ++ List.replicate count '0') = readDigits cs * 10 ^ count := by
  unfold readDigits
  rw [Nat.ofDigitChars_append, Nat.ofDigitChars_replicate_zero, Nat.mul_comm]

theorem readDigits_zeros_append (count : Nat) (cs : List Char) :
    readDigits (List.replicate count '0' ++ cs) = readDigits cs := by
  unfold readDigits
  rw [Nat.ofDigitChars_append, Nat.ofDigitChars_replicate_zero, Nat.mul_zero]

/-- The digits of the positional form, and how many of them stand behind the point. -/
theorem digits_positional (s : Scaled) :
    readDigits ((positional s).whole ++ (positional s).fraction) = (pointed s).digits
      ∧ -((positional s).fraction.length : ℤ) = (pointed s).exponent := by
  have count : (digitsOf s.digits).length = digitCount s.digits := rfl
  unfold positional pointed
  dsimp only
  split
  · next whole =>
    constructor
    · have zeros : List.replicate s.exponent.toNat '0' ++ ['0']
          = List.replicate (s.exponent.toNat + 1) '0' := List.replicate_succ'.symm
      rw [List.append_assoc, zeros, readDigits_append_zeros, readDigits_digitsOf]
    · rfl
  · next negative =>
    split
    · next short =>
      constructor
      · dsimp only
        rw [List.take_append_drop, readDigits_digitsOf]
      · dsimp only
        rw [List.length_drop]
        omega
    · next long =>
      constructor
      · show readDigits (List.replicate 1 '0'
          ++ (List.replicate ((-s.exponent).toNat - (digitsOf s.digits).length) '0'
            ++ digitsOf s.digits)) = s.digits
        rw [readDigits_zeros_append, readDigits_zeros_append, readDigits_digitsOf]
      · dsimp only
        rw [List.length_append, List.length_replicate]
        omega

theorem writtenExponent_positional (s : Scaled) : (positional s).writtenExponent = 0 := by
  unfold positional
  dsimp only
  split
  · rfl
  · split <;> rfl

/-- The positional form is read by scaling what is collected once. -/
theorem scaled?_positional {s : Scaled} (fits : (pointed s).digits < Literal.wordLimit) :
    (positional s).scaled? = Literal.scale? (pointed s).digits.toUInt64.toFloat
      (pointed s).exponent 4 := by
  obtain ⟨digits, exponent⟩ := digits_positional s
  unfold Literal.scaled?
  dsimp only
  rw [writtenExponent_positional, Literal.collected_of_fits digits fits, exponent, if_pos (by decide),
    add_zero]

/-- The literal of a decimal is read by scaling what is collected once, if its digits fit into a
word and its exponent is not beyond all limits. -/
theorem scaled?_literal {layout : Layout} {s : Scaled}
    (fits : (layout.gathered s).digits < Literal.wordLimit)
    (limit : (leading s).natAbs < Literal.exponentLimit) :
    (layout.literal s).scaled? = Literal.scale? (layout.gathered s).digits.toUInt64.toFloat
      (layout.gathered s).exponent 4 := by
  unfold gathered at fits ⊢
  unfold literal
  split at fits
  · next zero =>
    rw [if_pos zero, if_pos zero]
    exact scaled?_positional fits
  · next nonzero =>
    rw [if_neg nonzero, if_neg nonzero]
    split at fits
    · next inside =>
      rw [if_pos inside, if_pos inside]
      exact scaled?_positional fits
    · next outside =>
      have exponent : 1 - (digitCount s.digits : ℤ) + leading s = s.exponent := by
        unfold leading
        omega
      rw [if_neg outside, if_neg outside]
      unfold Literal.scaled?
      dsimp only
      rw [writtenExponent_scientific, collected_scientific layout fits, if_pos limit, exponent]

theorem exponent_pointed_neg (s : Scaled) : (pointed s).exponent < 0 := by
  unfold pointed
  split
  · show (-1 : ℤ) < 0
    decide
  · next negative => exact Int.not_le.1 negative

/-- A literal of a layout has a fraction or an exponent. -/
theorem isWhole_literal (layout : Layout) (s : Scaled) :
    ((layout.literal s).fraction.isEmpty && (layout.literal s).exponent?.isNone) = false := by
  have fraction (t : Scaled) : (positional t).fraction.isEmpty = false := by
    have behind := (digits_positional t).2
    have negative := exponent_pointed_neg t
    cases digits : (positional t).fraction with
    | nil =>
      rw [digits, List.length_nil] at behind
      omega
    | cons c cs => rfl
  unfold literal
  split
  · rw [fraction, Bool.false_and]
  · split
    · rw [fraction, Bool.false_and]
    · exact Bool.and_false _

end Layout

/-! ## Doubles -/

/-- A decimal is less than the power of ten above its leading digit. -/
theorem value_lt_leading (s : Scaled) : s.value < 10 ^ (Layout.leading s + 1) := by
  have digits : (s.digits : ℚ) < 10 ^ digitCount s.digits := by
    exact_mod_cast lt_ten_pow_digitCount s.digits
  have exponent : Layout.leading s + 1 = (digitCount s.digits : ℤ) + s.exponent := by
    unfold Layout.leading
    omega
  unfold Scaled.value
  rw [exponent, zpow_add₀ (by norm_num), zpow_natCast]
  exact mul_lt_mul_of_pos_right digits (by positivity)

/-- The leading digit of what rounds to a double stands for the least power of ten of a double or a
greater one. -/
theorem leading_ge {m : Magnitude} {s : Scaled} (positive : 0 < m.mantissa)
    (least : -1074 ≤ m.exponent) (attracts : m.Attracts s.value) : -324 ≤ Layout.leading s := by
  have one : (1 : ℚ) ≤ m.mantissa := by exact_mod_cast positive
  have margin := m.margin_le
  have half : (2 : ℚ) ^ (-1075 : ℤ) ≤ s.value := by
    calc (2 : ℚ) ^ (-1075 : ℤ) = 1 / 2 * 2 ^ (-1074 : ℤ) := by
          rw [show (-1075 : ℤ) = -1074 - 1 from rfl, zpow_sub_one₀ (by norm_num)]
          ring
      _ ≤ (m.mantissa - m.margin) * 2 ^ m.exponent :=
          mul_le_mul (by linarith) (two_zpow_le least) (by positivity) (by linarith)
      _ ≤ s.value := attracts.low positive
  have ten : (10 : ℚ) ^ (-324 : ℤ) < 2 ^ (-1075 : ℤ) := by
    have powers : (2 : ℚ) ^ 1075 < 10 ^ 324 := by
      have : 2 ^ 1075 < 10 ^ 324 := by decide +kernel
      exact_mod_cast this
    rw [zpow_neg, zpow_neg]
    exact inv_strictAnti₀ (by positivity) powers
  have power := (ten.trans_le half).trans (value_lt_leading s)
  have := (zpow_lt_zpow_iff_right₀ (by norm_num)).1 power
  omega

/-- The leading digit of the shortest decimal of a double. -/
theorem leading_shortest {m : Magnitude} (double : m.IsDouble) (least : -1074 ≤ m.exponent) :
    -324 ≤ Layout.leading (shortest m) ∧ Layout.leading (shortest m) ≤ 308 := by
  by_cases zero : m.mantissa = 0
  · unfold shortest
    rw [if_pos zero]
    decide
  · have positive := Nat.pos_of_ne_zero zero
    have attracts := attracts_shortest positive double.mantissa_lt
    have nonzero := attracts.digits_ne_zero positive
    exact ⟨leading_ge positive least attracts, leading_le nonzero (value_shortest_lt double)⟩

/-- The digits that are collected from the shortest decimal of a double fit into a word. -/
theorem digits_gathered_lt (m : Magnitude) {layout : Layout} (highest : layout.highest ≤ 15) :
    (layout.gathered (shortest m)).digits < Literal.wordLimit := by
  have few : (shortest m).digits < Literal.wordLimit :=
    Nat.lt_of_le_of_lt (shortest_spec m).2 (by decide)
  unfold Layout.gathered
  split
  · decide
  · split
    · next inside =>
      unfold Layout.pointed
      split
      · next whole =>
        obtain ⟨n, exponent⟩ := Int.eq_ofNat_of_zero_le whole
        have leading := inside.2.trans highest
        unfold Layout.leading at leading
        rw [exponent] at leading ⊢
        dsimp only
        rw [Int.toNat_natCast]
        calc (shortest m).digits * 10 ^ (n + 1)
            ≤ 10 ^ digitCount (shortest m).digits * 10 ^ (n + 1) :=
              Nat.mul_le_mul_right _ (lt_ten_pow_digitCount _).le
          _ = 10 ^ (digitCount (shortest m).digits + (n + 1)) := (Nat.pow_add _ _ _).symm
          _ ≤ 10 ^ 17 := Nat.pow_le_pow_right (by decide) (by omega)
          _ < Literal.wordLimit := by decide
      · exact few
    · exact few

/-- The literal of a double is read by scaling what is collected from it once. -/
theorem scaled?_shortest {m : Magnitude} (double : m.IsDouble) (least : -1074 ≤ m.exponent)
    {layout : Layout} (highest : layout.highest ≤ 15) :
    (layout.literal (shortest m)).scaled?
      = Literal.scale? (layout.gathered (shortest m)).digits.toUInt64.toFloat
        (layout.gathered (shortest m)).exponent 4 := by
  have limit : Literal.exponentLimit = 2147483648 := rfl
  have leading := leading_shortest double least
  exact Layout.scaled?_literal (digits_gathered_lt m highest) (by omega)

/-- Scaling what is collected from a double gives a double. -/
theorem isSome_scale?_gathered {m : Magnitude} (double : m.IsDouble) (least : -1074 ≤ m.exponent)
    (layout : Layout) :
    (Literal.scale? (layout.gathered (shortest m)).digits.toUInt64.toFloat
      (layout.gathered (shortest m)).exponent 4).isSome = true := by
  by_cases negative : (layout.gathered (shortest m)).exponent < 0
  · exact Literal.isSome_scale?_of_neg negative 4
  · -- All forms with a point but no exponent are scaled by dividing.
    have plain : layout.gathered (shortest m) = shortest m ∧ (shortest m).digits ≠ 0 := by
      unfold Layout.gathered at negative ⊢
      split at negative
      · exact absurd (Layout.exponent_pointed_neg _) negative
      · next nonzero =>
        split at negative
        · exact absurd (Layout.exponent_pointed_neg _) negative
        · next outside =>
          rw [if_neg nonzero, if_neg outside]
          exact ⟨rfl, nonzero⟩
    obtain ⟨same, nonzero⟩ := plain
    rw [same] at negative ⊢
    have product := isInf_shortest double nonzero (Int.not_lt.1 negative)
    obtain ⟨n, exponent⟩ := Int.eq_ofNat_of_zero_le (Int.not_lt.1 negative)
    have leading := (leading_shortest double least).2
    have digits := digitCount_pos (shortest m).digits
    have greatest : Literal.greatestPower = 308 := rfl
    unfold Layout.leading at leading
    rw [exponent] at leading product ⊢
    exact Literal.isSome_scale?_of_isInf (by omega) product 4

/-! ## Few digits -/

/-- A decimal of up to 15 digits is collected exactly if its exponent is moderate, unless it is
written in full with 16 digits in front of the point. -/
theorem isExact_gathered {layout : Layout} {s : Scaled} (few : s.digits < 10 ^ 15)
    (moderate : s.exponent.natAbs ≤ 22) (highest : layout.highest ≤ 15)
    (apart : Layout.leading s ≠ 15) : (layout.gathered s).IsExact := by
  have plain : s.IsExact :=
    ⟨⟨s.digits, 0, Nat.lt_trans few (by decide), (Nat.mul_one _).symm⟩, moderate⟩
  unfold Layout.gathered
  split
  · exact ⟨⟨0, 0, by decide, by decide⟩, by decide⟩
  · split
    · next inside =>
      unfold Layout.pointed
      split
      · next whole =>
        obtain ⟨n, exponent⟩ := Int.eq_ofNat_of_zero_le whole
        have leading : digitCount s.digits + n ≤ 15 := by
          have := inside.2.trans highest
          unfold Layout.leading at this apart
          omega
        refine ⟨⟨s.digits * 5 ^ (n + 1), n + 1, ?_, ?_⟩, by dsimp only; decide⟩
        · have full : s.digits * 10 ^ n < 10 ^ 15 := by
            calc s.digits * 10 ^ n < 10 ^ digitCount s.digits * 10 ^ n :=
                  Nat.mul_lt_mul_of_pos_right (lt_ten_pow_digitCount _) (Nat.pow_pos (by decide))
              _ = 10 ^ (digitCount s.digits + n) := (Nat.pow_add _ _ _).symm
              _ ≤ 10 ^ 15 := Nat.pow_le_pow_right (by decide) leading
          have fives : s.digits * 5 ^ n ≤ s.digits * 10 ^ n :=
            Nat.mul_le_mul_left _ (Nat.pow_le_pow_left (by decide) n)
          rw [Nat.pow_succ, ← Nat.mul_assoc]
          omega
        · dsimp only
          rw [exponent, Int.toNat_natCast, Nat.mul_assoc, ← Nat.mul_pow]
      · exact plain
    · exact plain

end ScriptHost.Decimal
