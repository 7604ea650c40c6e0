import ScriptHost.Proofs.Decimal.Covering
import ScriptHost.Proofs.Decimal.Parts

/-!
# Decimals that are scaled exactly

When the digits of a decimal and its power of ten are doubles themselves, scaling rounds once, and
the decimal is read as the double that it rounds to.

* `HasMagnitude` : a double is positive, and its mantissa has 53 bits.
* `HasMagnitude.mul`, `HasMagnitude.div` : products and quotients are rounded to the nearest double.
* `Scaled.IsExact` : the digits and the power of ten are doubles.
* `exists_scale?_of_isExact` : such a decimal is read as the double that it rounds to.
-/

namespace ScriptHost.Decimal

open Binary Float.Model Float.Model.UnpackedFloat

/-- A double is the positive one with a magnitude of 53 bits. -/
structure HasMagnitude (x : Float) (m : Magnitude) : Prop where
  normal : m.IsNormal
  parts : Binary.ofFloat x = .finite false m

/-! ## Results of operations -/

/-- What a number is rounded to is the magnitude that it rounds to. -/
theorem hasMagnitude_rounded {n : Nat} {e : ℤ} {accuracy : Accuracy} {q : ℚ}
    (bits : 52 ≤ n.log2) (low : -1074 ≤ e)
    (represents : Represents (.ofMantissaAndAccuracy n accuracy) (q / 2 ^ e)) {m : Magnitude}
    (normal : m.IsNormal) (high : m.exponent ≤ 971) (attracts : m.Attracts q) :
    HasMagnitude (Float.ofModel (Float.Model.pack
      (roundWithAccuracy Format.binary64 .positive n e accuracy))) m := by
  obtain ⟨result, positive, rounded, result_normal, result_attracts⟩ :=
    attracts_roundWithAccuracy bits low represents .positive
  cases result_attracts.unique result_normal normal attracts
  refine ⟨normal, ?_⟩
  rw [rounded]
  exact ofFloat_pack false normal high positive

section Operations

variable {x y : Float} {a b m : Magnitude}

theorem HasMagnitude.log2_eq (h : HasMagnitude x a) : a.mantissa.log2 = 52 := by
  obtain ⟨ge, lt, _⟩ := h.normal
  exact (Nat.log2_eq_iff (by omega)).2 ⟨ge, lt⟩

/-- A product is rounded to the nearest double. -/
theorem HasMagnitude.mul (hx : HasMagnitude x a) (hy : HasMagnitude y b)
    (low : -1074 ≤ a.exponent + b.exponent) (normal : m.IsNormal) (high : m.exponent ≤ 971)
    (attracts : m.Attracts (a.value * b.value)) : HasMagnitude (x * y) m := by
  obtain ⟨a_pos, x_eq⟩ := unpack_of_ofFloat hx.normal hx.parts
  obtain ⟨b_pos, y_eq⟩ := unpack_of_ofFloat hy.normal hy.parts
  have bits : 52 ≤ (a.mantissa * b.mantissa).log2 := by
    refine (Nat.le_log2 (Nat.mul_pos a_pos b_pos).ne').2 ?_
    exact Nat.le_trans hx.normal.mantissa_ge (Nat.le_mul_of_pos_right _ b_pos)
  have represents := represents_exact (a.mantissa * b.mantissa)
  have value : ((a.mantissa * b.mantissa : Nat) : ℚ)
      = a.value * b.value / 2 ^ (a.exponent + b.exponent) := by
    unfold Magnitude.value
    rw [zpow_add₀ (by norm_num)]
    push_cast
    field_simp
  rw [value] at represents
  show HasMagnitude (Float.ofModel (Float.Model.pack (UnpackedFloat.mul Format.binary64
    x.toModel.unpack y.toModel.unpack))) m
  rw [x_eq, y_eq]
  exact hasMagnitude_rounded bits low represents normal high attracts

/-- The mantissas of a quotient are divided with 53 more bits. -/
theorem divCore_eq (hx : HasMagnitude x a) (hy : HasMagnitude y b)
    (low : -1074 ≤ a.exponent - b.exponent - 53) :
    divCore Format.binary64 a.mantissa a.exponent b.mantissa b.exponent
      = (a.mantissa * 2 ^ 53 / b.mantissa, a.exponent - b.exponent - 53,
        accuracyOfFraction (a.mantissa * 2 ^ 53 % b.mantissa) b.mantissa) := by
  have target : Format.binary64.targetExponent
      (totalExponent a.mantissa a.exponent - totalExponent b.mantissa b.exponent)
        = a.exponent - b.exponent - 53 := by
    simp only [Format.targetExponent, totalExponent, Format.mantissaBits, Format.minExponent,
      hx.log2_eq, hy.log2_eq]
    norm_num
    omega
  have least : min (a.exponent - b.exponent) (a.exponent - b.exponent - 53)
      = a.exponent - b.exponent - 53 := by omega
  have shift : (a.exponent - b.exponent - (a.exponent - b.exponent - 53)).toNat = 53 := by omega
  unfold divCore
  dsimp only
  rw [target, least, shift, Nat.shiftLeft_eq]

/-- A quotient is rounded to the nearest double. -/
theorem HasMagnitude.div (hx : HasMagnitude x a) (hy : HasMagnitude y b)
    (low : -1074 ≤ a.exponent - b.exponent - 53) (normal : m.IsNormal) (high : m.exponent ≤ 971)
    (attracts : m.Attracts (a.value / b.value)) : HasMagnitude (x / y) m := by
  obtain ⟨a_pos, x_eq⟩ := unpack_of_ofFloat hx.normal hx.parts
  obtain ⟨b_pos, y_eq⟩ := unpack_of_ofFloat hy.normal hy.parts
  have quotient : 2 ^ 52 ≤ a.mantissa * 2 ^ 53 / b.mantissa := by
    rw [Nat.le_div_iff_mul_le b_pos]
    exact Nat.mul_le_mul hx.normal.mantissa_ge hy.normal.mantissa_lt.le
  have bits : 52 ≤ (a.mantissa * 2 ^ 53 / b.mantissa).log2 :=
    (Nat.le_log2 (by omega)).2 quotient
  have represents := represents_div (a.mantissa * 2 ^ 53) b_pos
  have value : ((a.mantissa * 2 ^ 53 : Nat) : ℚ) / b.mantissa
      = a.value / b.value / 2 ^ (a.exponent - b.exponent - 53) := by
    have divisor : (b.mantissa : ℚ) ≠ 0 := by exact_mod_cast b_pos.ne'
    unfold Magnitude.value
    rw [zpow_sub₀ (by norm_num), zpow_sub₀ (by norm_num)]
    push_cast
    field_simp
  rw [value] at represents
  show HasMagnitude (Float.ofModel (Float.Model.pack (UnpackedFloat.div Format.binary64
    x.toModel.unpack y.toModel.unpack))) m
  rw [x_eq, y_eq]
  unfold UnpackedFloat.div
  dsimp only
  rw [divCore_eq hx hy low]
  exact hasMagnitude_rounded bits low represents normal high attracts

end Operations

/-! ## Numbers that are doubles -/

/-- The magnitude with 53 bits that is `a * 2 ^ k`. -/
def Binary.Magnitude.widened (a k : Nat) : Magnitude :=
  ⟨a * 2 ^ (52 - a.log2), k - ((52 - a.log2 : Nat) : ℤ)⟩

theorem log2_le_of_lt {a : Nat} (bits : a < 2 ^ 53) : a.log2 ≤ 52 := by
  by_cases zero : a = 0
  · rw [zero]
    decide
  · exact Nat.le_of_lt_succ ((Nat.log2_lt zero).2 bits)

theorem isNormal_widened {a : Nat} (positive : 0 < a) (bits : a < 2 ^ 53) (k : Nat) :
    (Magnitude.widened a k).IsNormal := by
  have few := log2_le_of_lt bits
  have wide := log2_widened positive rfl
  have upper : a < 2 ^ (a.log2 + 1) := Nat.lt_log2_self
  refine ⟨(Nat.le_log2 ?_).1 wide, ?_, ?_⟩
  · exact Nat.mul_ne_zero positive.ne' (Nat.two_pow_pos _).ne'
  · show a * 2 ^ (52 - a.log2) < 2 ^ 53
    calc a * 2 ^ (52 - a.log2) < 2 ^ (a.log2 + 1) * 2 ^ (52 - a.log2) :=
          Nat.mul_lt_mul_of_pos_right upper (Nat.two_pow_pos _)
      _ = 2 ^ 53 := by
          rw [← Nat.pow_add]
          congr 1
          omega
  · show -1074 ≤ (k : ℤ) - ((52 - a.log2 : Nat) : ℤ)
    omega

theorem value_widened (a k : Nat) : (Magnitude.widened a k).value = a * 2 ^ k := by
  unfold Magnitude.widened Magnitude.value
  dsimp only
  rw [zpow_sub₀ (by norm_num), zpow_natCast, zpow_natCast]
  push_cast
  field_simp

/-- A word that is a double is converted to that. -/
theorem hasMagnitude_toFloat {n : Nat} (positive : 0 < n) (small : n < 2 ^ 64) {m : Magnitude}
    (normal : m.IsNormal) (high : m.exponent ≤ 971) (value : m.value = n) :
    HasMagnitude n.toUInt64.toFloat m := by
  generalize missing_eq : 52 - n.log2 = missing
  have bits := log2_widened positive missing_eq
  have represents := represents_exact (n * 2 ^ missing)
  have exponent : ((53 - missing : Nat) : ℤ) - 53 = -(missing : ℤ) := by omega
  have scaled : ((n * 2 ^ missing : Nat) : ℚ)
      = m.value / 2 ^ (((53 - missing : Nat) : ℤ) - 53) := by
    rw [value, exponent, zpow_neg, zpow_natCast, div_inv_eq_mul]
    push_cast
    rfl
  rw [scaled] at represents
  have attracts := Magnitude.attracts_value
    (Nat.lt_of_lt_of_le (Nat.two_pow_pos 52) normal.mantissa_ge)
  show HasMagnitude (Float.ofModel (Float.Model.pack
    (UnpackedFloat.ofUInt64 Format.binary64 n.toUInt64))) m
  rw [ofUInt64_eq positive small missing_eq]
  exact hasMagnitude_rounded bits (by omega) represents normal high attracts

/-- The powers of ten up to the twenty-second are doubles. -/
theorem hasMagnitude_powerOfTen {n : Nat} (small : n ≤ 22) :
    HasMagnitude (Literal.powerOfTen n) (Magnitude.widened (5 ^ n) n) := by
  have listed : ∀ n : Fin 23, 5 ^ n.val < 2 ^ 53 ∧ Binary.ofFloat (Literal.powerOfTen n)
      = .finite false (Magnitude.widened (5 ^ n.val) n.val) := by
    decide +kernel
  obtain ⟨bits, parts⟩ := listed ⟨n, Nat.lt_succ_of_le small⟩
  exact ⟨isNormal_widened (Nat.pow_pos (by decide)) bits n, parts⟩

theorem value_widened_five (n : Nat) : (Magnitude.widened (5 ^ n) n).value = 10 ^ n := by
  rw [value_widened]
  push_cast
  rw [← mul_pow]
  norm_num

/-! ## Scaling once -/

/-- The digits of a decimal and its power of ten are doubles. -/
def Scaled.IsExact (s : Scaled) : Prop :=
  (∃ a k, a < 2 ^ 53 ∧ s.digits = a * 2 ^ k) ∧ s.exponent.natAbs ≤ 22

theorem HasMagnitude.isInf {x : Float} {m : Magnitude} (h : HasMagnitude x m) :
    x.isInf = false := by
  obtain ⟨positive, x_eq⟩ := unpack_of_ofFloat h.normal h.parts
  show x.toModel.unpack.isInf = false
  rw [x_eq]
  rfl

/-- A number from `10 ^ -22` on does not round to a double with fewer than 53 bits. -/
theorem not_attracts_of_subnormal {m : Magnitude} {q : ℚ} (few : m.mantissa < 2 ^ 52)
    (least : m.exponent = -1074) (large : (10 : ℚ) ^ (-22 : ℤ) ≤ q) : ¬m.Attracts q := by
  intro h
  have mantissa : (m.mantissa : ℚ) + 1 / 2 ≤ 2 ^ (52 : ℤ) := by
    have : (m.mantissa : ℚ) + 1 ≤ 2 ^ 52 := by exact_mod_cast few
    norm_num at this ⊢
    linarith
  have tiny : (2 : ℚ) ^ (52 : ℤ) * 2 ^ (-1074 : ℤ) < 10 ^ (-22 : ℤ) := by
    have small : (2 : ℚ) ^ (-1022 : ℤ) ≤ 2 ^ (-80 : ℤ) := two_zpow_le (by decide)
    rw [← zpow_add₀ (by norm_num)]
    exact small.trans_lt (by norm_num)
  have high := h.high
  rw [least] at high
  have unit : (0 : ℚ) ≤ 2 ^ (-1074 : ℤ) := by positivity
  linarith [mul_le_mul_of_nonneg_right mantissa unit]

/-- A word that is a double is scaled by a power of ten that is a double to the double that the
product rounds to. -/
theorem exists_scale?_of_hasMagnitude {x : Float} {a m : Magnitude} (hx : HasMagnitude x a)
    (low : -52 ≤ a.exponent) (high : a.exponent ≤ 63) {e : ℤ} (small : e.natAbs ≤ 22)
    (normal : m.IsNormal) (top : m.exponent ≤ 971) (attracts : m.Attracts (a.value * 10 ^ e))
    (steps : Nat) : ∃ y, Literal.scale? x e steps = some y ∧ HasMagnitude y m := by
  have greatest : Literal.greatestPower = 308 := rfl
  have within : e.natAbs ≤ Literal.greatestPower := by omega
  have power := hasMagnitude_powerOfTen small
  have power_value := value_widened_five e.natAbs
  have power_low : -52 ≤ (Magnitude.widened (5 ^ e.natAbs) e.natAbs).exponent
      ∧ (Magnitude.widened (5 ^ e.natAbs) e.natAbs).exponent ≤ 22 := by
    unfold Magnitude.widened
    dsimp only
    omega
  unfold Literal.scale?
  rw [if_pos within]
  by_cases negative : e < 0
  · have quotient : a.value * 10 ^ e
        = a.value / (Magnitude.widened (5 ^ e.natAbs) e.natAbs).value := by
      rw [power_value, div_eq_mul_inv, ← zpow_natCast, ← zpow_neg]
      congr 2
      omega
    rw [quotient] at attracts
    rw [if_pos negative]
    exact ⟨_, rfl, hx.div power (by omega) normal top attracts⟩
  · have product : a.value * 10 ^ e
        = a.value * (Magnitude.widened (5 ^ e.natAbs) e.natAbs).value := by
      rw [power_value, ← zpow_natCast]
      congr 2
      omega
    rw [product] at attracts
    have result := hx.mul power (by omega) normal top attracts
    rw [if_neg negative]
    dsimp only
    rw [result.isInf]
    exact ⟨_, rfl, result⟩

/-- An exact decimal is scaled to the double that it rounds to. -/
theorem exists_scale?_of_isExact {s : Scaled} (exact : s.IsExact) (fits : s.digits < 2 ^ 64)
    {m : Magnitude} (positive : 0 < m.mantissa)
    (double : m.IsNormal ∧ m.exponent ≤ 971 ∨ m.mantissa < 2 ^ 52 ∧ m.exponent = -1074)
    (attracts : m.Attracts s.value) (steps : Nat) :
    ∃ y, Literal.scale? s.digits.toUInt64.toFloat s.exponent steps = some y
      ∧ HasMagnitude y m := by
  obtain ⟨⟨a, k, bits, word⟩, small⟩ := exact
  have nonzero := attracts.digits_ne_zero positive
  have a_pos : 0 < a := by
    refine Nat.pos_of_ne_zero fun zero => nonzero ?_
    rw [word, zero, Nat.zero_mul]
  have k_lt : k < 64 := by
    refine (Nat.pow_lt_pow_iff_right (Nat.one_lt_two)).1 (Nat.lt_of_le_of_lt ?_ fits)
    rw [word]
    exact Nat.le_mul_of_pos_left _ a_pos
  have exponent : -52 ≤ (Magnitude.widened a k).exponent
      ∧ (Magnitude.widened a k).exponent ≤ 63 := by
    unfold Magnitude.widened
    dsimp only
    omega
  have value : (Magnitude.widened a k).value = s.digits := by
    rw [value_widened, word]
    push_cast
    rfl
  have converted := hasMagnitude_toFloat (Nat.pos_of_ne_zero nonzero) fits
    (isNormal_widened a_pos bits k) (by omega) value
  obtain ⟨normal, top⟩ | ⟨few, least⟩ := double
  · unfold Scaled.value at attracts
    rw [← value] at attracts
    exact exists_scale?_of_hasMagnitude converted exponent.1 exponent.2 small normal top attracts
      steps
  · refine absurd attracts (not_attracts_of_subnormal few least ?_)
    have digit : (1 : ℚ) ≤ s.digits := by exact_mod_cast Nat.pos_of_ne_zero nonzero
    have power : (10 : ℚ) ^ (-22 : ℤ) ≤ 10 ^ s.exponent :=
      zpow_le_zpow_right₀ (by norm_num) (by omega)
    calc (10 : ℚ) ^ (-22 : ℤ) ≤ 10 ^ s.exponent := power
      _ ≤ s.digits * 10 ^ s.exponent := le_mul_of_one_le_left (by positivity) digit

end ScriptHost.Decimal
