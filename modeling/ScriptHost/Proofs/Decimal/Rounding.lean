import Mathlib
import ScriptHost.Decimal.Literal

/-!
# Rounding of products

Operations on doubles round to 53 bits. A bound on a product that follows from bounds on its factors
therefore loses a little for each rounding; what is lost here is a whole unit in the last place.

* `roundWithAccuracy_spec` : what rounding gives, and by how much it may exceed the exact value.
* `IsUpTo` : a double is positive and not above a bound.
* `isUpTo_toFloat`, `isUpTo_powerOfTen` : words and powers of ten.
* `isInf_mul` : a product whose bound is small enough is finite.
-/

namespace ScriptHost.Decimal

open Float.Model Float.Model.UnpackedFloat

/-! ## Rounding a mantissa -/

theorem mantissa_shiftRight (extended : ExtendedMantissa) (count : Nat) :
    (extended >>> count).mantissa = extended.mantissa / 2 ^ count := by
  induction count with
  | zero => exact (Nat.div_one _).symm
  | succ count ih =>
    show (extended >>> count).mantissa / 2 = _
    rw [ih, Nat.div_div_eq_div_mul, Nat.pow_succ]

theorem mantissa_ofMantissaAndAccuracy (m : Nat) (accuracy : Accuracy) :
    (ExtendedMantissa.ofMantissaAndAccuracy m accuracy).mantissa = m := by
  cases accuracy with
  | exact => rfl
  | inexact half => cases half <;> rfl

/-- Rounding adds one to a mantissa at most. -/
theorem roundedMantissa_bounds (extended : ExtendedMantissa) :
    extended.mantissa ≤ extended.roundedMantissa
      ∧ extended.roundedMantissa ≤ extended.mantissa + 1 := by
  obtain ⟨mantissa, round, sticky⟩ := extended
  unfold ExtendedMantissa.roundedMantissa
  cases round <;> cases sticky <;>
    simp only [ExtendedMantissa.accuracy, Accuracy.roundToNearestEven] <;> omega

/-- A mantissa with 53 bits at least is shifted until it has 53. -/
theorem shiftToTargetExponent_eq {m : Nat} {e : Int} (bits : 52 ≤ m.log2) (low : -1074 ≤ e)
    (accuracy : Accuracy) :
    shiftToTargetExponent Format.binary64 m e accuracy
      = (ExtendedMantissa.ofMantissaAndAccuracy m accuracy >>> (m.log2 - 52),
        e + (m.log2 - 52 : Nat)) := by
  have target : Format.binary64.targetExponent (totalExponent m e)
      = e + (m.log2 - 52 : Nat) := by
    simp only [Format.targetExponent, totalExponent, Format.mantissaBits, Format.minExponent]
    norm_num
    omega
  have shift : (e + (m.log2 - 52 : Nat) - e).toNat = m.log2 - 52 := by omega
  unfold shiftToTargetExponent shiftToExponent
  dsimp only
  rw [target, shift]

/-- What is left of a mantissa has 53 bits. -/
theorem shifted_bounds {m : Nat} (bits : 52 ≤ m.log2) :
    2 ^ 52 ≤ m / 2 ^ (m.log2 - 52) ∧ m / 2 ^ (m.log2 - 52) < 2 ^ 53 := by
  have positive : m ≠ 0 := by
    rintro rfl
    exact absurd bits (by decide)
  have split : 2 ^ 52 * 2 ^ (m.log2 - 52) = 2 ^ m.log2 := by
    rw [← Nat.pow_add, Nat.add_sub_cancel' bits]
  constructor
  · rw [Nat.le_div_iff_mul_le (Nat.two_pow_pos _), split]
    exact Nat.log2_self_le positive
  · rw [Nat.div_lt_iff_lt_mul (Nat.two_pow_pos _), Nat.pow_succ, Nat.mul_right_comm, split]
    exact Nat.lt_log2_self

/-- A mantissa with 53 bits at least is shifted until it has 53 and rounded; when that gives a 54th
bit, it is shifted once more. -/
theorem roundWithAccuracy_eq {m : Nat} {e : Int} (bits : 52 ≤ m.log2) (low : -1074 ≤ e)
    (accuracy : Accuracy) (sign : Sign) {extended : ExtendedMantissa} {t : Int}
    (shifted : ExtendedMantissa.ofMantissaAndAccuracy m accuracy >>> (m.log2 - 52) = extended)
    (exponent : e + (m.log2 - 52 : Nat) = t) :
    ∃ left carry positive,
      roundWithAccuracy Format.binary64 sign m e accuracy
          = .finite sign left (t + (carry : Nat)) positive
        ∧ 2 ^ 52 ≤ left ∧ left < 2 ^ 53
        ∧ (left = extended.roundedMantissa ∧ carry = 0
          ∨ left = 2 ^ 52 ∧ carry = 1 ∧ extended.roundedMantissa = 2 ^ 53) := by
  obtain ⟨normal_ge, normal_lt⟩ := shifted_bounds bits
  have first := shiftToTargetExponent_eq bits low accuracy
  rw [shifted, exponent] at first
  obtain ⟨rounded_ge, rounded_le⟩ := roundedMantissa_bounds extended
  rw [← shifted, mantissa_shiftRight, mantissa_ofMantissaAndAccuracy, shifted]
    at rounded_ge rounded_le
  generalize rounded_eq : extended.roundedMantissa = r at rounded_ge rounded_le ⊢
  have rounded_bits : 52 ≤ r.log2 := (Nat.le_log2 (by omega)).2 (Nat.le_trans normal_ge rounded_ge)
  have second := shiftToTargetExponent_eq rounded_bits (e := t) (by omega) .exact
  obtain ⟨left_ge, left_lt⟩ := shifted_bounds rounded_bits
  have positive : 0 < r / 2 ^ (r.log2 - 52) := Nat.lt_of_lt_of_le (Nat.two_pow_pos 52) left_ge
  refine ⟨_, r.log2 - 52, positive, ?_, left_ge, left_lt, ?_⟩
  · unfold roundWithAccuracy
    simp only [first, rounded_eq, second, mantissa_shiftRight, mantissa_ofMantissaAndAccuracy]
    rw [dif_neg positive.ne']
  · by_cases carried : r = 2 ^ 53
    · right
      rw [carried, Nat.log2_two_pow]
      exact ⟨by decide, rfl, rfl⟩
    · left
      have bits_eq : r.log2 = 52 := (Nat.log2_eq_iff (by omega)).2 ⟨by omega, by omega⟩
      rw [bits_eq]
      exact ⟨Nat.div_one r, rfl⟩

/-- A mantissa with 53 bits at least is rounded to 53 bits. The number that is left exceeds the one
given by no more than one part in `2 ^ 52`. -/
theorem roundWithAccuracy_spec {m : Nat} {e : Int} (bits : 52 ≤ m.log2) (low : -1074 ≤ e)
    (sign : Sign) :
    ∃ left shift positive,
      roundWithAccuracy Format.binary64 sign m e .exact
          = .finite sign left (e + (shift : Nat)) positive
        ∧ 2 ^ 52 ≤ left ∧ left < 2 ^ 53 ∧ left * 2 ^ shift * 2 ^ 52 ≤ m * (2 ^ 52 + 1) := by
  obtain ⟨normal, _⟩ := shifted_bounds bits
  obtain ⟨left, carry, positive, result, ge, lt, form⟩ :=
    roundWithAccuracy_eq bits low .exact sign rfl rfl
  obtain ⟨_, rounded_le⟩ := roundedMantissa_bounds
    (ExtendedMantissa.ofMantissaAndAccuracy m .exact >>> (m.log2 - 52))
  rw [mantissa_shiftRight, mantissa_ofMantissaAndAccuracy] at rounded_le
  generalize m.log2 - 52 = shift at normal result form rounded_le
  have left_le : left * 2 ^ carry ≤ m / 2 ^ shift + 1 := by
    obtain ⟨same, rfl⟩ | ⟨rfl, rfl, carried⟩ := form
    · rw [pow_zero, Nat.mul_one, same]
      exact rounded_le
    · rw [carried] at rounded_le
      exact rounded_le
  have sum : e + (shift : Int) + carry = e + (shift + carry : Nat) := by omega
  have normal_mul : 2 ^ 52 * 2 ^ shift ≤ m := Nat.mul_le_of_le_div _ _ _ normal
  have whole : m / 2 ^ shift * 2 ^ shift ≤ m := Nat.div_mul_le_self m (2 ^ shift)
  refine ⟨left, shift + carry, positive, ?_, ge, lt, ?_⟩
  · rw [result, sum]
  · calc left * 2 ^ (shift + carry) * 2 ^ 52
        = left * 2 ^ carry * 2 ^ shift * 2 ^ 52 := by ring
      _ ≤ (m / 2 ^ shift + 1) * 2 ^ shift * 2 ^ 52 := by gcongr
      _ = m / 2 ^ shift * 2 ^ shift * 2 ^ 52 + 2 ^ 52 * 2 ^ shift := by ring
      _ ≤ m * 2 ^ 52 + m := by gcongr
      _ = m * (2 ^ 52 + 1) := by ring

/-! ## The bits of a double -/

/-- The fields of a double with a mantissa of 53 bits: the exponent is counted from 1075 below zero,
and the first bit of the mantissa is left out. -/
theorem pack_eq {m biased : Nat} {e : Int} (sign : Sign) (positive : 0 < m) (bits : m.log2 = 52)
    (field : (biased : Int) = e + 1075) (high : e ≤ 971) :
    UnpackedFloat.pack Format.binary64 (.finite sign m e positive)
      = packComponents Format.binary64 sign (BitVec.ofNat 11 biased) (BitVec.ofNat 52 m) := by
  have sum : (e + (Format.binary64.exponentBias : Int)
      + (Format.binary64.mantissaBitsWithoutImplicit : Int)).toNat = biased := by
    show (e + 1023 + 52).toNat = biased
    omega
  unfold UnpackedFloat.pack
  dsimp only
  rw [sum, bits, if_neg, if_pos (show 52 + 1 = Format.binary64.mantissaBits from rfl)]
  show ¬2 ^ 11 ≤ biased + 1
  omega

/-- The mantissa with its first bit put back. -/
theorem toNat_append_mantissa {m : Nat} (ge : 2 ^ 52 ≤ m) (lt : m < 2 ^ 53) :
    (1#1 ++ BitVec.ofNat 52 m).toNat = m := by
  have rest : m % 2 ^ 52 = m - 2 ^ 52 := by omega
  rw [BitVec.toNat_append, BitVec.toNat_ofNat, BitVec.toNat_ofNat, rest,
    ← Nat.shiftLeft_add_eq_or_of_lt (by omega), Nat.shiftLeft_eq]
  omega

/-- A mantissa of 53 bits comes back from the bits of a double, if its exponent fits. -/
theorem unpack_pack {m : Nat} {e : Int} (positive : 0 < m) (ge : 2 ^ 52 ≤ m) (lt : m < 2 ^ 53)
    (low : -1074 ≤ e) (high : e ≤ 971) :
    (Float.Model.pack (.finite .positive m e positive)).unpack
      = .finite .positive m e positive := by
  have bits : m.log2 = 52 := (Nat.log2_eq_iff (by omega)).2 ⟨ge, lt⟩
  obtain ⟨biased, field⟩ : ∃ biased : Nat, (biased : Int) = e + 1075 :=
    ⟨(e + 1075).toNat, by omega⟩
  have value : (BitVec.ofNat 11 biased).toNat = biased := by
    rw [BitVec.toNat_ofNat, Nat.mod_eq_of_lt (by omega)]
  -- The two exponents with a meaning of their own are not those of a number with 53 bits.
  have not_ones : BitVec.ofNat 11 biased ≠ -1#11 := by
    intro h
    rw [h] at value
    change 2047 = biased at value
    omega
  have not_zero : BitVec.ofNat 11 biased ≠ 0#11 := by
    intro h
    rw [h] at value
    change 0 = biased at value
    omega
  have exponent : ((BitVec.ofNat 11 biased).toNat : Int)
      - ((Format.binary64.exponentBias : Int) + Format.binary64.mantissaBitsWithoutImplicit)
        = e := by
    rw [value]
    show (biased : Int) - (1023 + 52) = e
    omega
  unfold Float.Model.unpack Float.Model.pack
  simp only [pack_eq .positive positive bits field high]
  unfold UnpackedFloat.unpack
  simp only [unpackMantissa_packComponents, unpackExponent_packComponents,
    unpackSign_packComponents]
  rw [if_neg not_ones, if_neg not_zero]
  simp only [toNat_append_mantissa ge lt, exponent]
  rfl

/-! ## Bounds on doubles -/

/-- A double is a positive number with a mantissa of 53 bits, and exceeds a natural number by one
part in `2 ^ 52` at most. -/
def IsUpTo (x : Float) (bound : Nat) : Prop :=
  match x.toModel.unpack with
  | .finite .positive m e _ =>
    2 ^ 52 ≤ m ∧ m < 2 ^ 53 ∧ -53 ≤ e ∧ m * 2 ^ (e + 53).toNat ≤ 2 * bound * (2 ^ 52 + 1)
  | _ => False

instance (x : Float) (bound : Nat) : Decidable (IsUpTo x bound) := by
  unfold IsUpTo
  split <;> infer_instance

theorem isUpTo_iff {x : Float} {bound : Nat} :
    IsUpTo x bound ↔ ∃ (m shift : Nat) (positive : 0 < m),
      x.toModel.unpack = .finite .positive m ((shift : Int) - 53) positive
        ∧ 2 ^ 52 ≤ m ∧ m < 2 ^ 53 ∧ m * 2 ^ shift ≤ 2 * bound * (2 ^ 52 + 1) := by
  constructor
  · intro h
    unfold IsUpTo at h
    split at h
    · next m e positive parts =>
      obtain ⟨ge, lt, low, bounded⟩ := h
      refine ⟨m, (e + 53).toNat, positive, ?_, ge, lt, bounded⟩
      rw [parts]
      congr 1
      omega
    · exact h.elim
  · rintro ⟨m, shift, positive, parts, ge, lt, bounded⟩
    unfold IsUpTo
    rw [parts]
    have back : ((shift : Int) - 53 + 53).toNat = shift := by omega
    exact ⟨ge, lt, by omega, by rwa [back]⟩

/-- What a natural number is rounded to. -/
theorem isUpTo_pack {m shift bound : Nat} (bits : 52 ≤ m.log2)
    (value : m * 2 ^ shift = bound * 2 ^ 53) (small : 2 * bound * (2 ^ 52 + 1) < 2 ^ 1077) :
    IsUpTo (Float.ofModel (Float.Model.pack
      (roundWithAccuracy Format.binary64 .positive m ((shift : Int) - 53) .exact))) bound := by
  obtain ⟨left, more, positive, rounded, ge, lt, bounded⟩ :=
    roundWithAccuracy_spec (e := (shift : Int) - 53) bits (by omega) .positive
  have total : left * 2 ^ (shift + more) ≤ 2 * bound * (2 ^ 52 + 1) := by
    refine Nat.le_of_mul_le_mul_right ?_ (Nat.two_pow_pos 52)
    calc left * 2 ^ (shift + more) * 2 ^ 52
        = left * 2 ^ more * 2 ^ 52 * 2 ^ shift := by ring
      _ ≤ m * (2 ^ 52 + 1) * 2 ^ shift := by gcongr
      _ = m * 2 ^ shift * (2 ^ 52 + 1) := by ring
      _ = 2 * bound * (2 ^ 52 + 1) * 2 ^ 52 := by rw [value]; ring
  have fits : shift + more < 1025 := by
    have scaled : 2 ^ (52 + (shift + more)) < 2 ^ 1077 := by
      rw [Nat.pow_add]
      exact Nat.lt_of_le_of_lt (Nat.mul_le_mul_right _ ge) (Nat.lt_of_le_of_lt total small)
    have := (Nat.pow_lt_pow_iff_right (by decide)).1 scaled
    omega
  -- The exponent is small enough for the bits of a double, so that nothing overflows.
  refine isUpTo_iff.2 ⟨left, shift + more, positive, ?_, ge, lt, total⟩
  show (Float.Model.pack _).unpack = _
  rw [rounded, unpack_pack positive ge lt (by omega) (by omega)]
  congr 1
  omega

/-- A number is widened to 53 bits at least. -/
theorem log2_widened {n missing : Nat} (positive : 0 < n) (missing_eq : 52 - n.log2 = missing) :
    52 ≤ (n * 2 ^ missing).log2 := by
  have scaled : 2 ^ n.log2 * 2 ^ missing ≤ n * 2 ^ missing :=
    Nat.mul_le_mul_right _ (Nat.log2_self_le (by omega))
  rw [← Nat.pow_add] at scaled
  have whole : 2 ^ 52 ≤ 2 ^ (n.log2 + missing) := Nat.pow_le_pow_right (by decide) (by omega)
  refine (Nat.le_log2 ?_).2 (Nat.le_trans whole scaled)
  exact Nat.mul_ne_zero (by omega) (Nat.two_pow_pos _).ne'

/-- A natural number of 64 bits is widened to 53 bits at least, and rounded. -/
theorem ofUInt64_eq {n : Nat} (positive : 0 < n) (small : n < 2 ^ 64) {missing : Nat}
    (missing_eq : 52 - n.log2 = missing) :
    UnpackedFloat.ofUInt64 Format.binary64 n.toUInt64
      = roundWithAccuracy Format.binary64 .positive (n * 2 ^ missing)
        (((53 - missing : Nat) : Int) - 53) .exact := by
  have value : n.toUInt64.toNat = n := UInt64.toNat_ofNat_of_lt small
  have sign : compare (n : Int) 0 = .gt := by
    rw [Int.compare_eq_gt]
    omega
  have target : Format.binary64.targetExponent (totalExponent n 0) = (n.log2 : Int) - 52 := by
    simp only [Format.targetExponent, totalExponent, Format.mantissaBits, Format.minExponent]
    norm_num
    omega
  have amount : (0 - ((n.log2 : Int) - 52)).toNat = missing := by omega
  unfold UnpackedFloat.ofUInt64 UnpackedFloat.ofNat UnpackedFloat.ofInt UnpackedFloat.normalize
  rw [value, sign]
  unfold UnpackedFloat.round decreaseExponent
  dsimp only
  rw [Int.toNat_natCast, target, amount, Nat.shiftLeft_eq]
  congr 1
  omega

/-- A natural number of 64 bits as a double. -/
theorem isUpTo_toFloat {n : Nat} (positive : 0 < n) (small : n < 2 ^ 64) :
    IsUpTo n.toUInt64.toFloat n := by
  generalize missing_eq : 52 - n.log2 = missing
  have bits := log2_widened positive missing_eq
  have exact_value : n * 2 ^ missing * 2 ^ (53 - missing) = n * 2 ^ 53 := by
    rw [Nat.mul_assoc, ← Nat.pow_add, Nat.add_sub_cancel' (by omega)]
  have bounded : 2 * n * (2 ^ 52 + 1) < 2 ^ 1077 := by
    have below : 2 * n * (2 ^ 52 + 1) < 2 ^ 118 := by omega
    have wide : 118 ≤ 1077 := by decide
    exact Nat.lt_of_lt_of_le below (pow_le_pow_right₀ one_le_two wide)
  have packed := isUpTo_pack bits exact_value bounded
  rw [← ofUInt64_eq positive small missing_eq] at packed
  exact packed

/-- A power of ten is a product that is rounded. -/
theorem ofScientific_one {n : Nat} (small : n ≤ Literal.greatestPower) :
    UnpackedFloat.ofScientific Format.binary64 1 n
      = roundWithAccuracy Format.binary64 .positive (2 ^ 53 * 10 ^ n) (((0 : Nat) : Int) - 53)
        .exact := by
  have bounded : n ≤ 308 := small
  unfold UnpackedFloat.ofScientific
  rw [dif_neg one_ne_zero, if_neg ?_, if_neg ?_, if_pos (Int.natCast_nonneg n)]
  · show roundWithAccuracy Format.binary64 .positive (1 <<< 53 * 10 ^ (n : Int).toNat) (-53 + 0)
      .exact = _
    rw [Int.toNat_natCast]
    rfl
  · show ¬(n : Int) < -(2 ^ 11 + ((Nat.log2 1 : Nat) : Int))
    omega
  · show ¬(n : Int) > 2 ^ 11
    omega

/-- A power of ten as a double. -/
theorem isUpTo_powerOfTen {n : Nat} (small : n ≤ Literal.greatestPower) :
    IsUpTo (Literal.powerOfTen n) (10 ^ n) := by
  -- Powers that are doubles themselves stand in a table, and all others are rounded.
  by_cases table : n ≤ 22
  · have listed : ∀ n : Fin 23, IsUpTo (Literal.powerOfTen n) (10 ^ n.val) := by decide +kernel
    exact listed ⟨n, Nat.lt_succ_of_le table⟩
  · have bits : 52 ≤ (2 ^ 53 * 10 ^ n).log2 := by
      refine (Nat.le_log2 (by positivity)).2 ?_
      exact Nat.le_trans (by decide) (Nat.le_mul_of_pos_right _ (by positivity))
    have exact_value : 2 ^ 53 * 10 ^ n * 2 ^ 0 = 10 ^ n * 2 ^ 53 := by ring
    have bounded : 2 * 10 ^ n * (2 ^ 52 + 1) < 2 ^ 1077 := by
      have greatest : 2 * 10 ^ 308 * (2 ^ 52 + 1) < 2 ^ 1077 := by decide +kernel
      refine Nat.lt_of_le_of_lt ?_ greatest
      have : 10 ^ n ≤ 10 ^ 308 := pow_le_pow_right₀ (by decide) small
      gcongr
    have packed := isUpTo_pack bits exact_value bounded
    rw [← ofScientific_one small] at packed
    unfold Literal.powerOfTen Float.ofScientific
    rw [dif_neg (by omega)]
    exact packed

/-- A product of doubles is finite, if the product of their bounds is small enough for three
roundings. -/
theorem isInf_mul {x y : Float} {a b : Nat} (hx : IsUpTo x a) (hy : IsUpTo y b)
    (small : 4 * (a * b * (2 ^ 52 + 1) ^ 3) < 2 ^ 1182) : (x * y).isInf = false := by
  obtain ⟨m, i, m_pos, x_eq, m_ge, m_lt, m_le⟩ := isUpTo_iff.1 hx
  obtain ⟨n, j, n_pos, y_eq, n_ge, n_lt, n_le⟩ := isUpTo_iff.1 hy
  have bits : 52 ≤ (m * n).log2 := by
    refine (Nat.le_log2 (Nat.mul_pos m_pos n_pos).ne').2 ?_
    exact Nat.le_trans m_ge (Nat.le_mul_of_pos_right m n_pos)
  obtain ⟨left, shift, positive, rounded, ge, lt, bounded⟩ :=
    roundWithAccuracy_spec (e := (i : Int) - 53 + (j - 53)) bits (by omega) .positive
  have product : UnpackedFloat.mul Format.binary64 x.toModel.unpack y.toModel.unpack
      = .finite .positive left ((i : Int) - 53 + (j - 53) + shift) positive := by
    rw [x_eq, y_eq]
    exact rounded
  -- Both factors and the product are each above the exact value by one rounding.
  have fits : i + j + shift < 1078 := by
    have total : left * 2 ^ (i + j + shift) * 2 ^ 52 ≤ 4 * (a * b * (2 ^ 52 + 1) ^ 3) := by
      calc left * 2 ^ (i + j + shift) * 2 ^ 52
          = left * 2 ^ shift * 2 ^ 52 * (2 ^ i * 2 ^ j) := by ring
        _ ≤ m * n * (2 ^ 52 + 1) * (2 ^ i * 2 ^ j) := by gcongr
        _ = m * 2 ^ i * (n * 2 ^ j) * (2 ^ 52 + 1) := by ring
        _ ≤ 2 * a * (2 ^ 52 + 1) * (2 * b * (2 ^ 52 + 1)) * (2 ^ 52 + 1) := by gcongr
        _ = 4 * (a * b * (2 ^ 52 + 1) ^ 3) := by ring
    have scaled : 2 ^ (52 + (i + j + shift) + 52) < 2 ^ 1182 := by
      rw [Nat.pow_add, Nat.pow_add]
      refine Nat.lt_of_le_of_lt ?_ small
      exact Nat.le_trans (Nat.mul_le_mul_right _ (Nat.mul_le_mul_right _ ge)) total
    have := (Nat.pow_lt_pow_iff_right (by decide)).1 scaled
    omega
  show (Float.Model.pack (UnpackedFloat.mul Format.binary64 x.toModel.unpack
    y.toModel.unpack)).unpack.isInf = false
  rw [product, unpack_pack positive ge lt (by omega) (by omega)]
  rfl

end ScriptHost.Decimal
