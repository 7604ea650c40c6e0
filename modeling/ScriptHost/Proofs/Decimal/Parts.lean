import ScriptHost.Decimal.Binary
import ScriptHost.Proofs.Decimal.Nearest
import ScriptHost.Proofs.Decimal.Scaling

/-!
# The parts of a double

* `exists_ofFloat`, `isNormal_or_of_ofFloat` : the parts of a finite double.
* `ofFloat_injective` : a finite double is determined by its parts.
* `ofFloat_pack` : the parts of a double that is the result of an operation.
* `unpack_of_ofFloat`, `ofFloat_neg` : what operations see of a double, and its negative.
-/

namespace ScriptHost.Decimal

open Binary Float.Model Float.Model.UnpackedFloat

/-- The sign of a number. -/
def signOf (negative : Bool) : Sign := if negative then .negative else .positive

/-! ## From the bits -/

/-- A finite double has a mantissa of 53 bits, or fewer bits and the least exponent. -/
theorem isNormal_or_of_ofFloat {x : Float} {negative : Bool} {m : Magnitude}
    (h : Binary.ofFloat x = .finite negative m) :
    m.IsNormal ∧ m.exponent ≤ 971 ∨ m.mantissa < 2 ^ 52 ∧ m.exponent = -1074 := by
  have fraction : x.toBits.toNat % Nat.pow 2 52 < 2 ^ 52 := Nat.mod_lt _ (by decide)
  have field : x.toBits.toNat / Nat.pow 2 52 % Nat.pow 2 11 < 2048 := Nat.mod_lt _ (by decide)
  unfold Binary.ofFloat Binary.ofBits at h
  dsimp only at h
  split at h
  · split at h <;> cases h
  · next not_ones =>
    split at h
    · cases h
      exact .inr ⟨fraction, rfl⟩
    · cases h
      left
      refine ⟨⟨Nat.le_add_right _ _, ?_, ?_⟩, ?_⟩
      · show 2 ^ 52 + x.toBits.toNat % Nat.pow 2 52 < 2 ^ 53
        omega
      · show -1074 ≤ ((x.toBits.toNat / Nat.pow 2 52 % Nat.pow 2 11 : Nat) : ℤ) - 1075
        omega
      · show ((x.toBits.toNat / Nat.pow 2 52 % Nat.pow 2 11 : Nat) : ℤ) - 1075 ≤ 971
        omega

/-- The magnitude of a double has the mantissa and the exponent of one. -/
theorem isDouble_of_ofFloat {x : Float} {negative : Bool} {m : Magnitude}
    (h : Binary.ofFloat x = .finite negative m) : m.IsDouble := by
  obtain ⟨normal, high⟩ | ⟨few, least⟩ := isNormal_or_of_ofFloat h
  · exact ⟨normal.mantissa_lt, high⟩
  · exact ⟨by omega, by omega⟩

theorem exponent_ge_of_ofFloat {x : Float} {negative : Bool} {m : Magnitude}
    (h : Binary.ofFloat x = .finite negative m) : -1074 ≤ m.exponent := by
  obtain ⟨normal, _⟩ | ⟨_, least⟩ := isNormal_or_of_ofFloat h
  · exact normal.exponent_ge
  · exact least.ge

/-- A finite double has a magnitude. -/
theorem exists_ofFloat {x : Float} (finite : x.isFinite = true) :
    ∃ negative m, Binary.ofFloat x = .finite negative m := by
  unfold Binary.ofFloat Binary.ofBits
  dsimp only
  split
  · next field =>
    have ones : @unpackExponent Format.binary64 x.toBits.toBitVec = -1#11 := by
      apply BitVec.eq_of_toNat_eq
      rw [show (-1#11).toNat = 2047 from rfl, ← field]
      unfold unpackExponent
      rw [BitVec.toNat_cast, BitVec.extractLsb_toNat, Nat.shiftRight_eq_div_pow]
      rfl
    change (UnpackedFloat.unpack Format.binary64 x.toBits.toBitVec).isFinite = true at finite
    unfold UnpackedFloat.unpack at finite
    dsimp only at finite
    rw [if_pos ones] at finite
    split at finite <;> cases finite
  · split
    · exact ⟨_, _, rfl⟩
    · exact ⟨_, _, rfl⟩

/-- The bits of a double from its fields. -/
theorem toNat_packComponents (negative : Bool) {field fraction : Nat} (field_lt : field < 2 ^ 11)
    (fraction_lt : fraction < 2 ^ 52) :
    (packComponents Format.binary64 (signOf negative) (BitVec.ofNat 11 field)
      (BitVec.ofNat 52 fraction)).toNat
      = (if negative then 2 ^ 63 else 0) + field * 2 ^ 52 + fraction := by
  unfold packComponents
  rw [BitVec.toNat_append, BitVec.toNat_append, BitVec.toNat_ofNat, BitVec.toNat_ofNat,
    Nat.mod_eq_of_lt field_lt, Nat.mod_eq_of_lt fraction_lt,
    ← Nat.shiftLeft_add_eq_or_of_lt fraction_lt, ← Nat.shiftLeft_add_eq_or_of_lt field_lt,
    Nat.shiftLeft_eq, Nat.shiftLeft_eq]
  cases negative with
  | false => 
    show (0 * 2 ^ 11 + field) * 2 ^ 52 + fraction = 0 + field * 2 ^ 52 + fraction
    omega
  | true =>
    show (1 * 2 ^ 11 + field) * 2 ^ 52 + fraction = 2 ^ 63 + field * 2 ^ 52 + fraction
    omega

/-- The bits of a finite double from its parts. -/
theorem eq_of_ofBits {bits : Nat} {negative : Bool} {m : Magnitude} (lt : bits < 2 ^ 64)
    (h : Binary.ofBits bits = .finite negative m) :
    bits = (if negative then 2 ^ 63 else 0) + (m.exponent + 1074).toNat * 2 ^ 52 + m.mantissa := by
  -- The sign, the field of the exponent and the fraction, one after the other.
  have fields : bits = (if decide (2 ^ 63 ≤ bits) then 2 ^ 63 else 0)
      + bits / 2 ^ 52 % 2 ^ 11 * 2 ^ 52 + bits % 2 ^ 52 := by
    by_cases negative : 2 ^ 63 ≤ bits
    · rw [decide_eq_true negative, if_pos rfl]
      omega
    · rw [decide_eq_false negative, if_neg Bool.false_ne_true]
      omega
  unfold Binary.ofBits at h
  dsimp only [Nat.pow_eq] at h
  split at h
  · split at h <;> cases h
  · split at h
    · next zero =>
      cases h
      rw [zero] at fields
      exact fields
    · next nonzero =>
      injection h with negative_eq magnitude_eq
      have mantissa : 2 ^ 52 + bits % 2 ^ 52 = m.mantissa :=
        congrArg Magnitude.mantissa magnitude_eq
      have exponent : ((bits / 2 ^ 52 % 2 ^ 11 : Nat) : ℤ) - 1075 = m.exponent :=
        congrArg Magnitude.exponent magnitude_eq
      rw [negative_eq] at fields
      generalize (if negative = true then 2 ^ 63 else 0) = top at fields ⊢
      generalize bits / 2 ^ 52 % 2 ^ 11 = field at fields nonzero exponent
      generalize bits % 2 ^ 52 = fraction at fields mantissa
      obtain ⟨less, rfl⟩ : ∃ less, field = less + 1 := ⟨field - 1, by omega⟩
      have back : (m.exponent + 1074).toNat = less := by omega
      rw [back, ← mantissa, fields]
      ring

/-- A finite double is determined by its parts. -/
theorem ofFloat_injective {x y : Float} {negative : Bool} {m : Magnitude}
    (hx : Binary.ofFloat x = .finite negative m) (hy : Binary.ofFloat y = .finite negative m) : x = y := by
  have bits : x.toBits.toNat = y.toBits.toNat :=
    (eq_of_ofBits x.toBits.toNat_lt hx).trans (eq_of_ofBits y.toBits.toNat_lt hy).symm
  obtain ⟨⟨bits_x, valid_x⟩⟩ := x
  obtain ⟨⟨bits_y, valid_y⟩⟩ := y
  cases UInt64.toNat_inj.1 bits
  rfl

/-! ## Packed doubles -/

/-- The parts of a double from its fields. -/
theorem ofBits_fields (negative : Bool) {field fraction : Nat} (positive : 0 < field)
    (field_lt : field < 2047) (fraction_lt : fraction < 2 ^ 52) :
    Binary.ofBits ((if negative then 2 ^ 63 else 0) + field * 2 ^ 52 + fraction)
      = .finite negative ⟨2 ^ 52 + fraction, (field : ℤ) - 1075⟩ := by
  generalize bits_eq : (if negative then 2 ^ 63 else 0) + field * 2 ^ 52 + fraction = bits
  have fields : decide (2 ^ 63 ≤ bits) = negative ∧ bits / 2 ^ 52 % 2 ^ 11 = field
      ∧ bits % 2 ^ 52 = fraction := by
    cases negative with
    | false =>
      rw [if_neg Bool.false_ne_true] at bits_eq
      exact ⟨decide_eq_false (by omega), by omega, by omega⟩
    | true =>
      rw [if_pos rfl] at bits_eq
      exact ⟨decide_eq_true (by omega), by omega, by omega⟩
  obtain ⟨sign, exponent, rest⟩ := fields
  unfold Binary.ofBits
  dsimp only [Nat.pow_eq]
  rw [exponent, rest, sign, if_neg (by omega), if_neg (by omega)]
  rfl

/-- The parts of a packed double with 53 bits. -/
theorem ofFloat_pack (negative : Bool) {m : Magnitude} (normal : m.IsNormal)
    (high : m.exponent ≤ 971) (positive : 0 < m.mantissa) :
    Binary.ofFloat (Float.ofModel
      (Float.Model.pack (.finite (signOf negative) m.mantissa m.exponent positive)))
        = .finite negative m := by
  obtain ⟨ge, lt, low⟩ := normal
  have bits : m.mantissa.log2 = 52 := (Nat.log2_eq_iff (by omega)).2 ⟨ge, lt⟩
  obtain ⟨field, field_eq⟩ : ∃ field : Nat, (field : ℤ) = m.exponent + 1075 :=
    ⟨(m.exponent + 1075).toNat, by omega⟩
  obtain ⟨fraction, fraction_eq⟩ : ∃ fraction, m.mantissa = 2 ^ 52 + fraction :=
    ⟨m.mantissa - 2 ^ 52, by omega⟩
  have rest : BitVec.ofNat 52 m.mantissa = BitVec.ofNat 52 fraction := by
    apply BitVec.eq_of_toNat_eq
    rw [BitVec.toNat_ofNat, BitVec.toNat_ofNat]
    omega
  have value := toNat_packComponents negative (show field < 2 ^ 11 by omega)
    (show fraction < 2 ^ 52 by omega)
  rw [← rest, ← pack_eq (signOf negative) positive bits field_eq high] at value
  show Binary.ofBits (UnpackedFloat.pack Format.binary64 _).toNat = _
  rw [value, ofBits_fields negative (by omega) (by omega) (by omega), ← fraction_eq, field_eq,
    add_sub_cancel_right]

/-- What an operation sees of a double with 53 bits. -/
theorem unpack_of_ofFloat {x : Float} {m : Magnitude} (normal : m.IsNormal)
    (h : Binary.ofFloat x = .finite false m) :
    ∃ positive, x.toModel.unpack = .finite .positive m.mantissa m.exponent positive := by
  have high := (isDouble_of_ofFloat h).exponent_le
  have positive : 0 < m.mantissa := Nat.lt_of_lt_of_le (Nat.two_pow_pos 52) normal.mantissa_ge
  refine ⟨positive, ?_⟩
  rw [ofFloat_injective h (ofFloat_pack false normal high positive)]
  exact unpack_pack positive normal.mantissa_ge normal.mantissa_lt normal.exponent_ge high

/-- The parts of the negative of a double with 53 bits. -/
theorem ofFloat_neg {x : Float} {m : Magnitude} (normal : m.IsNormal)
    (h : Binary.ofFloat x = .finite false m) : Binary.ofFloat (-x) = .finite true m := by
  obtain ⟨positive, parts⟩ := unpack_of_ofFloat normal h
  show Binary.ofFloat (Float.ofModel (Float.Model.pack x.toModel.unpack.neg)) = _
  rw [parts]
  exact ofFloat_pack true normal (isDouble_of_ofFloat h).exponent_le positive

end ScriptHost.Decimal
