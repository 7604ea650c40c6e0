import ScriptHost.Json.Shape
import ScriptHost.Proofs.Decimal.Collecting

/-!
# Finite numbers are read back as numbers

The text of a double that is finite is that of a number that can be read, although it may be read as
a double beside it.

* `Json.collectedOf` : the decimal that is collected from the text of a double.
* `Json.real?_numberDocument` : the double is read by scaling that once.
* `Json.isSome_real?_numberDocument` : this gives a number.
* `Json.real?_numberDocument_of_isExact` : it is read back when that is exact.
-/

namespace ScriptHost

open Decimal Binary

namespace Json

/-- The decimal that is collected from the text of a double. -/
def collectedOf (m : Magnitude) : Scaled := numberLayout.gathered (shortest m)

/-- The document of a double is read by scaling what is collected from it once. -/
theorem real?_numberDocument {x : Float} {negative : Bool} {m : Magnitude}
    (parts : Binary.ofFloat x = .finite negative m) :
    (numberDocument x).real? = (Literal.scale? (collectedOf m).digits.toUInt64.toFloat
      (collectedOf m).exponent 4).map fun y => if negative then -y else y := by
  have scaled := scaled?_shortest (isDouble_of_ofFloat parts) (exponent_ge_of_ofFloat parts)
    (show numberLayout.highest ≤ 15 by decide)
  have real : ofNumber? negative (numberLayout.literal (shortest m))
      = (numberLayout.literal (shortest m)).scaled?.map
        fun y => .real (if negative then -y else y) := by
    unfold ofNumber?
    dsimp only
    rw [Layout.isWhole_literal]
    rfl
  unfold numberDocument collectedOf
  rw [parts]
  unfold Document.real?
  dsimp only
  rw [real, scaled]
  cases Literal.scale? _ _ 4 <;> rfl

/-- The document of a finite double is read as a number. -/
theorem isSome_real?_numberDocument {x : Float} (finite : x.isFinite = true) :
    (numberDocument x).real?.isSome = true := by
  obtain ⟨negative, m, parts⟩ := exists_ofFloat finite
  rw [real?_numberDocument parts, Option.isSome_map]
  exact isSome_scale?_gathered (isDouble_of_ofFloat parts) (exponent_ge_of_ofFloat parts) _

/-- Zero is read back, and so is its negative. -/
theorem real?_numberDocument_zero {x : Float} {negative : Bool}
    (parts : Binary.ofFloat x = .finite negative ⟨0, -1074⟩) :
    (numberDocument x).real? = some x := by
  have quotient : Binary.ofFloat ((0 : Nat).toUInt64.toFloat / Literal.powerOfTen 1)
      = .finite false ⟨0, -1074⟩ := by decide +kernel
  have opposite : Binary.ofFloat (-((0 : Nat).toUInt64.toFloat / Literal.powerOfTen 1))
      = .finite true ⟨0, -1074⟩ := by decide +kernel
  have scaled : Literal.scale? (collectedOf ⟨0, -1074⟩).digits.toUInt64.toFloat
      (collectedOf ⟨0, -1074⟩).exponent 4
        = some ((0 : Nat).toUInt64.toFloat / Literal.powerOfTen 1) := rfl
  rw [real?_numberDocument parts, scaled]
  cases negative with
  | false => exact congrArg some (ofFloat_injective quotient parts)
  | true => exact congrArg some (ofFloat_injective opposite parts)

/-- A double whose text is collected exactly is read back. -/
theorem real?_numberDocument_of_isExact {x : Float} {negative : Bool} {m : Magnitude}
    (parts : Binary.ofFloat x = .finite negative m) (exact : (collectedOf m).IsExact) :
    (numberDocument x).real? = some x := by
  have double := isNormal_or_of_ofFloat parts
  by_cases zero : m.mantissa = 0
  · obtain ⟨normal, _⟩ | ⟨_, least⟩ := double
    · have := normal.mantissa_ge
      omega
    · have same : m = ⟨0, -1074⟩ := by
        rw [← zero, ← least]
      exact real?_numberDocument_zero (parts.trans (congrArg (Parts.finite negative) same))
  · have positive := Nat.pos_of_ne_zero zero
    have attracts : m.Attracts (collectedOf m).value := by
      unfold collectedOf
      rw [Layout.value_gathered]
      exact attracts_shortest positive (isDouble_of_ofFloat parts).mantissa_lt
    have fits : (collectedOf m).digits < 2 ^ 64 := digits_gathered_lt m (by decide)
    obtain ⟨y, scaled, read⟩ := exists_scale?_of_isExact exact fits positive double attracts 4
    rw [real?_numberDocument parts, scaled]
    cases negative with
    | false => exact congrArg some (ofFloat_injective read.parts parts)
    | true => exact congrArg some (ofFloat_injective (ofFloat_neg read.normal read.parts) parts)

end Json

end ScriptHost
