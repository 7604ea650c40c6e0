import ScriptHost.Proofs.Snapshot.Limits

/-!
# Saved numbers

A finite number that is encoded is decoded as a number. It is the same number when the digits and
the power of ten that its text is collected into are doubles. Otherwise scaling rounds twice, and
another number can come back.

* `EncodedVariable.decode_encode_number` : decoding is reading the document of the number.
* `EncodedVariable.decode_number` : what an encoded number is decoded as.
-/

namespace ScriptHost

open Decimal Binary Json

namespace EncodedVariable

/-- An encoded number is decoded as what its document is read as. -/
theorem decode_encode_number {name : String} {x y : Float} {encoded : EncodedVariable}
    (encoding : encode name (.number x) = .ok encoded) (read : (numberDocument x).real? = some y) :
    encoded.decode = .ok (.number y) := by
  have ordered : Value.Ordered (.number x) := (Value.throughout_leaf rfl).2 trivial
  have shallow : (Value.number x).payloadNesting ≤ nestingLimit := Nat.zero_le _
  rw [decode_encode ordered encoding, if_pos shallow, Value.reread?, read]
  rfl

/-- A finite number has an encoded form, and that is decoded as a number: the decimal that is
collected from the text is scaled once, and takes the sign of the number. The number comes back
unchanged, with all its bits, if the digits and the power of ten of that decimal are doubles. -/
theorem decode_number (name : String) {x : Float} (finite : x.isFinite = true) :
    ∃ negative m encoded y, Binary.ofFloat x = .finite negative m
      ∧ encode name (.number x) = .ok encoded
      ∧ Literal.scale? (collectedOf m).digits.toUInt64.toFloat (collectedOf m).exponent 4 = some y
      ∧ encoded.decode = .ok (.number (if negative then -y else y))
      ∧ ((collectedOf m).IsExact → (if negative then -y else y) = x) := by
  obtain ⟨negative, m, parts⟩ := exists_ofFloat finite
  obtain ⟨encoded, encoding⟩ : ∃ encoded, encode name (.number x) = .ok encoded := by
    unfold encode Value.allFinite
    rw [finite]
    exact ⟨_, rfl⟩
  have document := real?_numberDocument parts
  obtain ⟨read, read_eq⟩ := Option.isSome_iff_exists.1 (isSome_real?_numberDocument finite)
  obtain ⟨y, scaled, sign⟩ := Option.map_eq_some_iff.1 (document.symm.trans read_eq)
  refine ⟨negative, m, encoded, y, parts, encoding, scaled, ?_, ?_⟩
  · rw [sign]
    exact decode_encode_number encoding read_eq
  · intro exact
    rw [sign]
    exact Option.some.inj (read_eq.symm.trans (real?_numberDocument_of_isExact parts exact))

/-- A tenth comes back. The greatest whole number below `2 ^ 53` is collected with one more zero,
which is too much for a double: the word is rounded before it is scaled, and the number below comes
back. -/
theorem decode_number_of_tenth :
    (∃ encoded, encode "x" (.number 0.1) = .ok encoded
      ∧ encoded.decode = .ok (.number 0.1))
      ∧ (∃ encoded, encode "x" (.number 9007199254740991) = .ok encoded
        ∧ encoded.decode = .ok (.number 9007199254740990))
      ∧ (9007199254740991 : Float) ≠ 9007199254740990 := by
  refine ⟨?_, ?_, ?_⟩
  · obtain ⟨negative, m, encoded, y, parts, encoding, _, decoded, exact⟩ :=
      decode_number "x" (show (0.1 : Float).isFinite = true by decide +kernel)
    have tenth : Binary.ofFloat 0.1 = .finite false ⟨7205759403792794, -56⟩ := by decide +kernel
    obtain ⟨rfl, rfl⟩ := Parts.finite.inj (tenth.symm.trans parts)
    have few : shortest ⟨7205759403792794, -56⟩ = ⟨1, -1⟩ := by decide +kernel
    rw [exact (isExact_gathered (by rw [few]; decide) (by rw [few]; decide) (by decide)
      (by rw [few]; decide))] at decoded
    exact ⟨encoded, encoding, decoded⟩
  · obtain ⟨negative, m, encoded, y, parts, encoding, scaled, decoded, _⟩ :=
      decode_number "x" (show (9007199254740991 : Float).isFinite = true by decide +kernel)
    have greatest : Binary.ofFloat 9007199254740991 = .finite false ⟨9007199254740991, 0⟩ := by
      decide +kernel
    obtain ⟨rfl, rfl⟩ := Parts.finite.inj (greatest.symm.trans parts)
    have collected : collectedOf ⟨9007199254740991, 0⟩ = ⟨90071992547409910, -1⟩ := by
      decide +kernel
    rw [collected] at scaled
    have below : Binary.ofFloat ((90071992547409910 : Nat).toUInt64.toFloat / Literal.powerOfTen 1)
        = .finite false ⟨9007199254740990, 0⟩ := by decide +kernel
    have same : Binary.ofFloat 9007199254740990 = .finite false ⟨9007199254740990, 0⟩ := by
      decide +kernel
    rw [← Option.some.inj scaled] at decoded
    exact ⟨encoded, encoding, decoded.trans
      (congrArg (fun z => Except.ok (Value.number z)) (ofFloat_injective below same))⟩
  · intro equal
    have parts : Binary.ofFloat 9007199254740991 = Binary.ofFloat 9007199254740990 :=
      congrArg Binary.ofFloat equal
    revert parts
    decide +kernel

end EncodedVariable

end ScriptHost
