import ScriptHost.Decimal.Layout

/-!
# Well-formed literals

A literal is well formed when its parts are digits, there is a whole part without a leading zero,
and an exponent has digits.

* `Literal.WellFormed` : the condition.
* `Literal.wellFormed_digitsOf` : the digits of a whole number are well formed.
* `Layout.wellFormed_literal` : so is what a layout makes of a decimal.
-/

namespace ScriptHost.Decimal

/-! ## Digits -/

/-- All characters are digits. -/
def AllDigits (cs : List Char) : Prop := ∀ c ∈ cs, isDigit c = true

theorem allDigits_digitsOf (n : Nat) : AllDigits (digitsOf n) := fun _ => isDigit_of_mem_digitsOf

theorem allDigits_zeros (n : Nat) : AllDigits (List.replicate n '0') := by
  intro c h
  rw [List.eq_of_mem_replicate h]
  rfl

theorem AllDigits.append {cs ds : List Char} (h : AllDigits cs) (k : AllDigits ds) :
    AllDigits (cs ++ ds) := by
  intro c m
  rcases List.mem_append.1 m with m | m
  · exact h c m
  · exact k c m

theorem AllDigits.take {cs : List Char} (h : AllDigits cs) (n : Nat) : AllDigits (cs.take n) :=
  fun c m => h c (List.mem_of_mem_take m)

theorem AllDigits.drop {cs : List Char} (h : AllDigits cs) (n : Nat) : AllDigits (cs.drop n) :=
  fun c m => h c (List.mem_of_mem_drop m)

theorem digitsOf_ne_nil (n : Nat) : digitsOf n ≠ [] := Nat.toDigits_ne_nil

theorem head?_append_of_ne_nil {cs ds : List Char} (h : cs ≠ []) :
    (cs ++ ds).head? = cs.head? := by
  cases cs with
  | nil => exact absurd rfl h
  | cons c cs => rfl

/-- The digits of a positive number do not start with zero. -/
theorem head?_digitsOf {n : Nat} (h : n ≠ 0) : (digitsOf n).head? ≠ some '0' := by
  induction n using Nat.strongRecOn with
  | ind n ih =>
    unfold digitsOf
    rw [Nat.toDigits_eq_if (by decide)]
    split
    · next small =>
      have digits : ∀ k : Fin 10, k.val ≠ 0 → [k.val.digitChar].head? ≠ some '0' := by decide
      exact digits ⟨n, small⟩ h
    · next large =>
      have shorter : n / 10 < n := Nat.div_lt_self (by omega) (by decide)
      have rest : n / 10 ≠ 0 := by omega
      rw [head?_append_of_ne_nil Nat.toDigits_ne_nil]
      exact ih (n / 10) shorter rest

/-! ## Literals -/

/-- The whole part of a literal: a single zero, or digits that start with another one. -/
def IsWhole (cs : List Char) : Prop := cs = ['0'] ∨ cs ≠ [] ∧ cs.head? ≠ some '0' ∧ AllDigits cs

theorem isWhole_digitsOf (n : Nat) : IsWhole (digitsOf n) := by
  by_cases zero : n = 0
  · left
    rw [zero]
    rfl
  · right
    exact ⟨digitsOf_ne_nil n, head?_digitsOf zero, allDigits_digitsOf n⟩

/-- A literal whose parts are digits, without leading zeros. -/
structure Literal.WellFormed (literal : Literal) : Prop where
  whole : IsWhole literal.whole
  fraction : AllDigits literal.fraction
  exponent : ∀ e, literal.exponent? = some e → e.digits ≠ [] ∧ AllDigits e.digits

/-- The digits of a whole number are well formed. -/
theorem Literal.wellFormed_digitsOf (n : Nat) :
    Literal.WellFormed ⟨digitsOf n, [], none⟩ := by
  refine ⟨isWhole_digitsOf n, ?_, ?_⟩
  · intro c m
    cases m
  · intro e h
    cases h

namespace Layout

/-- The front of the digits of a positive number, followed by digits, is a whole part. -/
theorem isWhole_take_append {n count : Nat} (h : n ≠ 0) (some : 0 < count) {cs : List Char}
    (digits : AllDigits cs) : IsWhole ((digitsOf n).take count ++ cs) := by
  right
  have front : (digitsOf n).take count ≠ [] := by
    intro empty
    rcases List.take_eq_nil_iff.1 empty with none | none
    · omega
    · exact digitsOf_ne_nil n none
  refine ⟨?_, ?_, ((allDigits_digitsOf n).take count).append digits⟩
  · intro empty
    exact front (List.append_eq_nil_iff.1 empty).1
  · rw [head?_append_of_ne_nil front, List.head?_take, if_neg (by omega)]
    exact head?_digitsOf h

theorem wellFormed_positional {s : Scaled} (h : s.digits ≠ 0) : (positional s).WellFormed := by
  have digits := allDigits_digitsOf s.digits
  unfold positional
  dsimp only
  split
  · refine ⟨?_, ?_, fun e k => by cases k⟩
    · have whole := isWhole_take_append h (List.length_pos_iff.2 (digitsOf_ne_nil s.digits))
        (allDigits_zeros s.exponent.toNat)
      rwa [List.take_length] at whole
    · exact allDigits_zeros 1
  · split
    · refine ⟨?_, digits.drop _, fun e k => by cases k⟩
      have front : 0 < (digitsOf s.digits).length - (-s.exponent).toNat := Nat.sub_pos_of_lt ‹_›
      have whole := isWhole_take_append h front (allDigits_zeros 0)
      rwa [List.replicate_zero, List.append_nil] at whole
    · exact ⟨.inl rfl, (allDigits_zeros _).append digits, fun e k => by cases k⟩

theorem wellFormed_scientific (layout : Layout) {s : Scaled} (h : s.digits ≠ 0) :
    (layout.scientific s).WellFormed := by
  refine ⟨?_, (allDigits_digitsOf s.digits).drop 1, ?_⟩
  · have whole := isWhole_take_append h (by decide : 0 < 1) (allDigits_zeros 0)
    rwa [List.replicate_zero, List.append_nil] at whole
  · intro e k
    cases k
    refine ⟨?_, (allDigits_zeros _).append (allDigits_digitsOf _)⟩
    intro empty
    exact digitsOf_ne_nil _ (List.append_eq_nil_iff.1 empty).2

/-- What a layout makes of a decimal is well formed. -/
theorem wellFormed_literal (layout : Layout) (s : Scaled) : (layout.literal s).WellFormed := by
  unfold literal
  split
  · exact ⟨.inl rfl, allDigits_zeros 1, fun e k => by cases k⟩
  · next nonzero =>
    split
    · exact wellFormed_positional nonzero
    · exact wellFormed_scientific layout nonzero

end Layout

end ScriptHost.Decimal
