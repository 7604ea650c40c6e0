/-!
# Decimal digits

Natural numbers as texts of the digits `0` to `9`.

* `digitsOf n` : the digits of `n`, without leading zeros.
* `readDigits cs` : the number that a text of digits stands for.
* `readDigits_digitsOf` : the digits of a number are read back.
* `length_digitsOf_le_iff` : how many digits a number has.
-/

namespace ScriptHost.Decimal

/-- One of `0` to `9`. -/
def isDigit (c : Char) : Bool := '0' ≤ c && c ≤ '9'

/-- The number that a digit stands for. -/
def digitValue (c : Char) : Nat := c.toNat - '0'.toNat

/-- The digits of a number; zero has one digit. -/
def digitsOf (n : Nat) : List Char := Nat.toDigits 10 n

/-- The number that digits stand for. -/
def readDigits (cs : List Char) : Nat := Nat.ofDigitChars 10 cs 0

/-- The number of digits; zero has one. -/
def digitCount (n : Nat) : Nat := (digitsOf n).length

/-- The digits, with zeros in front up to a width. -/
def paddedDigits (width n : Nat) : List Char :=
  List.replicate (width - digitCount n) '0' ++ digitsOf n

/-- The digits of a number are read back. -/
@[simp] theorem readDigits_digitsOf (n : Nat) : readDigits (digitsOf n) = n :=
  Nat.ofDigitChars_toDigits (by decide) (by decide)

/-- A number has at most `k` digits when it is below `10 ^ k`. -/
theorem length_digitsOf_le_iff {n k : Nat} (h : 0 < k) :
    (digitsOf n).length ≤ k ↔ n < Nat.pow 10 k :=
  Nat.length_toDigits_le_iff (by decide) h

/-- What is written are digits. -/
theorem isDigit_of_mem_digitsOf {n : Nat} {c : Char} (h : c ∈ digitsOf n) : isDigit c = true := by
  have digit := Nat.isDigit_of_mem_toDigits (by decide) (by decide) h
  simpa [isDigit, Char.isDigit, Char.le_def] using digit

end ScriptHost.Decimal
