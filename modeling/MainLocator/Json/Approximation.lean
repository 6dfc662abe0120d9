import MainLocator.Json.Value

/-!
# Numbers as floating point

A number that is no word is approximated by the product of two parts: the first digits of its
coefficient, as many as fit in a word, and the power of ten that they stand at. Both parts are first
rounded to the 53 binary digits of a 64-bit floating point number. `Number.isFinite` says whether
the product does not round to infinity, which is not quite whether the number itself does not.
-/

namespace MainLocator.Json

/-- Rounds to a number that `precision` binary digits and zeros behind them write. The nearest is
taken, and of two equally near ones that whose last digit is even. -/
def roundBinary (precision number : Nat) : Nat :=
  let unit := Nat.pow 2 (number.log2 + 1 - precision)
  let quotient := number / unit
  let rest := number % unit
  if unit < 2 * rest ∨ unit = 2 * rest ∧ quotient % 2 = 1 then
    (quotient + 1) * unit
  else
    quotient * unit

/-- Drops the last digits of a coefficient until it fits in a word. Each dropped digit adds one to
the exponent. -/
def shorten (coefficient : Nat) (exponent : Int) : Nat × Int :=
  if coefficient < UInt64.size then
    (coefficient, exponent)
  else
    shorten (coefficient / 10) (exponent + 1)
  termination_by coefficient
  decreasing_by
    simp only [UInt64.size] at *
    omega

namespace Number

/-- The least magnitude that rounds to infinity. -/
def bound : Nat :=
  Nat.pow 2 1024 - Nat.pow 2 970

/-- The highest power of ten below `bound`. -/
def highestPower : Nat :=
  308

/-- Whether the approximation of `coefficient` times ten to the power `exponent` is finite. -/
def hasFiniteProduct (coefficient : Nat) (exponent : Int) : Bool :=
  match shorten coefficient exponent with
  | (_, .negSucc _) =>
      true
  | (head, .ofNat power) =>
      head = 0 ∨
        power ≤ highestPower ∧ roundBinary 53 head * roundBinary 53 (Nat.pow 10 power) < bound

/-- Whether the number is a word or has a finite approximation. -/
def isFinite : Number → Bool
  | integer _ magnitude =>
      magnitude < UInt64.size || hasFiniteProduct magnitude 0
  | scaled _ coefficient exponent =>
      hasFiniteProduct coefficient exponent

theorem isFinite_integer {negative : Bool} {magnitude : Nat} (fits : magnitude < UInt64.size) :
    (integer negative magnitude).isFinite = true := by
  simp [isFinite, fits]

end Number

end MainLocator.Json
