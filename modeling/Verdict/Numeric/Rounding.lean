import Verdict.Numeric.Power

/-!
# Rounding of quotients

Two ways to round a quotient of natural numbers to a whole number: to the nearest one with ties to
the even neighbour, and by the first digit after the point.
-/

namespace Verdict.Numeric

/-- The whole number nearest to the quotient; a tie goes to the even neighbour. -/
def divHalfEven (num den : Nat) : Nat :=
  let q := num / den
  let r := num % den
  if den < 2 * r || (2 * r == den && q % 2 == 1) then q + 1 else q

/-- The whole number that is left when the last `k` decimal digits are dropped and the first of
them, if it is five or more, counts as one more. -/
def dropDigitsHalfUp (n k : Nat) : Nat :=
  match k with
  | 0 => n
  | k + 1 => (n / 10 ^ k + 5) / 10

@[simp] theorem dropDigitsHalfUp_zero (n : Nat) : dropDigitsHalfUp n 0 = n := rfl

theorem dropDigitsHalfUp_le (n k : Nat) : dropDigitsHalfUp n k ≤ n := by
  cases k with
  | zero => exact Nat.le_refl n
  | succ k =>
    have : n / 10 ^ k ≤ n := Nat.div_le_self n (10 ^ k)
    simp only [dropDigitsHalfUp]
    omega

/-- An exact quotient is not changed. -/
theorem divHalfEven_mul (q den : Nat) (h : 0 < den) : divHalfEven (q * den) den = q := by
  simp [divHalfEven, Nat.mul_div_cancel q h]
  omega

end Verdict.Numeric
