import Mathlib.Algebra.Order.Field.Basic
import Mathlib.Algebra.Order.Field.Rat
import Mathlib.Tactic.FieldSimp
import Mathlib.Tactic.LinearCombination
import Mathlib.Tactic.Linarith
import Mathlib.Tactic.Ring
import Verdict.Numeric.Rounding

/-!
# Rounding half to even

The integer nearest to a rational number, and of two such integers the even one. Quotients of
natural numbers are rounded to it.
-/

namespace Verdict

/-- The integer is nearest to the value; of two such integers it is the even one. -/
structure NearestEven (n : ℤ) (x : ℚ) : Prop where
  near : |x - n| ≤ 1 / 2
  even : |x - n| = 1 / 2 → Even n

namespace NearestEven

variable {n m : ℤ} {x : ℚ}

theorem intCast (n : ℤ) : NearestEven n n := by
  constructor <;> norm_num

theorem neg (h : NearestEven n x) : NearestEven (-n) (-x) := by
  have hdistance : |-x - ((-n : ℤ) : ℚ)| = |x - n| := by
    rw [← abs_neg]
    push_cast
    ring_nf
  exact ⟨hdistance ▸ h.near, fun htie => (h.even (hdistance ▸ htie)).neg⟩

theorem le_add_half (h : NearestEven n x) : x ≤ n + 1 / 2 := by
  linarith [(abs_le.mp h.near).2]

theorem sub_half_le (h : NearestEven n x) : n - 1 / 2 ≤ x := by
  linarith [(abs_le.mp h.near).1]

/-- Rounding does not go below an integer. -/
theorem le_of_le (h : NearestEven n x) (hm : (m : ℚ) ≤ x) : m ≤ n := by
  by_contra hlt
  have hstep : (n : ℚ) + 1 ≤ m := by exact_mod_cast not_le.mp hlt
  linarith [h.le_add_half]

theorem unique (hn : NearestEven n x) (hm : NearestEven m x) : n = m := by
  by_contra hne
  wlog hlt : n < m generalizing n m
  · exact this hm hn (Ne.symm hne) (by omega)
  have hupper := hn.le_add_half
  have hlower := hm.sub_half_le
  -- Both are at the distance of one half, so both are even and next to one another.
  have hnext : m = n + 1 := by
    have hle : (m : ℚ) ≤ ((n + 1 : ℤ) : ℚ) := by
      push_cast
      linarith
    have hle : m ≤ n + 1 := by exact_mod_cast hle
    omega
  subst hnext
  push_cast at hlower
  have hx : x = n + 1 / 2 := by linarith
  have heven : Even n := hn.even (by rw [hx]; norm_num)
  have heven' : Even (n + 1) := hm.even (by rw [hx]; norm_num)
  exact (Int.even_add_one.mp heven') heven

theorem mono {y : ℚ} (hn : NearestEven n x) (hm : NearestEven m y) (hxy : x ≤ y) : n ≤ m := by
  by_contra hlt
  rcases hxy.lt_or_eq with hxy | rfl
  · have hstep : (m : ℚ) + 1 ≤ n := by exact_mod_cast not_le.mp hlt
    linarith [hn.sub_half_le, hm.le_add_half]
  · exact hlt (hn.unique hm).le

end NearestEven

/-- Nearness of a whole number to a quotient is a matter of the remainder. -/
theorem nearestEven_div {n num : ℤ} {den : ℕ} (hden : 0 < den)
    (hnear : 2 * |num - n * den| ≤ den) (heven : 2 * |num - n * den| = den → Even n) :
    NearestEven n (num / den) := by
  have hden' : (0 : ℚ) < den := by exact_mod_cast hden
  have hdistance : |(num : ℚ) / den - n| = (|num - n * den| : ℤ) / den := by
    rw [div_sub' hden'.ne', abs_div, abs_of_pos hden', mul_comm]
    push_cast
    rfl
  constructor
  · rw [hdistance, div_le_div_iff₀ hden' two_pos, one_mul, mul_comm]
    exact_mod_cast hnear
  · intro htie
    rw [hdistance, div_eq_div_iff hden'.ne' two_ne_zero, one_mul, mul_comm] at htie
    exact heven (by exact_mod_cast htie)

theorem nearestEven_divHalfEven (num : ℕ) {den : ℕ} (hden : 0 < den) :
    NearestEven (Numeric.divHalfEven num den : ℕ) ((num : ℤ) / den) := by
  have hsplit : (den : ℤ) * (num / den : ℕ) + (num % den : ℕ) = num := by
    exact_mod_cast Nat.div_add_mod num den
  have hmod : num % den < den := Nat.mod_lt num hden
  by_cases hup : den < 2 * (num % den) ∨ (2 * (num % den) = den ∧ num / den % 2 = 1)
  · have hround : Numeric.divHalfEven num den = num / den + 1 := by
      simp [Numeric.divHalfEven, hup]
    have hrest : |(num : ℤ) - (num / den + 1 : ℕ) * den| = den - (num % den : ℕ) := by
      rw [← abs_of_pos (show 0 < (den : ℤ) - (num % den : ℕ) by omega), abs_sub_comm]
      congr 1
      push_cast at hsplit ⊢
      linear_combination hsplit
    rw [hround]
    refine nearestEven_div hden (by omega) fun htie => ?_
    have hodd : num / den % 2 = 1 := by omega
    rw [Int.even_iff]
    omega
  · have hround : Numeric.divHalfEven num den = num / den := by
      simp [Numeric.divHalfEven, hup]
    have hrest : |(num : ℤ) - (num / den : ℕ) * den| = (num % den : ℕ) := by
      rw [← abs_of_nonneg (Int.natCast_nonneg (num % den))]
      congr 1
      linear_combination -hsplit
    rw [hround]
    refine nearestEven_div hden (by omega) fun htie => ?_
    rw [Int.even_iff]
    omega

theorem exists_nearestEven (x : ℚ) : ∃ n, NearestEven n x := by
  have hx : (x.num : ℚ) / x.den = x := x.num_div_den
  have h := nearestEven_divHalfEven x.num.natAbs x.den_pos
  rw [← hx]
  rcases Int.natAbs_eq x.num with hnum | hnum
  · rw [hnum]
    exact ⟨_, h⟩
  · rw [hnum, Int.cast_neg, neg_div]
    exact ⟨_, h.neg⟩

end Verdict
