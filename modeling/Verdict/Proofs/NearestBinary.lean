import Mathlib.Algebra.Order.Field.Power
import Mathlib.Tactic.Positivity
import Verdict.Binary64.Basic
import Verdict.Proofs.Digits
import Verdict.Proofs.NearestEven

/-!
# The nearest binary number

A binary number covers the values that are rounded to it: those up to the midpoints to its
neighbours, and the midpoints themselves if its significand is even. The number that is nearest to a
fraction covers this fraction.
-/

namespace Verdict.Binary64

open Text

variable {x : Binary64} {v : ℚ}

/-- The smallest positive number. -/
def quantum : ℚ :=
  1 / 2 ^ 1074

/-- The number without its sign. -/
def size (x : Binary64) : ℚ :=
  x.quanta * quantum

/-- The distance to the midpoint above. -/
def reach (x : Binary64) : ℚ :=
  2 ^ x.shift * quantum / 2

/-- The distance to the midpoint below, where the neighbour is nearer if the significand is the
smallest one. -/
def reachBelow (x : Binary64) : ℚ :=
  if x.significand = 2 ^ 52 ∧ 0 < x.shift then x.reach / 2 else x.reach

/-- The significand has all its bits. -/
structure IsNormal (x : Binary64) : Prop where
  le_significand : 2 ^ 52 ≤ x.significand
  significand_lt : x.significand < 2 ^ 53

/-- The value is rounded to the number. -/
def Covers (x : Binary64) (v : ℚ) : Prop :=
  if x.significand % 2 = 0 then x.size - x.reachBelow ≤ v ∧ v ≤ x.size + x.reach
  else x.size - x.reachBelow < v ∧ v < x.size + x.reach

theorem quantum_pos : 0 < quantum := by
  rw [quantum]
  positivity

theorem pow_mul_one_div (k : ℕ) : ((2 ^ k : ℕ) : ℚ) * (1 / 2 ^ k) = 1 := by
  push_cast
  exact mul_one_div_cancel (by positivity)

/-- How many of the smallest numbers make one. -/
theorem mul_quantum : ((2 ^ 1074 : ℕ) : ℚ) * quantum = 1 :=
  pow_mul_one_div 1074

theorem reach_pos (x : Binary64) : 0 < x.reach := by
  have hpos := quantum_pos
  rw [reach]
  positivity

theorem reachBelow_le (x : Binary64) : x.reachBelow ≤ x.reach := by
  have hpos := x.reach_pos
  rw [reachBelow]
  split <;> linarith

theorem Covers.abs_sub_le (h : x.Covers v) : |v - x.size| ≤ x.reach := by
  have hbelow := x.reachBelow_le
  rw [Covers] at h
  rw [abs_le]
  split at h <;> constructor <;> linarith

theorem size_eq (x : Binary64) : x.size = x.significand * (2 * x.reach) := by
  rw [size, quanta, reach]
  push_cast
  ring

theorem IsNormal.reach_le (h : x.IsNormal) : 2 ^ 53 * x.reach ≤ x.size := by
  have hle : (2 ^ 52 : ℚ) ≤ x.significand := by exact_mod_cast h.le_significand
  have hpos := x.reach_pos
  rw [size_eq]
  nlinarith

/-! ## The nearest number -/

/-- A number is rounded to, if its significand is the rounded count of units in the last place. -/
theorem covers_of_nearestEven {y : ℚ} (h : NearestEven x.significand y) (hle : (2 ^ 52 : ℚ) ≤ y) :
    x.Covers (y * (2 * x.reach)) := by
  have hpos := x.reach_pos
  have hnear := abs_le.mp h.near
  rw [Int.cast_natCast] at hnear
  have habove : y * (2 * x.reach) ≤ x.size + x.reach := by
    rw [size_eq]
    nlinarith
  have hbelow : x.size - x.reachBelow ≤ y * (2 * x.reach) := by
    rw [size_eq, reachBelow]
    split
    · rename_i hsmallest
      rw [hsmallest.1]
      push_cast
      nlinarith
    · nlinarith
  rw [Covers]
  split
  · exact ⟨hbelow, habove⟩
  · rename_i hodd
    -- at a midpoint the significand would be even
    have hne : y ≠ x.significand + 1 / 2 ∧ y ≠ x.significand - 1 / 2 := by
      have heven : |y - (x.significand : ℤ)| = 1 / 2 → x.significand % 2 = 0 := fun htie => by
        have := h.even htie
        rw [Int.even_iff] at this
        omega
      rw [Int.cast_natCast] at heven
      constructor
      · rintro rfl
        exact hodd (heven (by norm_num))
      · rintro rfl
        exact hodd (heven (by norm_num))
    have hbelow' : x.reachBelow = x.reach := by
      rw [reachBelow, if_neg]
      rintro ⟨hsmallest, -⟩
      rw [hsmallest] at hodd
      exact hodd (by norm_num)
    have hlow : (x.significand : ℚ) - 1 / 2 < y := lt_of_le_of_ne (by linarith) hne.2.symm
    have hhigh : y < x.significand + 1 / 2 := lt_of_le_of_ne (by linarith) hne.1
    rw [hbelow', size_eq]
    constructor <;> nlinarith

/-- The number above the largest significand has the smallest one. -/
theorem covers_of_carried {s : ℕ} {negative : Bool} {y : ℚ} (h : NearestEven (2 ^ 53 : ℕ) y)
    (hlt : y < 2 ^ 53) :
    (⟨negative, 2 ^ 52, s + 1⟩ : Binary64).Covers (y * (2 ^ s * quantum)) := by
  have hpos : 0 < 2 ^ s * quantum := mul_pos (by positivity) quantum_pos
  have hnear := h.sub_half_le
  push_cast at hnear
  have hsize : (⟨negative, 2 ^ 52, s + 1⟩ : Binary64).size = 2 ^ 53 * (2 ^ s * quantum) := by
    rw [size, quanta]
    push_cast
    ring
  have hreach : (⟨negative, 2 ^ 52, s + 1⟩ : Binary64).reach = 2 ^ s * quantum := by
    rw [reach]
    ring
  rw [Covers, if_pos (by norm_num), reachBelow, if_pos ⟨rfl, by simp⟩, hreach, hsize]
  constructor <;> nlinarith

/-- Shifted so far that 53 bits are left before the point. -/
theorem shifted_bounds {num den : ℕ} (hden : 0 < den) (hlow : 2 ^ 52 * den ≤ num) :
    2 ^ 52 * (den * 2 ^ ((num / den).log2 - 52)) ≤ num ∧
      num < 2 ^ 53 * (den * 2 ^ ((num / den).log2 - 52)) := by
  have hle : 2 ^ 52 ≤ num / den := (Nat.le_div_iff_mul_le hden).mpr hlow
  have hne : num / den ≠ 0 := by positivity
  have hlog : 52 ≤ (num / den).log2 := (Nat.le_log2 hne).mpr hle
  obtain ⟨s, hs⟩ := Nat.exists_eq_add_of_le hlog
  have hself : 2 ^ (52 + s) ≤ num / den := hs ▸ Nat.log2_self_le hne
  have hlt : num / den < 2 ^ (53 + s) := by
    have := Nat.lt_log2_self (n := num / den)
    rw [hs] at this
    rwa [show 53 + s = 52 + s + 1 by omega]
  rw [hs, Nat.add_sub_cancel_left]
  constructor
  · have := (Nat.le_div_iff_mul_le hden).mp hself
    rw [pow_add] at this
    linarith
  · have := (Nat.div_lt_iff_lt_mul hden).mp hlt
    rw [pow_add] at this
    linarith

theorem bounds_of_nearestEven {n : ℕ} {y : ℚ} (h : NearestEven n y) (hle : (2 ^ 52 : ℚ) ≤ y)
    (hlt : y < 2 ^ 53) : 2 ^ 52 ≤ n ∧ n ≤ 2 ^ 53 := by
  have hge : ((2 ^ 52 : ℕ) : ℤ) ≤ n := h.le_of_le (by push_cast at hle ⊢; exact hle)
  have hmost : (n : ℤ) ≤ (2 ^ 53 : ℕ) :=
    h.mono (NearestEven.intCast _) (by push_cast at hlt ⊢; exact hlt.le)
  exact ⟨by exact_mod_cast hge, by exact_mod_cast hmost⟩

/-- A positive fraction that is neither too small nor too large is rounded to a number. -/
theorem nearest?_spec (negative : Bool) {num den : ℕ} (hden : 0 < den)
    (hlow : 2 ^ 52 * den ≤ num * 2 ^ 1074) (hhigh : num * 2 ^ 1074 < 2 ^ 2097 * den) :
    ∃ x, nearest? negative num den = some x ∧ x.negative = negative ∧ x.IsNormal ∧
      x.Covers (num / den) := by
  have hquantum : (num / den : ℚ) = (num * 2 ^ 1074 : ℕ) / den * quantum := by
    have hone := mul_quantum
    generalize 2 ^ 1074 = k at *
    rw [Nat.cast_mul, mul_div_right_comm, mul_assoc, hone, mul_one]
  rw [hquantum, nearest?]
  generalize num * 2 ^ 1074 = n at *
  obtain ⟨hge, hlt⟩ := shifted_bounds hden hlow
  have hshift : (n / den).log2 - 52 ≤ 2044 := by
    have hne : n / den ≠ 0 := by
      have := (Nat.le_div_iff_mul_le hden).mpr hlow
      omega
    have hlog : (n / den).log2 < 2097 :=
      (Nat.log2_lt hne).mpr ((Nat.div_lt_iff_lt_mul hden).mpr hhigh)
    omega
  generalize (n / den).log2 - 52 = s at *
  have hunit : 0 < den * 2 ^ s := by positivity
  have hunit' : (0 : ℚ) < (den * 2 ^ s : ℕ) := by exact_mod_cast hunit
  have hround := nearestEven_divHalfEven n hunit
  rw [Int.cast_natCast] at hround
  have hge' : (2 ^ 52 : ℚ) ≤ n / (den * 2 ^ s : ℕ) := by
    rw [le_div_iff₀ hunit']
    exact_mod_cast hge
  have hlt' : (n / (den * 2 ^ s : ℕ) : ℚ) < 2 ^ 53 := by
    rw [div_lt_iff₀ hunit']
    exact_mod_cast hlt
  have hscale : (n / den * quantum : ℚ) = n / (den * 2 ^ s : ℕ) * (2 ^ s * quantum) := by
    push_cast
    field_simp
  obtain ⟨hleast, hmost⟩ := bounds_of_nearestEven hround hge' hlt'
  rw [hscale]
  generalize Numeric.divHalfEven n (den * 2 ^ s) = m at *
  by_cases hcarried : m = 2 ^ 53
  -- the significand has one bit too many, so it is shifted once more
  · rw [hcarried] at hround
    refine ⟨⟨negative, 2 ^ 52, s + 1⟩, ?_, rfl, ⟨le_refl _, by norm_num⟩,
      covers_of_carried hround hlt'⟩
    rw [if_pos (beq_iff_eq.mpr hcarried), if_pos (show s + 1 ≤ 2045 by omega)]
  · refine ⟨⟨negative, m, s⟩, ?_, rfl, ⟨hleast, lt_of_le_of_ne hmost hcarried⟩, ?_⟩
    · rw [if_neg (mt beq_iff_eq.mp hcarried), if_pos (show s ≤ 2045 by omega)]
    · have hcovers := covers_of_nearestEven (x := ⟨negative, m, s⟩) hround hge'
      rwa [reach, mul_div_cancel₀ _ two_ne_zero] at hcovers

/-! ## Powers of ten -/

theorem zpow_eq_div (g : ℤ) : (10 : ℚ) ^ g = 10 ^ g.toNat / 10 ^ (-g).toNat := by
  obtain ⟨n, rfl | rfl⟩ := g.eq_nat_or_neg
  · simp
  · simp

theorem two_pow_add {k m n : ℕ} (h : n = k + m) : 2 ^ n = 2 ^ k * 2 ^ m := by
  rw [h, Nat.pow_add]

/-- The length of a number tells which powers of ten it lies between. -/
theorem scaled_bounds {n : ℕ} (hn : 0 < n) (e : ℤ) :
    (10 : ℚ) ^ ((digits n).length + e - 1) ≤ n * 10 ^ e ∧
      (n * 10 ^ e : ℚ) < 10 ^ ((digits n).length + e) := by
  obtain ⟨hlow, hhigh⟩ := digits_bounds hn
  have hpos : 0 < (digits n).length := Nat.length_toDigits_pos
  have hlow' : (10 : ℚ) ^ ((digits n).length - 1 : ℤ) ≤ n := by
    rw [← Nat.cast_pred hpos, zpow_natCast]
    exact_mod_cast hlow
  have hhigh' : (n : ℚ) < 10 ^ ((digits n).length : ℤ) := by
    rw [zpow_natCast]
    exact_mod_cast hhigh
  have hscale : (0 : ℚ) < 10 ^ e := by positivity
  constructor
  · rw [add_sub_right_comm, zpow_add₀ (by norm_num)]
    exact mul_le_mul_of_nonneg_right hlow' hscale.le
  · rw [zpow_add₀ (by norm_num)]
    exact mul_lt_mul_of_pos_right hhigh' hscale

theorem nearest?_of_bounds (negative : Bool) {num den : ℕ} (hden : 0 < den)
    (hlow : (10 : ℚ) ^ (-28 : ℤ) ≤ num / den) (hhigh : (num / den : ℚ) < 10 ^ (29 : ℤ)) :
    ∃ x, nearest? negative num den = some x ∧ x.negative = negative ∧ x.IsNormal ∧
      x.Covers (num / den) := by
  have hden' : (0 : ℚ) < den := by exact_mod_cast hden
  have hlow' : den ≤ num * 10 ^ 28 := by
    rw [zpow_neg, ← one_div, div_le_div_iff₀ (by positivity) hden', one_mul] at hlow
    exact_mod_cast hlow
  have hhigh' : num < 10 ^ 29 * den := by
    rw [div_lt_iff₀ hden'] at hhigh
    exact_mod_cast hhigh
  have hgrow {k m : ℕ} (h : k ≤ m) : 2 ^ k ≤ 2 ^ m := Nat.pow_le_pow_right (by decide) h
  have hsmall := hgrow (show 150 ≤ 1074 by decide)
  have hlarge := hgrow (show 100 ≤ 1023 by decide)
  have hsplit := two_pow_add (k := 1023) (m := 1074) (n := 2097) rfl
  refine nearest?_spec negative hden ?_ ?_
  · calc 2 ^ 52 * den
      _ ≤ 2 ^ 52 * (num * 10 ^ 28) := Nat.mul_le_mul_left _ hlow'
      _ = num * (2 ^ 52 * 10 ^ 28) := by ring
      _ ≤ num * 2 ^ 150 := Nat.mul_le_mul_left _ (by norm_num)
      _ ≤ num * 2 ^ 1074 := Nat.mul_le_mul_left _ hsmall
  · have hle : 10 ^ 29 ≤ 2 ^ 1023 := (show 10 ^ 29 ≤ 2 ^ 100 by norm_num).trans hlarge
    have hpos := (show 0 < 2 ^ 150 by norm_num).trans_le hsmall
    rw [hsplit]
    generalize 2 ^ 1023 = k at *
    generalize 2 ^ 1074 = m at *
    rw [Nat.mul_right_comm]
    exact Nat.mul_lt_mul_of_pos_right (hhigh'.trans_le (Nat.mul_le_mul_right den hle)) hpos

end Verdict.Binary64
