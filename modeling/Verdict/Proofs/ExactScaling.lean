import Verdict.Proofs.NearestBinary

/-!
# Scaling without loss

A whole number of 53 bits is a number of the format, and so are the powers of ten up to the
twenty-second one. A number that is scaled by such a power is rounded once, so the result covers
the exact product or quotient.
-/

namespace Verdict.Binary64

variable {x y : Binary64}

/-- A shifted number of 53 bits is the nearest one to itself. -/
theorem nearest?_exact (negative : Bool) {m j : ℕ} (hm : 0 < m) (hlt : m < 2 ^ 53) (hj : j ≤ 900) :
    ∃ x, nearest? negative (m * 2 ^ j) 1 = some x ∧ x.negative = negative ∧
      x.size = m * 2 ^ j := by
  have hquantum := mul_quantum
  have hgrow {k : ℕ} (hk : 52 ≤ k) : 2 ^ 52 ≤ 2 ^ k := Nat.pow_le_pow_right (by decide) hk
  have hlow : 2 ^ 52 * 1 ≤ m * 2 ^ j * 2 ^ 1074 :=
    (hgrow (show 52 ≤ 1074 by decide)).trans (Nat.le_mul_of_pos_left _ (by positivity))
  obtain ⟨hge, hlt'⟩ := shifted_bounds Nat.one_pos hlow
  rw [nearest?]
  generalize (m * 2 ^ j * 2 ^ 1074 / 1).log2 - 52 = s at *
  have hpow : m * 2 ^ j * 2 ^ 1074 = m * 2 ^ (j + 1074) := by rw [Nat.mul_assoc, Nat.pow_add]
  rw [Nat.one_mul, hpow] at hge hlt'
  -- the shift does not reach beyond the zeros at the end
  have hshift : s ≤ j + 1074 := by
    have hbound : 2 ^ (52 + s) < 2 ^ (53 + (j + 1074)) := by
      rw [Nat.pow_add, Nat.pow_add 2 53]
      exact hge.trans_lt (Nat.mul_lt_mul_of_pos_right hlt (by positivity))
    have := (Nat.pow_lt_pow_iff_right (by decide)).mp hbound
    omega
  obtain ⟨r, hr⟩ := Nat.exists_eq_add_of_le hshift
  have hsplit : m * 2 ^ (j + 1074) = m * 2 ^ r * 2 ^ s := by
    rw [hr, Nat.pow_add, Nat.mul_assoc, Nat.mul_comm (2 ^ s)]
  have hround : Numeric.divHalfEven (m * 2 ^ j * 2 ^ 1074) (1 * 2 ^ s) = m * 2 ^ r := by
    rw [hpow, hsplit, Nat.one_mul]
    exact Numeric.divHalfEven_mul _ _ (by positivity)
  have hfits : m * 2 ^ r < 2 ^ 53 := by
    rw [hsplit] at hlt'
    exact Nat.lt_of_mul_lt_mul_right hlt'
  have hne : (m * 2 ^ r == 2 ^ 53) = false := beq_eq_false_iff_ne.mpr hfits.ne
  refine ⟨⟨negative, m * 2 ^ r, s⟩, ?_, rfl, ?_⟩
  · simp only [hround, hne]
    exact if_pos (show s ≤ 2045 by omega)
  · rw [size, quanta, ← hsplit, ← hpow, Nat.cast_mul, mul_assoc, hquantum]
    push_cast
    ring

theorem nearest?_zero (negative : Bool) (den : ℕ) :
    nearest? negative 0 den = some ⟨negative, 0, 0⟩ := by
  have hround (d : ℕ) : Numeric.divHalfEven 0 d = 0 := by simp [Numeric.divHalfEven]
  simp only [nearest?, Nat.zero_mul, Nat.zero_div, hround]
  rfl

/-- The powers of ten up to the twenty-second one are numbers of the format. -/
theorem exists_power {k : ℕ} (hk : k ≤ 22) :
    ∃ p, nearest? false (10 ^ k) 1 = some p ∧ p.negative = false ∧ p.size = 10 ^ k := by
  have hfive : 5 ^ k < 2 ^ 53 := (Nat.pow_le_pow_right (by decide) hk).trans_lt (by norm_num)
  obtain ⟨p, hp, hsign, hsize⟩ := nearest?_exact false (Nat.pow_pos (by decide)) hfive
    (show k ≤ 900 by omega)
  rw [← Nat.mul_pow] at hp
  refine ⟨p, hp, hsign, ?_⟩
  rw [hsize]
  push_cast
  rw [← mul_pow]
  norm_num

theorem size_mul (x y : Binary64) :
    ((x.quanta * y.quanta : ℕ) / (2 ^ 2148 : ℕ) : ℚ) = x.size * y.size := by
  have hquantum := mul_quantum
  have hsquare := two_pow_add (k := 1074) (m := 1074) (n := 2148) rfl
  rw [hsquare, size, size]
  generalize 2 ^ 1074 = k at *
  rw [eq_one_div_of_mul_eq_one_right hquantum]
  push_cast
  ring

theorem size_div (x y : Binary64) : (x.quanta / y.quanta : ℚ) = x.size / y.size := by
  rw [size, size, mul_div_mul_right _ _ quantum_pos.ne']

/-- A number is scaled by one rounding of the exact result. -/
theorem scale?_eq (x : Binary64) {e : ℤ} (he : e.natAbs ≤ 22) :
    ∃ num den, x.scale? e = nearest? x.negative num den ∧ 0 < den ∧
      (num / den : ℚ) = x.size * 10 ^ e := by
  obtain ⟨p, hp, hsign, hsize⟩ := exists_power he
  have hnegative : (x.negative != p.negative) = x.negative := by rw [hsign, Bool.bne_false]
  rw [scale?, if_pos (show e.natAbs ≤ 308 by omega), hp]
  simp only [Option.bind_eq_bind, Option.bind_some, mul?, div?, hnegative]
  split
  · rename_i hup
    obtain ⟨k, rfl⟩ := Int.eq_ofNat_of_zero_le hup
    refine ⟨_, _, rfl, by positivity, ?_⟩
    rw [size_mul, hsize, zpow_natCast, Int.natAbs_natCast]
  · rename_i hdown
    refine ⟨_, _, rfl, ?_, ?_⟩
    · refine Nat.pos_of_ne_zero fun hzero => ?_
      rw [size, hzero, Nat.cast_zero, zero_mul] at hsize
      exact absurd hsize (by positivity)
    · obtain ⟨k, rfl⟩ : ∃ k : ℕ, e = -k := ⟨e.natAbs, by omega⟩
      rw [size_div, hsize, zpow_neg, zpow_natCast, Int.natAbs_neg, Int.natAbs_natCast,
        div_eq_mul_inv]

theorem ofDecimal?_zero (negative : Bool) {e : ℤ} (he : e.natAbs ≤ 22) :
    ofDecimal? negative 0 e = some ⟨negative, 0, 0⟩ := by
  obtain ⟨num, den, hscale, hden, hvalue⟩ := scale?_eq ⟨negative, 0, 0⟩ he
  have hden' : (0 : ℚ) < den := by exact_mod_cast hden
  have hnum : num = 0 := by
    rw [size, quanta, Nat.zero_mul, Nat.cast_zero, zero_mul, zero_mul, div_eq_zero_iff] at hvalue
    exact_mod_cast hvalue.resolve_right hden'.ne'
  rw [ofDecimal?, nearest?_zero]
  simp only [Option.bind_eq_bind, Option.bind_some]
  rw [hscale, hnum, nearest?_zero]

/-- A positive value of a decimal is rounded to a number, if neither its digits nor its power of ten
are rounded before. -/
theorem ofDecimal?_spec (negative : Bool) {n : ℕ} (hn : 0 < n) (hlt : n < 2 ^ 53) {e : ℤ}
    (he : e.natAbs ≤ 22) (hlow : (10 : ℚ) ^ (-28 : ℤ) ≤ n * 10 ^ e)
    (hhigh : (n * 10 ^ e : ℚ) < 10 ^ (29 : ℤ)) :
    ∃ x, ofDecimal? negative n e = some x ∧ x.negative = negative ∧ x.IsNormal ∧
      x.Covers (n * 10 ^ e) := by
  obtain ⟨y, hy, hsign, hsize⟩ := nearest?_exact negative hn hlt (Nat.zero_le 900)
  rw [pow_zero, Nat.mul_one] at hy
  rw [pow_zero, mul_one] at hsize
  obtain ⟨num, den, hscale, hden, hvalue⟩ := y.scale?_eq he
  rw [hsize] at hvalue
  rw [ofDecimal?, hy]
  simp only [Option.bind_eq_bind, Option.bind_some]
  rw [hscale, hsign]
  rw [← hvalue] at hlow hhigh ⊢
  exact nearest?_of_bounds negative hden hlow hhigh

end Verdict.Binary64
