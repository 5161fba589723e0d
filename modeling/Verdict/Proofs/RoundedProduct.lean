import Mathlib.Algebra.Order.Field.Basic
import Mathlib.Tactic.Linarith
import Verdict.Proofs.DecimalValue
import Verdict.Proofs.NearestEven

/-!
# The rounding of a product

A product of decimals is rounded half to even, to the most places that the limits of a decimal
allow. It overflows only where the rounded product is too large even without places. No decimal
lies strictly between a value and its rounding, so rounding can carry a value onto a decimal but
never past one.
-/

namespace Verdict

namespace Decimal

/-- The decimal is the value rounded half to even, with so many places that no more of them would
give another decimal. -/
structure IsRounding (d : Decimal) (x : ℚ) : Prop where
  nearest : NearestEven d.signed (x * 10 ^ d.scale)
  finest : ∀ places n, d.scale < places → places ≤ 28 → NearestEven n (x * 10 ^ places) →
    |n| < 2 ^ 96 → (n : ℚ) / 10 ^ places = d.value

variable {d a b : Decimal} {x : ℚ}

theorem value_mul_pow (d : Decimal) : d.value * 10 ^ d.scale = d.signed :=
  div_mul_cancel₀ _ (by positivity)

theorem abs_signed_lt (d : Decimal) : |d.signed| < 2 ^ 96 := by
  have hlt := d.coefficient_lt
  rw [Int.abs_eq_natAbs, natAbs_signed]
  exact_mod_cast hlt

theorem abs_value_le (d : Decimal) : |d.value| ≤ (|d.signed| : ℤ) := by
  have hpow : (1 : ℚ) ≤ 10 ^ d.scale := one_le_pow₀ (by norm_num)
  rw [value, abs_div, abs_of_pos (show (0 : ℚ) < 10 ^ d.scale by positivity), Int.cast_abs]
  exact div_le_self (abs_nonneg _) hpow

theorem IsRounding.eq_of_nearest (h : d.IsRounding x) {places : ℕ} {n : ℤ}
    (hle : d.scale ≤ places) (hplaces : places ≤ 28) (hn : NearestEven n (x * 10 ^ places))
    (hfits : |n| < 2 ^ 96) : (n : ℚ) / 10 ^ places = d.value := by
  rcases Nat.eq_or_lt_of_le hle with rfl | hlt
  · rw [hn.unique h.nearest, value]
  · exact h.finest places n hlt hplaces hn hfits

theorem IsRounding.value_unique (ha : a.IsRounding x) (hb : b.IsRounding x) :
    a.value = b.value := by
  rcases Nat.le_total a.scale b.scale with hle | hle
  · exact (ha.eq_of_nearest hle b.scale_le hb.nearest b.abs_signed_lt).symm
  · exact hb.eq_of_nearest hle a.scale_le ha.nearest a.abs_signed_lt

/-! ## Nothing between a value and its rounding -/

def opposite (d : Decimal) : Decimal :=
  { d with negative := !d.negative }

@[simp] theorem scale_opposite (d : Decimal) : d.opposite.scale = d.scale := rfl

@[simp] theorem signed_opposite (d : Decimal) : d.opposite.signed = -d.signed := by
  cases h : d.negative <;> simp [opposite, signed, h]

@[simp] theorem value_opposite (d : Decimal) : d.opposite.value = -d.value := by
  rw [value, value, signed_opposite, scale_opposite]
  push_cast
  rw [neg_div]

theorem IsRounding.opposite (h : d.IsRounding x) : d.opposite.IsRounding (-x) := by
  constructor
  · rw [signed_opposite, scale_opposite, neg_mul]
    exact h.nearest.neg
  · intro places n hlt hplaces hn hfits
    have hn' : NearestEven (-n) (x * 10 ^ places) := by
      have hneg := hn.neg
      rwa [neg_mul, neg_neg] at hneg
    have hvalue := h.finest places (-n) hlt hplaces hn' (by rwa [abs_neg])
    rw [value_opposite, ← hvalue]
    push_cast
    rw [neg_div, neg_neg]

theorem IsRounding.le_add_half (h : d.IsRounding x) : x ≤ d.value + 1 / 2 := by
  have hpow : (1 : ℚ) ≤ 10 ^ d.scale := one_le_pow₀ (by norm_num)
  have hnear := h.nearest.le_add_half
  rw [← d.value_mul_pow] at hnear
  refine le_of_mul_le_mul_right ?_ (show (0 : ℚ) < 10 ^ d.scale by positivity)
  linarith

/-- With all places but the last one of a decimal that the rounding stays below, the coefficient
of the value still fits. -/
theorem IsRounding.coefficient_fits (h : d.IsRounding x) (hlt : d.value < a.value)
    (hle : a.value ≤ x) {places : ℕ} (hplaces : a.scale = places + 1) {n : ℤ}
    (hn : NearestEven n (x * 10 ^ places)) : |n| < 2 ^ 96 := by
  have hpow : (0 : ℚ) < 10 ^ places := by positivity
  have hpow' : (10 : ℚ) ^ places ≤ 10 ^ 27 :=
    pow_le_pow_right₀ (by norm_num) (by have := a.scale_le; omega)
  have ha : a.value * 10 ^ places * 10 = a.signed := by
    rw [← a.value_mul_pow, hplaces, pow_succ, mul_assoc]
  obtain ⟨hlower, hupper⟩ := abs_lt.mp a.abs_signed_lt
  have hlower' : (-2 ^ 96 : ℚ) < a.signed := by exact_mod_cast hlower
  have hupper' : (a.signed : ℚ) < 2 ^ 96 := by exact_mod_cast hupper
  have hbelow : a.value * 10 ^ places ≤ x * 10 ^ places := by gcongr
  have habove : x * 10 ^ places ≤ (a.value + 1 / 2) * 10 ^ places := by
    gcongr
    linarith [h.le_add_half]
  have hn₁ := hn.le_add_half
  have hn₂ := hn.sub_half_le
  have hbounds : (-2 ^ 96 : ℚ) < n ∧ (n : ℚ) < 2 ^ 96 := by
    constructor <;> linarith
  rw [abs_lt]
  exact_mod_cast hbounds

theorem IsRounding.not_le_of_finer (h : d.IsRounding x) (hlt : d.value < a.value)
    (hfiner : d.scale < a.scale) : ¬a.value ≤ x := by
  intro hle
  have hscaled : d.value * 10 ^ a.scale < a.signed := by
    rw [← a.value_mul_pow]
    gcongr
  have hscaled' : (a.signed : ℚ) ≤ x * 10 ^ a.scale := by
    rw [← a.value_mul_pow]
    gcongr
  obtain ⟨places, hplaces⟩ : ∃ places, a.scale = places + 1 := ⟨a.scale - 1, by omega⟩
  have hmore := a.scale_le
  -- Without the last place of `a` the rounding is still `d`.
  obtain ⟨n, hn⟩ := exists_nearestEven (x * 10 ^ places)
  obtain ⟨m, hm⟩ := exists_nearestEven (x * 10 ^ a.scale)
  have hvalue : (n : ℚ) / 10 ^ places = d.value :=
    h.eq_of_nearest (by omega) (by omega) hn (h.coefficient_fits hlt hle hplaces hn)
  have hten : d.value * 10 ^ a.scale = (10 * n : ℤ) := by
    rw [← hvalue, hplaces, pow_succ]
    push_cast
    field_simp
  have hstep : 10 * n < a.signed := by
    rw [hten] at hscaled
    exact_mod_cast hscaled
  have hround : a.signed ≤ m := hm.le_of_le hscaled'
  obtain ⟨hlower, hupper⟩ := abs_lt.mp a.abs_signed_lt
  by_cases hfits : |m| < 2 ^ 96
  · have hsame := h.eq_of_nearest hfiner.le a.scale_le hm hfits
    rw [← hsame, div_mul_cancel₀ _ (by positivity)] at hten
    have hten : m = 10 * n := by exact_mod_cast hten
    omega
  -- The first coefficient that does not fit ends in a 6, which is not rounded down.
  · have hlarge : 2 ^ 96 ≤ m := by
      rw [abs_lt] at hfits
      omega
    have hnear : 2 * m ≤ 20 * n + 11 := by
      have hupper := hn.le_add_half
      have hlower := hm.sub_half_le
      rw [hplaces, pow_succ, ← mul_assoc] at hlower
      have hnear : (2 * m : ℚ) ≤ 20 * n + 11 := by linarith
      exact_mod_cast hnear
    omega

theorem IsRounding.not_le_of_coarser (h : d.IsRounding x) (hlt : d.value < a.value)
    (hcoarser : a.scale ≤ d.scale) : ¬a.value ≤ x := by
  intro hle
  -- The coefficient of `a` with as many places as `d` has is above that of `d`.
  obtain ⟨m, hm⟩ : ∃ m : ℤ, a.value * 10 ^ d.scale = m := by
    refine ⟨a.signed * 10 ^ (d.scale - a.scale), ?_⟩
    push_cast
    rw [← a.value_mul_pow, mul_assoc, ← pow_add, Nat.add_sub_cancel' hcoarser]
  have hround : m ≤ d.signed := h.nearest.le_of_le (by rw [← hm]; gcongr)
  have hstep : (d.signed : ℚ) < m := by
    rw [← hm, ← d.value_mul_pow]
    gcongr
  exact absurd hround (not_le.mpr (by exact_mod_cast hstep))

/-- A decimal above the rounding of a value is above the value. -/
theorem IsRounding.lt_of_lt (h : d.IsRounding x) (hlt : d.value < a.value) : x < a.value := by
  rcases Nat.lt_or_ge d.scale a.scale with hfiner | hcoarser
  · exact not_le.mp (h.not_le_of_finer hlt hfiner)
  · exact not_le.mp (h.not_le_of_coarser hlt hcoarser)

theorem IsRounding.gt_of_gt (h : d.IsRounding x) (hlt : a.value < d.value) : a.value < x := by
  have hopposite := h.opposite.lt_of_lt (a := a.opposite) (by simpa using hlt)
  simpa using hopposite

/-- A decimal is at most the rounding of a value if it is at most the value, or is the rounding. -/
theorem IsRounding.le_iff (h : d.IsRounding x) :
    a.value ≤ d.value ↔ a.value ≤ x ∨ a.value = d.value := by
  constructor
  · intro hle
    rcases hle.lt_or_eq with hlt | heq
    · exact Or.inl (h.gt_of_gt hlt).le
    · exact Or.inr heq
  · rintro (hle | heq)
    · by_contra hlt
      exact absurd (h.lt_of_lt (not_le.mp hlt)) (not_lt.mpr hle)
    · exact heq.le

theorem IsRounding.le_of_scale_le {y : ℚ} (ha : a.IsRounding x) (hb : b.IsRounding y) (hxy : x ≤ y)
    (hscale : a.scale ≤ b.scale) : a.value ≤ b.value := by
  by_contra hlt
  -- With the places of `b` the smaller value is rounded to the coefficient of `b` as well.
  obtain ⟨n, hn⟩ := exists_nearestEven (x * 10 ^ b.scale)
  have hle : n ≤ b.signed := hn.mono hb.nearest (by gcongr)
  have hge : b.signed ≤ n := by
    refine hn.le_of_le ?_
    rw [← b.value_mul_pow]
    have hbelow : b.value < x := ha.gt_of_gt (not_le.mp hlt)
    gcongr
  obtain rfl : n = b.signed := le_antisymm hle hge
  exact hlt (ha.eq_of_nearest hscale b.scale_le hn b.abs_signed_lt).ge

/-- Rounding keeps the order, also where the two values keep a different number of places. -/
theorem IsRounding.mono {y : ℚ} (ha : a.IsRounding x) (hb : b.IsRounding y) (hxy : x ≤ y) :
    a.value ≤ b.value := by
  rcases Nat.le_total a.scale b.scale with hscale | hscale
  · exact ha.le_of_scale_le hb hxy hscale
  · have hopposite := hb.opposite.le_of_scale_le ha.opposite (neg_le_neg hxy) hscale
    simpa using hopposite

/-! ## Products -/

def withSign (negative : Bool) (n : ℕ) : ℤ :=
  if negative then -n else n

@[simp] theorem natAbs_withSign (negative : Bool) (n : ℕ) : (withSign negative n).natAbs = n := by
  cases negative <;> simp [withSign]

@[simp] theorem abs_withSign (negative : Bool) (n : ℕ) : |withSign negative n| = n := by
  rw [Int.abs_eq_natAbs, natAbs_withSign]

theorem of_ofParts?_eq_some {negative : Bool} {coefficient scale : ℕ}
    (h : ofParts? negative coefficient scale = some d) :
    d.scale = scale ∧ d.signed = withSign negative coefficient := by
  rw [ofParts?] at h
  split at h
  · cases h
    exact ⟨rfl, signed_ofParts ..⟩
  · cases h

/-- The first rounding that fits is taken. -/
theorem of_fit?_eq_some {negative : Bool} {product scale drop more : ℕ}
    (h : fit? negative product scale drop more = some d) :
    ∃ k, drop ≤ k ∧ k ≤ drop + more ∧ d.scale = scale - k ∧
      d.signed = withSign negative (Numeric.divHalfEven product (10 ^ k)) ∧
      ∀ j, drop ≤ j → j < k → 2 ^ 96 ≤ Numeric.divHalfEven product (10 ^ j) := by
  induction more generalizing drop with
  | zero =>
    obtain ⟨hscale, hsigned⟩ := of_ofParts?_eq_some h
    exact ⟨drop, le_rfl, le_rfl, hscale, hsigned, fun j hle hlt => absurd hlt (not_lt.mpr hle)⟩
  | succ more ih =>
    rw [fit?] at h
    split at h
    · obtain ⟨hscale, hsigned⟩ := of_ofParts?_eq_some h
      exact ⟨drop, le_rfl, by omega, hscale, hsigned, fun j hle hlt => absurd hlt (not_lt.mpr hle)⟩
    · rename_i hlarge
      obtain ⟨k, hle, hle', hscale, hsigned, hbefore⟩ := ih h
      refine ⟨k, by omega, by omega, hscale, hsigned, fun j hj hlt => ?_⟩
      rcases Nat.eq_or_lt_of_le hj with rfl | hj
      · exact not_lt.mp hlarge
      · exact hbefore j hj hlt

/-- A product that does not fit is too large even if all its places are dropped. -/
theorem of_fit?_eq_none {negative : Bool} {product scale drop more : ℕ}
    (hscale : scale ≤ drop + 28) (h : fit? negative product scale drop more = none) :
    2 ^ 96 ≤ Numeric.divHalfEven product (10 ^ (drop + more)) := by
  induction more generalizing drop with
  | zero =>
    rw [fit?, ofParts?] at h
    split at h
    · cases h
    · rename_i hlarge
      simp only [Nat.add_zero]
      omega
  | succ more ih =>
    rw [fit?] at h
    split at h
    · rename_i hfits
      rw [ofParts?, dif_pos ⟨hfits, by omega⟩] at h
      cases h
    · have hlarge := ih (by omega) h
      rwa [Nat.add_right_comm, Nat.add_assoc] at hlarge

/-- The digits that are dropped from a product are rounded half to even. -/
theorem nearestEven_dropped (negative : Bool) (product : ℕ) {scale k : ℕ} (hk : k ≤ scale) :
    NearestEven (withSign negative (Numeric.divHalfEven product (10 ^ k)))
      (withSign negative product / 10 ^ scale * 10 ^ (scale - k)) := by
  have hpow : (10 : ℚ) ^ scale = (10 ^ k : ℕ) * 10 ^ (scale - k) := by
    push_cast
    rw [← pow_add, Nat.add_sub_cancel' hk]
  have h := nearestEven_divHalfEven product (show 0 < 10 ^ k by positivity)
  rw [hpow, div_mul_eq_mul_div, mul_div_mul_right _ _ (by positivity)]
  cases negative
  · exact h
  · have hneg := h.neg
    rw [← neg_div] at hneg
    simpa [withSign] using hneg

/-- With all its places and more, a product is a whole number of units. -/
theorem withSign_mul_pow (negative : Bool) (product : ℕ) {scale places : ℕ}
    (h : scale ≤ places) :
    (withSign negative product : ℚ) / 10 ^ scale * 10 ^ places =
      (withSign negative product * 10 ^ (places - scale) : ℤ) := by
  obtain ⟨more, rfl⟩ := Nat.exists_eq_add_of_le h
  rw [Nat.add_sub_cancel_left, pow_add]
  push_cast
  field_simp

/-- Fewer digits than `k` are dropped only from a product that does not fit with its places. -/
theorem finest_of_fit? {negative : Bool} {product scale k : ℕ} (hk : k ≤ scale)
    (hscale : d.scale = scale - k)
    (hsigned : d.signed = withSign negative (Numeric.divHalfEven product (10 ^ k)))
    (hbefore : ∀ j, scale - 28 ≤ j → j < k → 2 ^ 96 ≤ Numeric.divHalfEven product (10 ^ j))
    {places : ℕ} {n : ℤ} (hlt : scale - k < places) (hplaces : places ≤ 28)
    (hn : NearestEven n (withSign negative product / 10 ^ scale * 10 ^ places))
    (hfits : |n| < 2 ^ 96) : (n : ℚ) / 10 ^ places = d.value := by
  rcases Nat.le_total places scale with hle | hle
  · have hlarge := hbefore (scale - places) (by omega) (by omega)
    have hn' := nearestEven_dropped negative product (show scale - places ≤ scale by omega)
    rw [Nat.sub_sub_self hle] at hn'
    rw [hn.unique hn', abs_withSign] at hfits
    omega
  · have hwhole : Numeric.divHalfEven product (10 ^ 0) = product := by
      have hone := Numeric.divHalfEven_mul product 1 one_pos
      rwa [Nat.mul_one] at hone
    have hunits := withSign_mul_pow negative product hle
    rw [hunits] at hn
    have hn : n = withSign negative product * 10 ^ (places - scale) :=
      hn.unique (NearestEven.intCast _)
    rcases Nat.eq_zero_or_pos k with rfl | hpos
    · rw [value, hsigned, hscale, hwhole, Nat.sub_zero, div_eq_iff (by positivity), hn, ← hunits]
    · have hlarge := hbefore 0 (by omega) hpos
      rw [hwhole] at hlarge
      have hpow : (1 : ℤ) ≤ 10 ^ (places - scale) := one_le_pow₀ (by norm_num)
      have hmul : (product : ℤ) * 1 ≤ product * 10 ^ (places - scale) := by gcongr
      rw [hn, abs_mul, abs_withSign, abs_of_pos (by positivity)] at hfits
      omega

theorem isRounding_of_fit? {negative : Bool} {product scale : ℕ}
    (h : fit? negative product scale (scale - 28) (scale - (scale - 28)) = some d) :
    d.IsRounding (withSign negative product / 10 ^ scale) := by
  obtain ⟨k, hdrop, hk, hscale, hsigned, hbefore⟩ := of_fit?_eq_some h
  have hk : k ≤ scale := by omega
  constructor
  · rw [hscale, hsigned]
    exact nearestEven_dropped negative product hk
  · intro places n hlt hplaces hn hfits
    rw [hscale] at hlt
    exact finest_of_fit? hk hscale hsigned hbefore hlt hplaces hn hfits

theorem isRounding_zero {x : ℚ} (h : |x| * 10 ^ 28 < 1 / 2) : zero.IsRounding x := by
  have hnear : ∀ places ≤ 28, NearestEven 0 (x * 10 ^ places) := by
    intro places hplaces
    have hlt : |x * 10 ^ places| < 1 / 2 := by
      refine lt_of_le_of_lt ?_ h
      rw [abs_mul, abs_of_pos (show (0 : ℚ) < 10 ^ places by positivity)]
      gcongr
      norm_num
    constructor
    · simpa using hlt.le
    · intro htie
      rw [Int.cast_zero, sub_zero] at htie
      exact absurd htie hlt.ne
  constructor
  · exact hnear 0 (by norm_num)
  · intro places n hlt hplaces hn hfits
    rw [hn.unique (hnear places hplaces)]
    simp [value, zero, ofParts, signed]

theorem value_mul_value (a b : Decimal) : a.value * b.value =
    withSign (a.negative != b.negative) (a.coefficient * b.coefficient) /
      10 ^ (a.scale + b.scale) := by
  rw [withSign, ← signed_mul_signed, value, value, pow_add, div_mul_div_comm]
  push_cast
  rfl

/-- The products that are zero by rule are too small for a place of their own. -/
theorem abs_value_mul_value_lt (h : a.coefficient = 0 ∨ b.coefficient = 0 ∨
    (isNarrow a b = true ∧ 47 < a.scale + b.scale)) :
    |a.value * b.value| * 10 ^ 28 < 1 / 2 := by
  have habs : |a.value * b.value| =
      (a.coefficient * b.coefficient : ℕ) / 10 ^ (a.scale + b.scale) := by
    rw [value_mul_value, abs_div, abs_of_pos (show (0 : ℚ) < 10 ^ (a.scale + b.scale) by positivity),
      ← Int.cast_abs, abs_withSign, Int.cast_natCast]
  rw [habs]
  rcases h with h | h | ⟨hnarrow, hplaces⟩
  · simp [h]
  · simp [h]
  · simp only [isNarrow, Bool.and_eq_true, decide_eq_true_eq] at hnarrow
    have hproduct : a.coefficient * b.coefficient < 2 ^ 32 * 2 ^ 32 :=
      Nat.mul_lt_mul'' hnarrow.1 hnarrow.2
    have hproduct : ((a.coefficient * b.coefficient : ℕ) : ℚ) < 2 ^ 32 * 2 ^ 32 := by
      exact_mod_cast hproduct
    have hpow : (10 : ℚ) ^ 48 ≤ 10 ^ (a.scale + b.scale) :=
      pow_le_pow_right₀ (by norm_num) hplaces
    rw [div_mul_eq_mul_div, div_lt_iff₀ (by positivity)]
    linarith

/-- Any other product is the first rounding that fits, with the sign of the product. -/
theorem mul?_eq (h : ¬(a.coefficient = 0 ∨ b.coefficient = 0 ∨
    (isNarrow a b = true ∧ 47 < a.scale + b.scale))) :
    a.mul? b = if isNarrow a b then fit? (a.negative != b.negative)
        (a.coefficient * b.coefficient) (a.scale + b.scale) (a.scale + b.scale - 28)
        (a.scale + b.scale - (a.scale + b.scale - 28))
      else (fit? (a.negative != b.negative) (a.coefficient * b.coefficient) (a.scale + b.scale)
        (a.scale + b.scale - 28) (a.scale + b.scale - (a.scale + b.scale - 28))).map
          fun d => { d with negative := a.negative != b.negative } := by
  simp only [mul?, if_neg h]

theorem IsRounding.congr {e : Decimal} (h : e.IsRounding x) (hsigned : d.signed = e.signed)
    (hscale : d.scale = e.scale) : d.IsRounding x := by
  have hvalue : d.value = e.value := by rw [value, value, hsigned, hscale]
  constructor
  · rw [hsigned, hscale]
    exact h.nearest
  · rw [hscale, hvalue]
    exact h.finest

theorem isRounding_of_mul? (h : a.mul? b = some d) : d.IsRounding (a.value * b.value) := by
  by_cases hzero : a.coefficient = 0 ∨ b.coefficient = 0 ∨
      (isNarrow a b = true ∧ 47 < a.scale + b.scale)
  · simp only [mul?, if_pos hzero] at h
    cases h
    exact isRounding_zero (abs_value_mul_value_lt hzero)
  · rw [mul?_eq hzero] at h
    rw [value_mul_value]
    split at h
    · exact isRounding_of_fit? h
    · obtain ⟨e, he, rfl⟩ := Option.map_eq_some_iff.mp h
      refine (isRounding_of_fit? he).congr ?_ rfl
      obtain ⟨k, -, -, -, hsigned, -⟩ := of_fit?_eq_some he
      have hcoefficient : e.coefficient =
          Numeric.divHalfEven (a.coefficient * b.coefficient) (10 ^ k) := by
        rw [← natAbs_signed, hsigned, natAbs_withSign]
      rw [hsigned, ← hcoefficient]
      rfl

/-- A product overflows only if it is too large even when rounded to no places. -/
theorem of_mul?_eq_none (h : a.mul? b = none) :
    ∃ n, NearestEven n (a.value * b.value) ∧ 2 ^ 96 ≤ |n| := by
  have hzero : ¬(a.coefficient = 0 ∨ b.coefficient = 0 ∨
      (isNarrow a b = true ∧ 47 < a.scale + b.scale)) := by
    intro hzero
    simp only [mul?, if_pos hzero] at h
    cases h
  have hfit : fit? (a.negative != b.negative) (a.coefficient * b.coefficient) (a.scale + b.scale)
      (a.scale + b.scale - 28) (a.scale + b.scale - (a.scale + b.scale - 28)) = none := by
    rw [mul?_eq hzero] at h
    split at h
    · exact h
    · exact Option.map_eq_none_iff.mp h
  have hlarge := of_fit?_eq_none (by omega) hfit
  have hnear := nearestEven_dropped (a.negative != b.negative) (a.coefficient * b.coefficient)
    (le_refl (a.scale + b.scale))
  rw [Nat.sub_self, pow_zero, mul_one, ← value_mul_value] at hnear
  refine ⟨_, hnear, ?_⟩
  rw [Nat.add_sub_cancel' (Nat.sub_le _ _)] at hlarge
  rw [abs_withSign]
  exact_mod_cast hlarge

/-- A product that is within the bounds of a coefficient does not overflow. -/
theorem exists_mul?_of_abs_le {m : ℤ} (h : |a.value * b.value| ≤ m) (hm : m < 2 ^ 96) :
    ∃ d, a.mul? b = some d ∧ d.IsRounding (a.value * b.value) := by
  cases hproduct : a.mul? b with
  | some d => exact ⟨d, rfl, isRounding_of_mul? hproduct⟩
  | none =>
    obtain ⟨n, hn, hlarge⟩ := of_mul?_eq_none hproduct
    obtain ⟨hlower, hupper⟩ := abs_le.mp h
    have hn₁ : -m ≤ n := hn.le_of_le (by exact_mod_cast hlower)
    have hn₂ : -m ≤ -n := hn.neg.le_of_le (by push_cast; linarith)
    have hfits : |n| ≤ m := abs_le.mpr ⟨hn₁, by omega⟩
    omega

/-- A product with a factor of at most one does not overflow. -/
theorem exists_mul?_of_abs_le_one (a : Decimal) (h : |b.value| ≤ 1) :
    ∃ d, a.mul? b = some d ∧ d.IsRounding (a.value * b.value) := by
  refine exists_mul?_of_abs_le ?_ a.abs_signed_lt
  calc |a.value * b.value| = |a.value| * |b.value| := abs_mul a.value b.value
    _ ≤ |a.value| := mul_le_of_le_one_right (abs_nonneg _) h
    _ ≤ (|a.signed| : ℤ) := a.abs_value_le

/-- A value that is that of a decimal is not rounded. -/
theorem IsRounding.value_eq (h : d.IsRounding a.value) : d.value = a.value := by
  rcases lt_trichotomy d.value a.value with hlt | heq | hgt
  · exact absurd (h.lt_of_lt hlt) (lt_irrefl _)
  · exact heq
  · exact absurd (h.gt_of_gt hgt) (lt_irrefl _)

theorem mul?_of_isExact (h : IsExact (a.value * b.value)) :
    ∃ d, a.mul? b = some d ∧ d.value = a.value * b.value := by
  obtain ⟨e, he⟩ := h
  obtain ⟨d, hd, hrounded⟩ := exists_mul?_of_abs_le (he ▸ e.abs_value_le) e.abs_signed_lt
  rw [← he] at hrounded ⊢
  exact ⟨d, hd, hrounded.value_eq⟩

end Decimal

end Verdict
