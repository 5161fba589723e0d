import Mathlib.Algebra.Order.Field.Power
import Verdict.Proofs.DecimalText
import Verdict.Proofs.RoundedProduct

/-!
# Reading without rounding

Digits that do not fit into a decimal are rounded away when a text is read. If the value of the text
is that of a decimal, all of them are zeros, and so nothing is lost. The same holds of a power of
ten that a decimal is multiplied by.
-/

namespace Verdict.Decimal

open Text

variable {negative : Bool} {n k coefficient scale : ℕ}

/-! ## Exact values -/

theorem withSign_mul (negative : Bool) (n k : ℕ) :
    withSign negative (n * k) = withSign negative n * k := by
  cases negative <;> simp [withSign]

theorem withSign_mul_congr {m : ℕ} {x y : ℚ} (h : (n * x : ℚ) = m * y) (negative : Bool) :
    (withSign negative n * x : ℚ) = withSign negative m * y := by
  cases negative <;> simpa [withSign] using h

/-- An exact value is a coefficient within the limits over a power of ten within the limits. -/
theorem exists_of_isExact_div (h : IsExact (withSign negative n / 10 ^ k : ℚ)) :
    ∃ m s, m < 2 ^ 96 ∧ s ≤ 28 ∧ m * 10 ^ k = n * 10 ^ s := by
  obtain ⟨d, hd⟩ := h
  refine ⟨d.coefficient, d.scale, d.coefficient_lt, d.scale_le, ?_⟩
  rw [value, div_eq_div_iff (by positivity) (by positivity)] at hd
  have hint : d.signed * 10 ^ k = withSign negative n * 10 ^ d.scale := by exact_mod_cast hd
  have habs := congrArg Int.natAbs hint
  simpa [Int.natAbs_mul, Int.natAbs_pow, natAbs_signed] using habs

theorem value_of_ofParts? (hc : coefficient < 2 ^ 96) (hs : scale ≤ 28) :
    ∃ d, ofParts? negative coefficient scale = some d ∧
      d.value = withSign negative coefficient / 10 ^ scale := by
  refine ⟨_, dif_pos ⟨hc, hs⟩, ?_⟩
  rw [value, signed_ofParts, scale_ofParts]
  rfl

/-- Digits beyond the last place, and digits that would make the coefficient too long, are zeros if
the value is exact. -/
theorem rest_eq_zero {places rest : ℕ} (hn : n = 10 ^ k * coefficient + rest)
    (hrest : rest < 10 ^ k) (h : IsExact (withSign negative n / 10 ^ (places + k) : ℚ))
    (hlimit : places = 28 ∨ 2 ^ 96 * 10 ^ k ≤ n * 10) : rest = 0 := by
  obtain ⟨m, s, hm, hs, heq⟩ := exists_of_isExact_div h
  have hle : s ≤ places := by
    rcases hlimit with rfl | hlong
    · exact hs
    by_contra hlt
    have hpow : 10 ^ (places + 1) ≤ 10 ^ s := Nat.pow_le_pow_right (by decide) (by omega)
    have hmul : m * 10 ^ (places + k) < 2 ^ 96 * 10 ^ (places + k) :=
      Nat.mul_lt_mul_of_pos_right hm (by positivity)
    have hgrow : n * 10 ^ (places + 1) ≤ n * 10 ^ s := Nat.mul_le_mul_left n hpow
    have hlong : 2 ^ 96 * 10 ^ k * 10 ^ places ≤ n * 10 * 10 ^ places :=
      Nat.mul_le_mul_right _ hlong
    have hleft : 2 ^ 96 * 10 ^ (places + k) = 2 ^ 96 * 10 ^ k * 10 ^ places := by ring
    have hright : n * 10 ^ (places + 1) = n * 10 * 10 ^ places := by ring
    omega
  have hdvd : 10 ^ k ∣ n := by
    have hsplit : m * 10 ^ (places + k) = m * 10 ^ (places - s) * 10 ^ k * 10 ^ s := by
      rw [show places + k = (places - s) + k + s by omega]
      ring
    rw [hsplit] at heq
    exact ⟨m * 10 ^ (places - s), by
      rw [← Nat.eq_of_mul_eq_mul_right (by positivity) heq, mul_comm]⟩
  rw [hn] at hdvd
  exact Nat.eq_zero_of_dvd_of_lt ((Nat.dvd_add_right (Dvd.intro _ rfl)).mp hdvd) hrest

theorem abs_value (d : Decimal) : |d.value| = d.coefficient / 10 ^ d.scale := by
  rw [value, abs_div, abs_of_pos (show (0 : ℚ) < 10 ^ d.scale by positivity), ← Int.cast_abs,
    Int.abs_eq_natAbs, natAbs_signed, Int.cast_natCast]

/-- A value other than zero lies between the smallest and the largest value of decimals. -/
theorem bounds_of_isExact {e : ℤ} (hn : 0 < n) (h : IsExact (withSign negative n * 10 ^ e)) :
    (10 : ℚ) ^ (-28 : ℤ) ≤ n * 10 ^ e ∧ (n * 10 ^ e : ℚ) < 10 ^ (29 : ℤ) := by
  obtain ⟨d, hd⟩ := h
  have hvalue : (n * 10 ^ e : ℚ) = d.coefficient / 10 ^ d.scale := by
    rw [← abs_value, hd, abs_mul, ← Int.cast_abs, abs_withSign, Int.cast_natCast,
      abs_of_pos (show (0 : ℚ) < 10 ^ e by positivity)]
  have hcoefficient : d.coefficient ≠ 0 := by
    intro hzero
    rw [hzero, Nat.cast_zero, zero_div] at hvalue
    have hpos : (0 : ℚ) < n * 10 ^ e := by positivity
    exact absurd hvalue hpos.ne'
  have hone : (1 : ℚ) ≤ d.coefficient := by exact_mod_cast Nat.pos_of_ne_zero hcoefficient
  have hfits : (d.coefficient : ℚ) < 10 ^ 29 := by
    have hlt := d.coefficient_lt
    exact_mod_cast show d.coefficient < 10 ^ 29 by omega
  have hpos : (0 : ℚ) < 10 ^ d.scale := by positivity
  have hleast : (1 : ℚ) ≤ 10 ^ d.scale := one_le_pow₀ (by norm_num)
  have hmost : (10 : ℚ) ^ d.scale ≤ 10 ^ 28 := pow_le_pow_right₀ (by norm_num) d.scale_le
  rw [hvalue]
  constructor
  · rw [zpow_neg, ← one_div, div_le_div_iff₀ (by positivity) hpos, one_mul]
    exact hmost.trans (le_mul_of_one_le_left (by positivity) hone)
  · rw [div_lt_iff₀ hpos]
    exact hfits.trans_le (le_mul_of_one_le_right (by positivity) hleast)

/-! ## Digits after the point -/

theorem digit?_zero_of_ofDigitChars {c : Char} {ds : List Char} (hc : c.isDigit = true)
    (h : Nat.ofDigitChars 10 (c :: ds) 0 = 0) : digit? c = some 0 := by
  rw [Nat.ofDigitChars_cons, Nat.ofDigitChars_eq_ofDigitChars_zero] at h
  have hzero : 10 ^ ds.length * (10 * 0 + (c.toNat - '0'.toNat)) = 0 := by omega
  rcases Nat.mul_eq_zero.mp hzero with hpow | hdigit
  · exact absurd hpow (by positivity)
  · rw [digit?_of_isDigit hc]
    exact congrArg some (by omega)

theorem isTail_of_isDigit {ds : List Char} (hds : ∀ c ∈ ds, c.isDigit = true) :
    isTail ds = true := by
  refine List.all_eq_true.mpr fun c hc => ?_
  rw [digit?_of_isDigit (hds c hc)]
  simp

theorem roundingDigit_of_digit? {c : Char} {ds : List Char} (hc : digit? c = some 0) (n : ℕ) :
    roundingDigit n (c :: ds) = 0 := by
  have hne : c ≠ '_' := by
    rintro rfl
    cases hc
  have hdrop : (c :: ds).dropWhile (· = '_') = c :: ds :=
    List.dropWhile_cons_of_neg (by simpa using hne)
  rw [roundingDigit, hdrop, ite_self]
  simp [hc]

/-- Digits after the point are read exactly, however many they are. -/
theorem readFrom_fraction {ds : List Char} (hds : ∀ c ∈ ds, c.isDigit = true) {places : ℕ}
    (hc : coefficient < 2 ^ 96) (hplaces : places ≤ 28)
    (h : IsExact (withSign negative (Nat.ofDigitChars 10 ds coefficient) /
      10 ^ (places + ds.length) : ℚ)) :
    ∃ d, readFrom negative coefficient (some places) true ds = some d ∧
      d.value = withSign negative (Nat.ofDigitChars 10 ds coefficient) /
        10 ^ (places + ds.length) := by
  induction ds generalizing coefficient places with
  | nil => exact value_of_ofParts? hc hplaces
  | cons c ds ih =>
    have hcdigit : c.isDigit = true := hds c List.mem_cons_self
    have hds' : ∀ c ∈ ds, c.isDigit = true := fun d hd => hds d (List.mem_cons_of_mem _ hd)
    have hsplit : Nat.ofDigitChars 10 (c :: ds) coefficient =
        10 ^ (ds.length + 1) * coefficient + Nat.ofDigitChars 10 (c :: ds) 0 :=
      Nat.ofDigitChars_eq_ofDigitChars_zero
    -- where the digits from here on do not fit, they are zeros and rounding changes nothing
    have hround : (places = 28 ∨ 2 ^ 96 ≤ coefficient * 10 + (c.toNat - '0'.toNat)) →
        digit? c = some 0 ∧ (withSign negative (Nat.ofDigitChars 10 (c :: ds) coefficient) /
          10 ^ (places + (ds.length + 1)) : ℚ) = withSign negative coefficient / 10 ^ places := by
      intro hlimit
      have hrest : Nat.ofDigitChars 10 (c :: ds) 0 = 0 := by
        refine rest_eq_zero hsplit (ofDigitChars_lt hds) h (hlimit.imp_right fun hlong => ?_)
        rw [Nat.ofDigitChars_cons, Nat.ofDigitChars_eq_ofDigitChars_zero]
        calc 2 ^ 96 * 10 ^ (ds.length + 1)
          _ ≤ (coefficient * 10 + (c.toNat - '0'.toNat)) * 10 ^ (ds.length + 1) :=
            Nat.mul_le_mul_right _ hlong
          _ = 10 ^ ds.length * (10 * coefficient + (c.toNat - '0'.toNat)) * 10 := by ring
          _ ≤ _ := Nat.mul_le_mul_right 10 (Nat.le_add_right _ _)
      refine ⟨digit?_zero_of_ofDigitChars hcdigit hrest, ?_⟩
      rw [hsplit, hrest, Nat.add_zero, mul_comm, withSign_mul, pow_add]
      push_cast
      field_simp
      ring
    rw [readFrom]
    split
    · rename_i hlast
      cases hlast
      obtain ⟨hzero, hvalue⟩ := hround (.inl rfl)
      rw [if_pos (isTail_of_isDigit hds), roundingDigit_of_digit? hzero, rounded?,
        if_pos (by decide), List.length_cons, hvalue]
      exact value_of_ofParts? hc hplaces
    · rename_i hlast
      rw [digit?_of_isDigit hcdigit]
      simp only
      split
      · rename_i hfits
        rw [Nat.ofDigitChars_cons, mul_comm 10, List.length_cons, Nat.add_comm ds.length,
          ← Nat.add_assoc] at h ⊢
        have hne : places ≠ 28 := fun h => hlast (congrArg some h)
        exact ih hds' hfits (show places + 1 ≤ 28 by omega) h
      · rename_i hlong
        obtain ⟨hzero, hvalue⟩ := hround (.inr (Nat.le_of_not_lt hlong))
        rw [digit?_of_isDigit hcdigit, Option.some.injEq] at hzero
        rw [if_pos (isTail_of_isDigit hds'), Option.bind_some, hzero, rounded?, if_pos (by decide),
          List.length_cons, hvalue]
        exact value_of_ofParts? hc hplaces

/-! ## Powers of ten -/

/-- A character that stands in no plain decimal. -/
def IsForeign (c : Char) : Prop :=
  digit? c = none ∧ c ≠ '.' ∧ c ≠ '_'

theorem isTail_of_isForeign {c : Char} {cs : List Char} (hc : IsForeign c) (hmem : c ∈ cs) :
    isTail cs = false := by
  refine List.all_eq_false.mpr ⟨c, hmem, ?_⟩
  simp [hc.1, hc.2.2]

theorem readFrom_of_isForeign {c : Char} (hc : IsForeign c) {cs : List Char} (hmem : c ∈ cs)
    (negative : Bool) (coefficient : ℕ) (places : Option ℕ) (seen : Bool) :
    readFrom negative coefficient places seen cs = none := by
  induction cs generalizing coefficient places seen with
  | nil => cases hmem
  | cons first rest ih =>
    rw [readFrom]
    split
    · rw [isTail_of_isForeign hc hmem]
      rfl
    cases hfirst : digit? first with
    | some d =>
      have hmem' : c ∈ rest := by
        refine (List.mem_cons.mp hmem).resolve_left ?_
        rintro rfl
        rw [hc.1] at hfirst
        cases hfirst
      simp only [ih hmem', isTail_of_isForeign hc hmem', Bool.false_eq_true, if_false, ite_self]
    | none =>
      rcases List.mem_cons.mp hmem with rfl | hmem'
      · simp [hc.2.1, hc.2.2]
      · simp only [ih hmem', ite_self]

theorem dropDigitsHalfUp_mul (q k : ℕ) : Numeric.dropDigitsHalfUp (q * 10 ^ k) k = q := by
  cases k with
  | zero => exact Nat.mul_one q
  | succ k =>
    have hdrop : q * 10 ^ (k + 1) / 10 ^ k = q * 10 := by
      rw [Nat.pow_succ, Nat.mul_comm (10 ^ k), ← Nat.mul_assoc,
        Nat.mul_div_cancel _ (by positivity)]
    rw [Numeric.dropDigitsHalfUp, hdrop]
    omega

/-- A decimal is divided exactly if the quotient is that of a decimal. -/
theorem shiftDown?_of_isExact {d : Decimal} {e : ℕ} (he : e ≤ 28)
    (h : IsExact (d.value / 10 ^ e)) :
    ∃ d', d.shiftDown? e = some d' ∧ d'.value = d.value / 10 ^ e := by
  refine ⟨_, dif_pos he, ?_⟩
  change (withSign d.negative (Numeric.dropDigitsHalfUp d.coefficient (d.scale - (28 - e))) /
    10 ^ (min d.scale (28 - e) + e) : ℚ) = _
  have hvalue : d.value / 10 ^ e = withSign d.negative d.coefficient / 10 ^ (d.scale + e) := by
    rw [value, pow_add, div_div]
    rfl
  rcases Nat.le_total d.scale (28 - e) with hscale | hscale
  · rw [Nat.sub_eq_zero_of_le hscale, Numeric.dropDigitsHalfUp_zero, min_eq_left hscale, hvalue]
  · obtain ⟨k, hk⟩ := Nat.exists_eq_add_of_le hscale
    have hplaces : d.scale + e = 28 + k := by omega
    rw [hvalue, hplaces] at h
    have hsplit := Nat.div_add_mod d.coefficient (10 ^ k)
    rw [rest_eq_zero hsplit.symm (Nat.mod_lt _ (by positivity)) h (.inl rfl), Nat.add_zero,
      mul_comm] at hsplit
    rw [hvalue, hplaces, min_eq_right hscale, Nat.sub_add_cancel he, hk, Nat.add_sub_cancel_left,
      ← hsplit, dropDigitsHalfUp_mul, withSign_mul, pow_add]
    push_cast
    field_simp

/-- A decimal is multiplied exactly if the product is that of a decimal. -/
theorem shiftUp?_of_isExact {d : Decimal} {e : ℕ} (he : e ≤ 28) (h : IsExact (d.value * 10 ^ e)) :
    ∃ d', d.shiftUp? e = some d' ∧ d'.value = d.value * 10 ^ e := by
  rw [shiftUp?]
  by_cases hscale : e ≤ d.scale
  · obtain ⟨rest, hrest⟩ := Nat.exists_eq_add_of_le hscale
    refine ⟨_, if_pos hscale, ?_⟩
    change (d.signed / 10 ^ (d.scale - e) : ℚ) = d.value * 10 ^ e
    rw [value, hrest, Nat.add_sub_cancel_left, pow_add]
    field_simp
  · obtain ⟨more, rfl⟩ := Nat.exists_eq_add_of_le (Nat.le_of_not_le hscale)
    have hvalue : d.value * 10 ^ (d.scale + more) =
        withSign d.negative (d.coefficient * 10 ^ more) / 10 ^ 0 := by
      rw [withSign_mul, value, pow_add]
      push_cast
      field_simp
      rfl
    rw [hvalue] at h ⊢
    obtain ⟨m, s, hm, -, heq⟩ := exists_of_isExact_div h
    have hfits : d.coefficient * 10 ^ more < 2 ^ 96 := by
      have hle : _ ≤ d.coefficient * 10 ^ more * 10 ^ s :=
        Nat.le_mul_of_pos_right _ (by positivity)
      omega
    rw [if_neg hscale, if_neg (Nat.not_lt.mpr he), Nat.add_sub_cancel_left]
    exact value_of_ofParts? hfits (Nat.zero_le 28)

end Verdict.Decimal
