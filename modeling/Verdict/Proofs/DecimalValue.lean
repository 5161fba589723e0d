import Mathlib.Algebra.Order.Field.Rat
import Mathlib.Tactic.FieldSimp
import Mathlib.Tactic.NormNum
import Mathlib.Tactic.Ring
import Verdict.Fact.Comparison
import Verdict.Decimal.Product

/-!
# Decimals as rational numbers

A decimal stands for the quotient of its signed coefficient and a power of ten. The order of
decimals is the order of these values, and a product is exact if its value is the value of some
decimal at all.
-/

namespace Verdict

/-- The comparison holds of two elements of a linear order. -/
def Comparison.relates {α : Type} [LinearOrder α] (c : Comparison) (a b : α) : Bool :=
  match c with
  | lt => decide (a < b)
  | le => decide (a ≤ b)
  | gt => decide (b < a)
  | ge => decide (b ≤ a)
  | eq => decide (a = b)
  | ne => decide (a ≠ b)

theorem Comparison.holds_compare {α : Type} [LinearOrder α] (c : Comparison) (a b : α) :
    c.holds (compare a b) = c.relates a b := by
  rcases lt_trichotomy a b with h | h | h
  · rw [compare_lt_iff_lt.mpr h]
    cases c <;> simp [holds, relates, h, h.le, h.ne, h.not_gt, h.not_ge]
  · subst h
    cases c <;> simp [holds, relates]
  · rw [compare_gt_iff_gt.mpr h]
    cases c <;> simp [holds, relates, h, h.le, h.ne', h.not_gt, h.not_ge]

theorem Comparison.relates_map {α β : Type} [LinearOrder α] [LinearOrder β] {f : α → β}
    (hf : StrictMono f) (c : Comparison) (a b : α) : c.relates (f a) (f b) = c.relates a b := by
  cases c <;> simp [relates, hf.lt_iff_lt, hf.le_iff_le, hf.injective.eq_iff]

namespace Decimal

/-- The exact value. -/
def value (d : Decimal) : ℚ :=
  d.signed / 10 ^ d.scale

theorem units_eq_value_mul (d : Decimal) : (d.units : ℚ) = d.value * 10 ^ 28 := by
  have hpow : (10 : ℚ) ^ 28 = 10 ^ d.scale * 10 ^ (28 - d.scale) := by
    rw [← pow_add, Nat.add_sub_cancel' d.scale_le]
  rw [units, value, hpow]
  push_cast
  field_simp

theorem units_eq_iff {a b : Decimal} : a.units = b.units ↔ a.value = b.value := by
  rw [← Int.cast_inj (α := ℚ), units_eq_value_mul, units_eq_value_mul,
    mul_left_inj' (by positivity)]

/-- Decimals are compared by their exact values. -/
theorem holds_order (c : Comparison) (a b : Decimal) :
    c.holds (a.order b) = c.relates a.value b.value := by
  have hscaled : StrictMono fun x : ℚ => x * 10 ^ 28 := fun x y hxy =>
    mul_lt_mul_of_pos_right hxy (by positivity)
  calc c.holds (a.order b) = c.relates a.units b.units := Comparison.holds_compare ..
    _ = c.relates (a.units : ℚ) b.units := (Comparison.relates_map Int.cast_strictMono ..).symm
    _ = c.relates (a.value * 10 ^ 28) (b.value * 10 ^ 28) := by
      rw [units_eq_value_mul, units_eq_value_mul]
    _ = c.relates a.value b.value := Comparison.relates_map hscaled ..

@[simp] theorem value_ofInt (n : Int64) : (ofInt n).value = n.toInt := by
  have hscale : (ofInt n).scale = 0 := rfl
  rw [value, hscale, signed_ofInt, pow_zero, div_one]

/-! ## Products -/

/-- The value is that of some decimal. -/
def IsExact (x : ℚ) : Prop :=
  ∃ d : Decimal, d.value = x

theorem natAbs_signed (d : Decimal) : d.signed.natAbs = d.coefficient := by
  rw [signed]
  split <;> simp

theorem signed_mul_signed (a b : Decimal) :
    a.signed * b.signed = if a.negative != b.negative then
      -((a.coefficient * b.coefficient : ℕ) : ℤ) else (a.coefficient * b.coefficient : ℕ) := by
  cases ha : a.negative <;> cases hb : b.negative <;> simp [signed, ha, hb]

theorem isExact_of_fits {a b : Decimal} (hc : a.coefficient * b.coefficient < 2 ^ 96)
    (hs : a.scale + b.scale ≤ 28) : IsExact (a.value * b.value) := by
  refine ⟨ofParts (a.negative != b.negative) (a.coefficient * b.coefficient) (a.scale + b.scale)
    hc hs, ?_⟩
  rw [value, signed_ofParts, scale_ofParts, ← signed_mul_signed, value, value, pow_add]
  push_cast
  field_simp

end Decimal

end Verdict
