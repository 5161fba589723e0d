import Verdict.Numeric.Power

/-!
# Decimals

A decimal is a signed coefficient of 96 bits with up to 28 places after the point. The number of
places is part of the decimal: `1.0` and `1.00` are equal as numbers and differ as decimals. Two
decimals are compared by their exact values.
-/

namespace Verdict

/-- A signed coefficient and the number of its digits that stand after the point. -/
structure Decimal where
  negative : Bool
  coefficient : Nat
  scale : Nat
  coefficient_lt : coefficient < 2 ^ 96
  scale_le : scale ≤ 28
deriving DecidableEq

namespace Decimal

/-- A coefficient and a scale within the limits; zero has no sign. -/
def ofParts (negative : Bool) (coefficient scale : Nat) (hc : coefficient < 2 ^ 96)
    (hs : scale ≤ 28) : Decimal where
  negative := negative && coefficient != 0
  coefficient := coefficient
  scale := scale
  coefficient_lt := hc
  scale_le := hs

/-- The same, when the limits have to be tested. -/
def ofParts? (negative : Bool) (coefficient scale : Nat) : Option Decimal :=
  if h : coefficient < 2 ^ 96 ∧ scale ≤ 28 then some (ofParts negative coefficient scale h.1 h.2)
  else none

/-- The whole number zero. -/
def zero : Decimal :=
  ofParts false 0 0 (by decide) (by decide)

/-- A 64-bit integer as a decimal without places. -/
def ofInt (n : Int64) : Decimal :=
  ofParts (n.toInt < 0) n.toInt.natAbs 0 (by have := n.toInt_lt; have := n.le_toInt; omega)
    (by decide)

/-- The decimal without its sign. -/
def abs (d : Decimal) : Decimal :=
  { d with negative := false }

/-- The coefficient with its sign. -/
def signed (d : Decimal) : Int :=
  if d.negative then -(d.coefficient : Int) else d.coefficient

/-- The exact value, counted in units of the last place a decimal can have. -/
def units (d : Decimal) : Int :=
  d.signed * 10 ^ (28 - d.scale)

/-- The order of the exact values. -/
def order (a b : Decimal) : Ordering :=
  compare a.units b.units

@[simp] theorem coefficient_ofParts (negative : Bool) (c s : Nat) (hc : c < 2 ^ 96) (hs : s ≤ 28) :
    (ofParts negative c s hc hs).coefficient = c := rfl

@[simp] theorem scale_ofParts (negative : Bool) (c s : Nat) (hc : c < 2 ^ 96) (hs : s ≤ 28) :
    (ofParts negative c s hc hs).scale = s := rfl

theorem signed_ofParts (negative : Bool) (c s : Nat) (hc : c < 2 ^ 96) (hs : s ≤ 28) :
    (ofParts negative c s hc hs).signed = if negative then -(c : Int) else c := by
  by_cases h : c = 0 <;> cases negative <;> simp [signed, ofParts, h]

/-- A whole number of 64 bits keeps its value. -/
@[simp] theorem signed_ofInt (n : Int64) : (ofInt n).signed = n.toInt := by
  simp only [ofInt, signed_ofParts, decide_eq_true_eq]
  split <;> omega

/-- Decimals of equal value are in the order `eq`, and only those. -/
theorem order_eq_iff (a b : Decimal) : a.order b = .eq ↔ a.units = b.units := by
  simp [order]

end Decimal

end Verdict
