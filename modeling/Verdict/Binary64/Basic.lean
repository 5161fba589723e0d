import Verdict.Numeric.Rounding

/-!
# Binary floating-point numbers of 64 bits

A finite number of the 64-bit binary format is a sign, a significand of 53 bits and a shift. Its
size is the shifted significand, counted in units of the smallest positive number of the format.
A rational number is rounded to the nearest number of the format. A decimal number is computed with
one rounded product or quotient.
-/

namespace Verdict

/-- The number `± significand * 2 ^ shift` in units of `2 ^ -1074`. -/
structure Binary64 where
  negative : Bool
  significand : Nat
  shift : Nat
deriving DecidableEq

namespace Binary64

/-- The number of units of `2 ^ -1074`. -/
def quanta (x : Binary64) : Nat :=
  x.significand * 2 ^ x.shift

/-- The number nearest to a fraction, ties to the even significand; nothing where it is beyond the
largest finite number. -/
def nearest? (negative : Bool) (num den : Nat) : Option Binary64 :=
  let num := num * 2 ^ 1074
  let shift := (num / den).log2 - 52
  let significand := Numeric.divHalfEven num (den * 2 ^ shift)
  let carried := significand == 2 ^ 53
  let x : Binary64 :=
    if carried then ⟨negative, 2 ^ 52, shift + 1⟩ else ⟨negative, significand, shift⟩
  if x.shift ≤ 2045 then some x else none

/-- The number nearest to a product. -/
def mul? (x y : Binary64) : Option Binary64 :=
  nearest? (x.negative != y.negative) (x.quanta * y.quanta) (2 ^ 2148)

/-- The number nearest to a quotient. -/
def div? (x y : Binary64) : Option Binary64 :=
  nearest? (x.negative != y.negative) x.quanta y.quanta

/-- A number times a power of ten. The power is itself rounded, and there is none beyond
`10 ^ 308`: a number is divided by this one until the rest of the power is in reach. -/
def scale? (x : Binary64) (exponent : Int) : Option Binary64 :=
  if exponent.natAbs ≤ 308 then do
    let power ← nearest? false (10 ^ exponent.natAbs) 1
    if 0 ≤ exponent then x.mul? power else x.div? power
  else if x.significand = 0 then some x
  else if 0 ≤ exponent then none
  else do
    let power ← nearest? false (10 ^ 308) 1
    let x ← x.div? power
    scale? x (exponent + 308)
termination_by (-exponent).toNat

/-- The number that is computed for `significand * 10 ^ exponent`. The significand is rounded
before it is scaled, so this need not be the nearest number. -/
def ofDecimal? (negative : Bool) (significand : Nat) (exponent : Int) : Option Binary64 := do
  let x ← nearest? negative significand 1
  x.scale? exponent

example : ofDecimal? false 1 0 = some ⟨false, 2 ^ 52, 1022⟩ := by decide +kernel

example : ofDecimal? false 3 26 ≠ nearest? false (3 * 10 ^ 26) 1 := by decide +kernel

example : ofDecimal? false 1 309 = none := by decide +kernel

end Binary64

end Verdict
