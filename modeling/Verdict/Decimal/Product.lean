import Verdict.Decimal.Basic
import Verdict.Numeric.Rounding

/-!
# Products of decimals

The product of two decimals is exact where it fits. Otherwise its last digits are rounded away,
ties to the even neighbour, and no more of them than the limits on places and coefficient force.
A product that does not fit without any places overflows.
-/

namespace Verdict.Decimal

/-- The first rounding of `product` by `drop`, `drop + 1`, … digits whose coefficient fits; at
most `more` further digits can be dropped. -/
def fit? (negative : Bool) (product scale drop : Nat) : (more : Nat) → Option Decimal
  | 0 => ofParts? negative (Numeric.divHalfEven product (10 ^ drop)) (scale - drop)
  | more + 1 =>
    if Numeric.divHalfEven product (10 ^ drop) < 2 ^ 96 then
      ofParts? negative (Numeric.divHalfEven product (10 ^ drop)) (scale - drop)
    else fit? negative product scale (drop + 1) more

/-- Both coefficients have 32 bits. -/
def isNarrow (a b : Decimal) : Bool :=
  a.coefficient < 2 ^ 32 && b.coefficient < 2 ^ 32

/-- The product, or nothing where it overflows. A factor zero gives the whole number zero, and so
do narrow coefficients with more than 47 places between them. A product of other factors that is
rounded to zero loses its sign if the coefficients are narrow and keeps it if they are not. -/
def mul? (a b : Decimal) : Option Decimal :=
  let negative := a.negative != b.negative
  let scale := a.scale + b.scale
  if a.coefficient = 0 ∨ b.coefficient = 0 ∨ (isNarrow a b ∧ 47 < scale) then some zero
  else
    let product? := fit? negative (a.coefficient * b.coefficient) scale (scale - 28)
      (scale - (scale - 28))
    if isNarrow a b then product? else product?.map fun d => { d with negative := negative }

end Verdict.Decimal
