import Verdict.Binary64.Basic
import Verdict.Text.Digits

/-!
# The shortest decimal digits of a binary number

A finite binary number is written with the fewest decimal digits that read back as the same
number, and among those with the digits nearest to it. The search tests, for each count of digits,
the two neighbours of the number on the grid of decimals with that many digits.
-/

namespace Verdict.Binary64

/-- Decimal digits and the power of ten that they are multiplied by. -/
structure Digits where
  value : Nat
  exponent : Int
deriving DecidableEq

/-- The power of ten just above the number: `10 ^ (p - 1) ≤ x < 10 ^ p`. -/
def magnitude (x : Binary64) : Int :=
  (Nat.toDigits 10 (x.quanta * 10 ^ 400 / 2 ^ 1074)).length - 400

/-- A multiple of a power of ten lies between the midpoints to the neighbouring numbers of the
format; the midpoints count when the significand is even. Both are compared in quarters of the
smallest positive number. -/
def readsBack (x : Binary64) (grid : Int) (q : Nat) : Bool :=
  let ulp := 2 ^ x.shift
  let below := if x.significand = 2 ^ 52 ∧ 0 < x.shift then ulp else 2 * ulp
  let point := q * 10 ^ grid.toNat * 2 ^ 1076
  let low := (4 * x.quanta - below) * 10 ^ (-grid).toNat
  let high := (4 * x.quanta + 2 * ulp) * 10 ^ (-grid).toNat
  if x.significand % 2 = 0 then low ≤ point && point ≤ high else low < point && point < high

/-- Of the two neighbours on a decimal grid, the one that reads back; of two, the nearer one, and
the even one where both are equally near. -/
def onGrid? (x : Binary64) (grid : Int) : Option Digits :=
  let num := x.quanta * 10 ^ (-grid).toNat
  let den := 2 ^ 1074 * 10 ^ grid.toNat
  let lower := num / den
  match readsBack x grid lower, readsBack x grid (lower + 1) with
  | true, true => some ⟨Numeric.divHalfEven num den, grid⟩
  | true, false => some ⟨lower, grid⟩
  | false, true => some ⟨lower + 1, grid⟩
  | false, false => none

/-- Zeros at the end are moved into the exponent; `fuel` bounds their number. -/
def Digits.stripZeros : (fuel : Nat) → Digits → Digits
  | 0, d => d
  | fuel + 1, d =>
    if d.value ≠ 0 ∧ d.value % 10 = 0 then stripZeros fuel ⟨d.value / 10, d.exponent + 1⟩ else d

/-- The fewest digits that read back. Seventeen digits are always enough. -/
def shortest (x : Binary64) : Digits :=
  let found := (List.range 17).findSome? fun n : Nat => onGrid? x (magnitude x - (n + 1))
  (found.getD ⟨0, 0⟩).stripZeros 17

/-- Numbers from `10 ^ -5` up to `10 ^ 16` are written with a point and at least one digit on
either side of it, all others with an exponent that always has a sign. -/
def chars (x : Binary64) : List Char :=
  let sign := if x.negative then ['-'] else []
  let d := x.shortest
  let ds := Text.digits d.value
  let point := ds.length + d.exponent
  if x.significand = 0 then sign ++ ['0', '.', '0']
  else if 0 ≤ d.exponent ∧ point ≤ 16 then
    sign ++ ds ++ List.replicate d.exponent.toNat '0' ++ ['.', '0']
  else if 0 < point ∧ point ≤ 16 then
    sign ++ ds.take point.toNat ++ '.' :: ds.drop point.toNat
  else if -5 < point ∧ point ≤ 0 then
    sign ++ '0' :: '.' :: List.replicate (-point).toNat '0' ++ ds
  else
    sign ++ ds.take 1 ++ (if ds.length = 1 then [] else '.' :: ds.drop 1) ++
      'e' :: (if 0 < point then '+' else '-') :: Text.digits (point - 1).natAbs

/-- The text of a number. -/
def text (x : Binary64) : String :=
  String.ofList x.chars

example : (nearest? false 3 10).map chars = some ['0', '.', '3'] := by decide +kernel

example : (ofDecimal? false 1 16).map chars = some ['1', 'e', '+', '1', '6'] := by decide +kernel

example : (ofDecimal? false 1 (-7)).map chars = some ['1', 'e', '-', '7'] := by decide +kernel

end Verdict.Binary64
