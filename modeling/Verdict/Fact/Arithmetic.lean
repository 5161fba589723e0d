import Verdict.Decimal.Product
import Verdict.Fact.Fault

/-!
# Comparing and scaling values

Values are compared within their kind; whole numbers and decimals are compared with one another by
their exact values, and truth values only for being the same. A number can be multiplied by a
decimal factor.
-/

namespace Verdict.Value

/-- The truth value. -/
def asBool : Value → Except Fault Bool
  | bool b => .ok b
  | v => .error (.notBool v.kind)

/-- The whole number; of a date, its Julian day number. -/
def asInt : Value → Except Fault Int
  | int n => .ok n.toInt
  | date d => .ok d.julianDay
  | v => .error (.notInt v.kind)

/-- The number as a decimal. -/
def asDecimal : Value → Except Fault Decimal
  | decimal d => .ok d
  | int n => .ok (.ofInt n)
  | v => .error (.notNumeric v.kind)

/-- Compares two values. -/
def compare (c : Comparison) : Value → Value → Except Fault Bool
  | bool a, bool b =>
    match c with
    | .eq => .ok (a == b)
    | .ne => .ok (a != b)
    | _ => .error (.unordered c)
  | int a, int b => .ok (c.holds (Ord.compare a.toInt b.toInt))
  | date a, date b => .ok (c.holds (a.order b))
  | a, b => do
    let x ← a.asDecimal
    let y ← b.asDecimal
    .ok (c.holds (x.order y))

/-- Multiplies a number by a decimal factor. -/
def scale (factor : Decimal) (v : Value) : Except Fault Value := do
  let base ← v.asDecimal
  match base.mul? factor with
  | some product => .ok (.decimal product)
  | none => .error (.overflow base factor)

end Verdict.Value
