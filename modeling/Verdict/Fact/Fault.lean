import Verdict.Fact.Comparison
import Verdict.Fact.Value

/-!
# Faults of evaluation

The reasons why a term or a predicate has no value.
-/

namespace Verdict

/-- Why an evaluation has no result. -/
inductive Fault where
  /-- A fact was read that is not known. -/
  | unknownFact (fact : String)
  /-- A truth value was needed. -/
  | notBool (found : Value.Kind)
  /-- A whole number was needed. -/
  | notInt (found : Value.Kind)
  /-- A number was needed. -/
  | notNumeric (found : Value.Kind)
  /-- Truth values have no order. -/
  | unordered (comparison : Comparison)
  /-- A product does not fit into a decimal. -/
  | overflow (base factor : Decimal)
deriving DecidableEq

/-- The wording of a fault. -/
def Fault.message : Fault → String
  | unknownFact fact => "unknown fact: " ++ fact
  | notBool found => "type error: expected Bool, got " ++ found.name
  | notInt found => "type error: expected Int, got " ++ found.name
  | notNumeric found => "type error: cannot coerce " ++ found.name ++ " to Decimal"
  | unordered comparison =>
    "type error: operator '" ++ comparison.symbol ++ "' not defined for Bool"
  | overflow base factor =>
    "numeric overflow: " ++ base.text ++ " * " ++ factor.text ++ " overflows"

end Verdict
