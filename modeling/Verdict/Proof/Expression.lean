import Verdict.Decimal.Text
import Verdict.Policy.Basic
import Verdict.Proof.SExpr

/-!
# Predicates as expressions

A predicate is written as an expression of a proof program. A comparison in which one side is a
real number is written with real literals on both sides. Where a fact has to be known, a symbol of
its own stands for that.
-/

namespace Verdict

/-- A whole number as an expression. -/
def SExpr.int (n : Int) : SExpr :=
  signed (n < 0) (toString n.natAbs)

/-- A decimal as an expression, with at least one place. -/
def SExpr.real (d : Decimal) : SExpr :=
  signed (d.negative && d.coefficient != 0)
    (if d.scale = 0 then d.abs.text ++ ".0" else d.abs.text)

/-- The symbol that says whether a fact is known. -/
def knownSymbol (fact : String) : String :=
  "known." ++ fact

/-- The symbol that says whether an action is picked. -/
def pickSymbol (action : String) : String :=
  "pick." ++ action

namespace Policy

/-- The sort of a term. A fact that is not declared has none. -/
def termSort? (policy : Policy) : Term → Option FactSort
  | .fact name => policy.sortOf? name
  | .int _ => some .int
  | .decimal _ => some .real
  | .scaled _ _ => some .real

/-- A term as an expression, whole numbers as reals if need be. -/
def termExpr (real : Bool) : Term → SExpr
  | .fact name => .atom name
  | .int n => if real then .real (.ofInt n) else .int n.toInt
  | .decimal d => .real d
  | .scaled name factor => .apply "*" [.atom name, .real factor]

/-- A comparison as an expression. -/
def comparisonExpr (policy : Policy) (left : Term) (c : Comparison) (right : Term) : SExpr :=
  let real := policy.termSort? left == some .real || policy.termSort? right == some .real
  let sides := [termExpr real left, termExpr real right]
  match c with
  | .ne => .apply "not" [.apply "=" sides]
  | _ => .apply c.symbol sides

mutual

/-- A predicate as an expression. -/
def expr (policy : Policy) : Predicate → SExpr
  | .compare left c right => policy.comparisonExpr left c right
  | .flag fact => .atom fact
  | .not operand => .apply "not" [policy.expr operand]
  | .all operands => .join "and" "true" (policy.exprs operands)
  | .any operands => .join "or" "false" (policy.exprs operands)
  | .implies premise conclusion => .apply "=>" [policy.expr premise, policy.expr conclusion]
  | .known facts => .join "and" "true" (facts.map fun fact => .atom (knownSymbol fact))
  | .notIn fact excluded =>
    .apply "not" [.join "or" "false"
      (excluded.map fun n => .apply "=" [.atom fact, .int n.toInt])]

/-- Several predicates as expressions. -/
def exprs (policy : Policy) : List Predicate → List SExpr
  | [] => []
  | p :: rest => policy.expr p :: policy.exprs rest

end

end Policy

end Verdict
