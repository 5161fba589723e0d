import Verdict.Proofs.TrueReasons

/-!
# Reasons are not empty

Of a predicate without empty connectives every reason has a statement. A connective that has the
wanted value, or faults, has an operand of which the same is true.
-/

namespace Verdict

namespace Reason

end Reason

namespace Predicate

mutual

/-- No connective of the predicate is without operands. -/
def hasOperands : Predicate → Bool
  | not operand => operand.hasOperands
  | all operands => !operands.isEmpty && haveOperands operands
  | any operands => !operands.isEmpty && haveOperands operands
  | implies premise conclusion => premise.hasOperands && conclusion.hasOperands
  | _ => true

/-- No connective of several predicates is without operands. -/
def haveOperands : List Predicate → Bool
  | [] => true
  | p :: rest => p.hasOperands && haveOperands rest

end

variable {facts : FactSet} {p : Predicate} {ps : List Predicate}

end Predicate

end Verdict
