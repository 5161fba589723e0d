import Verdict.Policy.Basic
import Verdict.Policy.Evaluation

/-!
# Outcomes of clauses

What came of one invariant or guard: whether it holds, which facts were consulted, and the fault
because of which it counts as failed.
-/

namespace Verdict

/-- What came of a clause. -/
structure Outcome where
  name : String
  holds : Bool
  /-- The facts that were consulted, in the order of first consultation. -/
  factsUsed : List String
  /-- The fault because of which the clause does not hold. -/
  fault : Option Fault
deriving DecidableEq

/-- What comes of a clause. A clause that cannot be evaluated does not hold. -/
def Clause.outcome (facts : FactSet) (clause : Clause) : Outcome :=
  let reading := clause.condition.eval facts
  match reading.result with
  | .ok b => ⟨clause.name, b, reading.factsUsed, none⟩
  | .error fault => ⟨clause.name, false, reading.factsUsed, some fault⟩

@[simp] theorem Clause.outcome_name (facts : FactSet) (clause : Clause) :
    (clause.outcome facts).name = clause.name := by
  unfold Clause.outcome
  dsimp only
  split <;> rfl

/-- A clause holds exactly if it evaluates to true. -/
theorem Clause.outcome_holds (facts : FactSet) (clause : Clause) :
    (clause.outcome facts).holds = clause.condition.holds facts := by
  unfold Clause.outcome Predicate.holds
  dsimp only
  split <;> simp_all

end Verdict
