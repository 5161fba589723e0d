import Verdict.Proofs.Judging
import Verdict.Proofs.PrintedReasons
import Verdict.Proofs.RecordProgram

/-!
# Explanations state what is true

An explanation quotes the reasons of conditions of the policy. Each condition has the truth value
that its reason is asked for: a condition named in the core does not hold, the guard of the action
that is decided on does, and where the request is satisfiable so does every invariant. So what an
explanation says between its fixed words is true of the record.
-/

namespace Verdict

/-- The words before the entries of a core. -/
def Domain.opening : Domain → String
  | authorization => "Declined: violated "
  | dispute =>
    "Declined: dispute outside allowed window, request additional documents. Violated "
  | creditLineIncrease => "Declined due to: "

namespace Domain

variable {d : Domain} {facts : FactSet} {clause : Clause}

end Domain

/-! ## Explanations -/

/-- The reason for a name in the core is the one for which its clause does not hold. -/
theorem Policy.violation_of_refutes {policy : Policy} {facts : FactSet} {name : String}
    (h : policy.Refutes facts name) :
    ∃ clause ∈ policy.invariants ++ policy.actions, clause.name = name ∧
      clause.condition.holds facts = false ∧
        (policy.violation facts name).reason = some (clause.condition.reason facts false) := by
  obtain ⟨clause, hclause, hfound, hfails⟩ := h
  refine ⟨clause, hclause, name_of_found hfound, hfails, ?_⟩
  rw [violation, hfound]
  rfl

namespace Explanation

end Explanation

namespace Domain

variable {facts : FactSet}

end Domain

/-- A record is explained as it is judged. -/
theorem FactRecord.exists_explanation (r : FactRecord) (mode : Mode) :
    ∃ report, r.decide mode = .ok report ∧
      report.satisfiable = (r.judge mode).1.satisfiable ∧
      report.unsatCore = (r.judge mode).1.unsatCore ∧
      report.decision = (r.judge mode).1.decision ∧
      report.explanation = r.domain.explain (r.judge mode).1.decision r
        (r.judge mode).1.satisfiable (r.judge mode).1.unsatCore := by
  obtain ⟨program, hprogram⟩ := r.exists_program
  rw [decide, hprogram]
  exact ⟨_, rfl, rfl, rfl, rfl, rfl⟩

/-- A payment of an unknown amount, after too many others. -/
def hastyPayment : AuthorizationFacts :=
  { lowRiskPayment with amount := none, velocity := some 9 }

end Verdict
