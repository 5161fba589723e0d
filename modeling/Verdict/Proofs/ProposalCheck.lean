import Verdict.Proofs.AuthorizationDecision
import Verdict.Proofs.DeclaredResult
import Verdict.Proofs.Judging

/-!
# The check of an action refines the verification

The check of an action evaluates the invariants as the verification does, and beside them one guard.
So it accepts only where the verification is satisfied. For a payment the converse holds too: where
every invariant holds, the guard of the chosen action does. The other domains have no actions, so
nothing is accepted there.
-/

namespace Verdict

namespace Policy

variable {policy : Policy} {facts : FactSet} {action : String}

/-- As the names of the actions are distinct, any action of the name is the one that is checked. -/
theorem permits_iff_exists_mem (hdistinct : (policy.actions.map (·.name)).Nodup) :
    policy.permits facts action = true ↔ ∃ clause ∈ policy.actions, clause.name = action ∧
      (clause.condition.eval facts).result = .ok true := by
  rw [permits_iff]
  constructor
  · rintro ⟨clause, hfound, hholds⟩
    exact ⟨clause, List.mem_of_find?_eq_some hfound, by simpa using List.find?_some hfound, hholds⟩
  · rintro ⟨clause, hclause, rfl, hholds⟩
    exact ⟨clause, Keyed.find?_of_nodup hdistinct hclause, hholds⟩

end Policy

/-- What the check of an action must answer, given the verification of the same facts. -/
structure Verification.RefinedBy (v : Verification) (policy : Policy) (facts : FactSet)
    (action : String) (check : Verification) : Prop where
  domain : check.domain = v.domain
  policyId : check.policyId = v.policyId
  checkedInvariants : check.checkedInvariants = v.checkedInvariants
  trace : check.trace = v.trace
  /-- The action is permitted, and the core is that of the verification. -/
  permitted : (∃ clause ∈ policy.actions, clause.name = action ∧
    (clause.condition.eval facts).result = .ok true) → check.unsatCore = v.unsatCore
  /-- The policy has no such action, or its guard fails or faults. -/
  refused : (¬∃ clause ∈ policy.actions, clause.name = action ∧
    (clause.condition.eval facts).result = .ok true) → check.unsatCore = v.unsatCore ++ [action]
  satisfiable : check.satisfiable = true ↔ check.unsatCore = []
  accepted : check.satisfiable = true → check.chosenAction = some action ∧
    Decision.Denoted policy.fallback action check.decision
  rejected : check.satisfiable = false →
    check.chosenAction = none ∧ check.decision = policy.fallback

namespace FactRecord

theorem checkProposal_satisfiable_iff (r : FactRecord) (action : String) :
    (r.checkProposal action).satisfiable = true ↔ (r.checkProposal action).unsatCore = [] :=
  List.isEmpty_iff

theorem refinedBy_checkProposal (r : FactRecord) (action : String) :
    r.verify.RefinedBy r.domain.policy r.known action (r.checkProposal action) where
  domain := rfl
  policyId := rfl
  checkedInvariants := rfl
  trace := r.checkProposal_trace action
  permitted h := by
    rw [← Policy.permits_iff_exists_mem r.domain.nodup_actionNames] at h
    rw [checkProposal_unsatCore, if_pos h, List.append_nil]
  refused h := by
    rw [← Policy.permits_iff_exists_mem r.domain.nodup_actionNames] at h
    rw [checkProposal_unsatCore, if_neg h]
  satisfiable := r.checkProposal_satisfiable_iff action
  accepted h := by
    rw [checkProposal_chosenAction, checkProposal_decision, if_pos h, if_pos h]
    exact ⟨rfl, Decision.denoted_iff.mpr rfl⟩
  rejected h := by
    rw [checkProposal_chosenAction, checkProposal_decision, h]
    exact ⟨rfl, rfl⟩

/-- An accepted action leaves no invariant violated. -/
theorem verify_satisfiable_of_accepted {r : FactRecord} {action : String}
    (h : (r.checkProposal action).satisfiable = true) : r.verify.satisfiable = true := by
  rw [checkProposal_satisfiable, Bool.and_eq_true] at h
  exact (Policy.verify_satisfiable _ _).trans h.1

/-- The chosen action of a payment passes the check, with the decision that chose it. -/
theorem exists_accepted_of_verify {f : AuthorizationFacts}
    (h : (authorization f).verify.satisfiable = true) :
    ∃ action, (authorization f).verify.chosenAction = some action ∧
      ((authorization f).checkProposal action).satisfiable = true ∧
      ((authorization f).checkProposal action).decision = (authorization f).verify.decision := by
  have hsat : Policy.authorization.isSatisfied (authorization f).known = true :=
    (Policy.verify_satisfiable _ _).symm.trans h
  have haccepted : ((authorization f).checkProposal (Proposal.byRule f).action).satisfiable = true :=
    (checkProposal_authorization_satisfiable f _).mpr ⟨hsat, AuthorizationFacts.permits_byRule hsat⟩
  refine ⟨(Proposal.byRule f).action, ?_, haccepted, ?_⟩
  · rw [AuthorizationFacts.chosenAction_verify, if_pos hsat]
  · rw [checkProposal_decision, if_pos haccepted, ← name_verify_decision f hsat,
      Decision.ofAction?_name, Option.getD_some]

/-- A policy without actions permits nothing. -/
theorem checkProposal_of_actions_eq_nil {r : FactRecord} (h : r.domain.policy.actions = [])
    (action : String) : (r.checkProposal action).satisfiable = false := by
  rw [checkProposal_satisfiable, Policy.permits, Policy.action?, h]
  exact Bool.and_false _

end FactRecord

open FactRecord in
/-- The check of any action refines the verification, and accepts only where the verification is
satisfied. A satisfied verification of a payment has a chosen action that is accepted with the same
decision; in the other domains no action is accepted. -/
theorem checkProposal_refines_verify (r : FactRecord) :
    (∀ action, r.verify.RefinedBy r.domain.policy r.known action (r.checkProposal action) ∧
        ((r.checkProposal action).satisfiable = true → r.verify.satisfiable = true)) ∧
      (r.domain = .authorization →
        (r.verify.satisfiable = true ↔ ∃ action, (r.checkProposal action).satisfiable = true) ∧
        (r.verify.satisfiable = true → ∃ action, r.verify.chosenAction = some action ∧
          (r.checkProposal action).satisfiable = true ∧
          (r.checkProposal action).decision = r.verify.decision)) ∧
      (r.domain ≠ .authorization → ∀ action, (r.checkProposal action).satisfiable = false) := by
  refine ⟨fun action => ⟨r.refinedBy_checkProposal action, verify_satisfiable_of_accepted⟩, ?_, ?_⟩
  · intro hdomain
    cases r with
    | authorization f =>
      refine ⟨⟨fun h => ?_, fun ⟨_, h⟩ => verify_satisfiable_of_accepted h⟩,
        exists_accepted_of_verify⟩
      obtain ⟨action, -, haccepted, -⟩ := exists_accepted_of_verify h
      exact ⟨action, haccepted⟩
    | dispute f => cases hdomain
    | creditLineIncrease f => cases hdomain
  · intro hdomain action
    cases r with
    | authorization f => exact absurd rfl hdomain
    | dispute f => exact checkProposal_of_actions_eq_nil rfl action
    | creditLineIncrease f => exact checkProposal_of_actions_eq_nil rfl action

end Verdict
