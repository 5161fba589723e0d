import Mathlib.Tactic.SplitIfs
import Verdict.Proofs.Acceptance

/-!
# Suggestions are never trusted

Whoever suggests the action of an authorization, the decision is one that the check of some action
has made. Such a decision is at most as lenient as the one of the verification alone, and it
approves only what the policy permits under the name of that very decision.
-/

namespace Verdict

/-- The rank of a decision on an authorization, the strictest first; other decisions have none. -/
def Decision.leniency? : Decision → Option Nat
  | decline => some 0
  | approveWithOtp => some 1
  | approveNoOtp => some 2
  | _ => none

/-- Both decisions are decisions on an authorization, and the first is at least as strict. -/
def Decision.AtMost (a b : Decision) : Prop :=
  ∃ m n, a.leniency? = some m ∧ b.leniency? = some n ∧ m ≤ n

/-- The end of the soft mode is the check of the suggestion that it ends with. -/
theorem AuthorizationFacts.runSoft_result (f : AuthorizationFacts) (propose : Proposer) :
    (f.runSoft propose).result =
      (FactRecord.authorization f).checkProposal (f.runSoft propose).proposal.action := by
  unfold runSoft
  dsimp only
  split <;> rfl

namespace FactRecord

/-- The decision on a verified authorization: the more lenient of the two approvals that is
permitted, if every invariant holds. -/
theorem verify_authorization_decision (f : AuthorizationFacts) :
    (authorization f).verify.decision =
      if Policy.authorization.isSatisfied (authorization f).known then
        if Policy.authorization.permits (authorization f).known Decision.approveNoOtp.name then
          .approveNoOtp
        else if Policy.authorization.permits (authorization f).known Decision.approveWithOtp.name then
          .approveWithOtp
        else .decline
      else .decline := by
  have hverify : (authorization f).verify.decision =
      if Policy.authorization.isSatisfied (authorization f).known then
        (Policy.authorization.choose (authorization f).known).decision
      else .decline := Policy.verify_decision _ _
  rw [hverify, Policy.choose_authorization_decision]

theorem checkProposal_authorization_satisfiable (f : AuthorizationFacts) (action : String) :
    ((authorization f).checkProposal action).satisfiable = true ↔
      Policy.authorization.isSatisfied (authorization f).known = true ∧
        Policy.authorization.permits (authorization f).known action = true := by
  rw [checkProposal_satisfiable, Bool.and_eq_true]
  exact Iff.rfl

theorem decline_atMost_verify (f : AuthorizationFacts) :
    Decision.decline.AtMost (authorization f).verify.decision := by
  rw [verify_authorization_decision]
  split_ifs
  · exact ⟨0, 2, rfl, rfl, by omega⟩
  · exact ⟨0, 1, rfl, rfl, by omega⟩
  · exact ⟨0, 0, rfl, rfl, by omega⟩
  · exact ⟨0, 0, rfl, rfl, by omega⟩

/-- An accepted action is the name of the decision made. -/
theorem name_of_checkProposal {f : AuthorizationFacts} {action : String}
    (h : ((authorization f).checkProposal action).satisfiable = true) :
    ((authorization f).checkProposal action).decision.name = action := by
  rw [checkProposal_decision, if_pos h]
  have hguard := ((checkProposal_authorization_satisfiable f action).mp h).2
  rcases Policy.eq_name_of_permits_authorization hguard with rfl | rfl | rfl <;>
    rw [Decision.ofAction?_name, Option.getD_some]

/-- The check of an action is at most as lenient as the verification. -/
theorem checkProposal_atMost_verify (f : AuthorizationFacts) (action : String) :
    ((authorization f).checkProposal action).decision.AtMost (authorization f).verify.decision := by
  cases hsat : ((authorization f).checkProposal action).satisfiable with
  | false =>
    rw [checkProposal_decision, hsat]
    exact decline_atMost_verify f
  | true =>
    rw [checkProposal_decision, if_pos hsat]
    obtain ⟨hinvariants, hguard⟩ := (checkProposal_authorization_satisfiable f action).mp hsat
    rcases Policy.eq_name_of_permits_authorization hguard with rfl | rfl | rfl <;>
      rw [Decision.ofAction?_name, Option.getD_some]
    · rw [verify_authorization_decision, if_pos hinvariants, if_pos hguard]
      exact ⟨2, 2, rfl, rfl, by omega⟩
    · rw [verify_authorization_decision, if_pos hinvariants, if_pos hguard]
      split_ifs
      · exact ⟨1, 2, rfl, rfl, by omega⟩
      · exact ⟨1, 1, rfl, rfl, by omega⟩
    · exact decline_atMost_verify f

end FactRecord

open FactRecord in
/-- Whoever makes the suggestion, the decision of the soft mode is a decision on an authorization,
and it is at most as lenient as the decision of the verification. If it is not to decline, then
every invariant holds, the guard of the action of this name holds, and the suggestion that the
soft mode ends with is this action. -/
theorem runSoft_atMost_verify (f : AuthorizationFacts) (propose : Proposer) :
    (f.runSoft propose).result.decision.AtMost (authorization f).verify.decision ∧
      ((f.runSoft propose).result.decision ≠ .decline →
        (∀ invariant ∈ Policy.authorization.invariants,
          (invariant.condition.eval (authorization f).known).result = .ok true) ∧
        (∃ action,
          Policy.authorization.action? (f.runSoft propose).result.decision.name = some action ∧
            (action.condition.eval (authorization f).known).result = .ok true) ∧
        (f.runSoft propose).proposal.action = (f.runSoft propose).result.decision.name) := by
  rw [AuthorizationFacts.runSoft_result]
  refine ⟨checkProposal_atMost_verify f _, fun happroved => ?_⟩
  cases hsat : ((authorization f).checkProposal (f.runSoft propose).proposal.action).satisfiable with
  | false =>
    rw [checkProposal_decision, hsat] at happroved
    exact absurd rfl happroved
  | true =>
    have hname := name_of_checkProposal hsat
    obtain ⟨hinvariants, hguard⟩ := (checkProposal_authorization_satisfiable f _).mp hsat
    rw [hname]
    exact ⟨Policy.isSatisfied_iff.mp hinvariants, Policy.permits_iff.mp hguard, rfl⟩

end Verdict
