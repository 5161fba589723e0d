import Verdict.Proofs.AuthorizationGuards
import Verdict.Proofs.Repair

/-!
# The two modes agree on a suggestion by rule

The suggestion by rule is the action that the verification chooses. Where every invariant holds, its
guard holds as well: a payment that no approval permits has a risk above the bound of the step-up,
since the limit is kept. Where some invariant is violated, no suggestion passes the check, and a
repaired one neither.
-/

namespace Verdict

open FactRecord

namespace AuthorizationFacts

variable (f : AuthorizationFacts)

/-- The suggestion by rule tests the guards in the order of the policy. -/
theorem byRule_action :
    (Proposal.byRule f).action =
      if Policy.authorization.permits (authorization f).known Decision.approveNoOtp.name then
        Decision.approveNoOtp.name
      else if Policy.authorization.permits (authorization f).known Decision.approveWithOtp.name then
        Decision.approveWithOtp.name
      else Decision.decline.name := by
  rw [permits_approveNoOtp, permits_approveWithOtp, Proposal.byRule]
  split
  · rfl
  · split <;> rfl

variable {f}

/-- A known risk above the bound of the step-up is enough to decline. -/
theorem permits_decline {risk : Decimal} (hrisk : f.riskScore = some risk)
    (h : atMost f.riskScore borderlineRisk = false) :
    Policy.authorization.permits (authorization f).known Decision.decline.name = true := by
  have hgreater : Comparison.gt.ofKnown f.riskScore borderlineRisk = true := by
    rw [atMost_eq, hrisk, Comparison.ofKnown] at h
    rw [hrisk, Comparison.ofKnown, ← Comparison.negate, Comparison.holds_negate, h, Bool.not_false]
  rw [← f.holds_compare_risk] at hgreater
  exact Predicate.holds_any_cons hgreater _

/-- The invariants keep the limit and have a known risk. -/
theorem known_of_isSatisfied (h : Policy.authorization.isSatisfied (authorization f).known = true) :
    atMost f.amount f.creditLimit = true ∧ ∃ risk, f.riskScore = some risk := by
  have hlimit : (⟨"limit_ok", .compare (.fact "amount") .le (.fact "credit_limit")⟩ : Clause) ∈
      Policy.authorization.invariants := List.mem_cons_self
  have hceiling : (⟨"risk_ceiling", .compare (.fact "risk_score") .le (.ofDigits 80 2)⟩ : Clause) ∈
      Policy.authorization.invariants := List.mem_cons_of_mem _ List.mem_cons_self
  constructor
  · have hholds := Policy.holds_of_isSatisfied h hlimit
    rwa [f.holds_compare_facts rfl rfl, ← atMost_eq] at hholds
  · have hholds := Policy.holds_of_isSatisfied h hceiling
    rw [Term.ofDigits, f.holds_compare_risk] at hholds
    cases hrisk : f.riskScore with
    | none => simp [hrisk, Comparison.ofKnown] at hholds
    | some risk => exact ⟨risk, rfl⟩

/-- Where every invariant holds, so does the guard of the suggestion by rule. -/
theorem permits_byRule (h : Policy.authorization.isSatisfied (authorization f).known = true) :
    Policy.authorization.permits (authorization f).known (Proposal.byRule f).action = true := by
  obtain ⟨hlimit, risk, hrisk⟩ := known_of_isSatisfied h
  rw [byRule_action]
  split
  · assumption
  · split
    · assumption
    -- Only here the invariants count: with the limit kept, it was the risk that ruled out both.
    · rename_i hwith
      rw [permits_approveWithOtp, hlimit, Bool.and_true, Bool.not_eq_true] at hwith
      exact permits_decline hrisk hwith

theorem chosenAction_verify :
    (authorization f).verify.chosenAction =
      if Policy.authorization.isSatisfied (authorization f).known then
        some (Proposal.byRule f).action
      else none := by
  have hverify : (authorization f).verify.chosenAction =
      if Policy.authorization.isSatisfied (authorization f).known then
        (Policy.authorization.choose (authorization f).known).action
      else none := Policy.verify_chosenAction _ _
  rw [hverify, Policy.choose_authorization_action, byRule_action]

/-- A suggestion by rule that passes its check is not replaced. -/
theorem runSoft_byRule_of_isSatisfied
    (h : Policy.authorization.isSatisfied (authorization f).known = true) :
    f.runSoft Proposal.byRule =
      ⟨(authorization f).checkProposal (Proposal.byRule f).action, Proposal.byRule f, false⟩ := by
  have hsatisfiable :
      ((authorization f).checkProposal (Proposal.byRule f).action).satisfiable = true :=
    (checkProposal_authorization_satisfiable f _).mpr ⟨h, permits_byRule h⟩
  simp only [runSoft, hsatisfiable, if_true]

/-- Where some invariant is violated, no action passes its check. -/
theorem rejects_of_not_isSatisfied
    (h : Policy.authorization.isSatisfied (authorization f).known = false) (proposal : Proposal) :
    f.Rejects proposal := by
  rw [Rejects, checkProposal_satisfiable, domain, Domain.policy, h, Bool.false_and]

end AuthorizationFacts

open AuthorizationFacts in
/-- With the suggestion by rule the soft mode comes to the decision of the verification, with the
same trace and the same chosen action. A suggestion is replaced exactly where some invariant is
violated. Then the core of the verification may be followed by the action that the soft mode ends
with, and by nothing else. -/
theorem runSoft_byRule_agrees (f : AuthorizationFacts) :
    (f.runSoft Proposal.byRule).result.decision = (authorization f).verify.decision ∧
      (f.runSoft Proposal.byRule).result.satisfiable = (authorization f).verify.satisfiable ∧
      (f.runSoft Proposal.byRule).result.trace = (authorization f).verify.trace ∧
      (f.runSoft Proposal.byRule).result.chosenAction = (authorization f).verify.chosenAction ∧
      (f.runSoft Proposal.byRule).repaired = !(authorization f).verify.satisfiable ∧
      ((f.runSoft Proposal.byRule).result.unsatCore = (authorization f).verify.unsatCore ∨
        (f.runSoft Proposal.byRule).result.unsatCore =
          (authorization f).verify.unsatCore ++ [(f.runSoft Proposal.byRule).proposal.action]) := by
  have hverify : (authorization f).verify.satisfiable =
      Policy.authorization.isSatisfied (authorization f).known := Policy.verify_satisfiable _ _
  have htrace : (f.runSoft Proposal.byRule).result.trace = (authorization f).verify.trace := by
    rw [runSoft_result, checkProposal_trace]
  have hcore : (f.runSoft Proposal.byRule).result.unsatCore = (authorization f).verify.unsatCore ∨
      (f.runSoft Proposal.byRule).result.unsatCore =
        (authorization f).verify.unsatCore ++ [(f.runSoft Proposal.byRule).proposal.action] := by
    rw [runSoft_result, checkProposal_unsatCore]
    split
    · exact Or.inl (List.append_nil _)
    · exact Or.inr rfl
  rw [hverify, verify_authorization_decision, chosenAction_verify]
  cases hsat : Policy.authorization.isSatisfied (authorization f).known with
  | true =>
    have hpasses := (checkProposal_authorization_satisfiable f _).mpr ⟨hsat, permits_byRule hsat⟩
    rw [runSoft_byRule_of_isSatisfied hsat] at htrace hcore ⊢
    refine ⟨?_, hpasses, htrace, ?_, rfl, hcore⟩
    · rw [checkProposal_decision, if_pos hpasses, byRule_action, if_pos rfl]
      split_ifs <;> simp
    · rw [checkProposal_chosenAction, if_pos hpasses, if_pos rfl]
  | false =>
    have hrejects := rejects_of_not_isSatisfied hsat
    rw [runSoft_of_rejects (hrejects _)] at htrace hcore ⊢
    refine ⟨?_, hrejects _, htrace, ?_, rfl, hcore⟩
    · rw [checkProposal_decision, hrejects]
      rfl
    · rw [checkProposal_chosenAction, hrejects]
      rfl

end Verdict
