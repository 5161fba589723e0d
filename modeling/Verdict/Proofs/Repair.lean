import Verdict.Proofs.SoftMode

/-!
# The repair of a rejected suggestion

A check leaves the violated invariants in its core, and after them the suggested action unless its
guard holds. The repair looks for the name of one invariant in that core. So an outcome depends on
the rejected suggestion only through one question: is the suggested action called like that
invariant? Where the invariant itself is violated, not even this counts.
-/

namespace Verdict

/-- The action is left in the core exactly if the policy does not permit it. -/
theorem Policy.checkAction_core (policy : Policy) (facts : FactSet) (action : String) :
    (policy.checkAction facts action).2 =
      if policy.permits facts action then [] else [action] := by
  unfold checkAction permits
  cases hfound : policy.action? action with
  | none => rfl
  | some clause =>
    have hname : clause.name = action := by simpa using List.find?_some hfound
    simp [Clause.outcome_holds, hname]

namespace FactRecord

theorem checkProposal_unsatCore (r : FactRecord) (action : String) :
    (r.checkProposal action).unsatCore =
      r.verify.unsatCore ++ if r.domain.policy.permits r.known action then [] else [action] := by
  rw [← Policy.checkAction_core]
  rfl

theorem checkProposal_chosenAction (r : FactRecord) (action : String) :
    (r.checkProposal action).chosenAction =
      if (r.checkProposal action).satisfiable then some action else none := rfl

/-- The check of an action evaluates the invariants as the verification does. -/
theorem checkProposal_trace (r : FactRecord) (action : String) :
    (r.checkProposal action).trace = r.verify.trace := rfl

/-- No action has the name of the invariant that the repair looks for, so a suggestion of this name
ends up in the core beside the violated invariants. -/
theorem mem_unsatCore_checkProposal (f : AuthorizationFacts) (action : String) :
    "cnp_tightened" ∈ ((authorization f).checkProposal action).unsatCore ↔
      "cnp_tightened" ∈ (authorization f).verify.unsatCore ∨ action = "cnp_tightened" := by
  rw [checkProposal_unsatCore, List.mem_append]
  refine or_congr_right ?_
  constructor
  · intro h
    split at h
    · exact absurd h List.not_mem_nil
    · exact (List.mem_singleton.mp h).symm
  · rintro rfl
    have hpermits : (authorization f).domain.policy.permits (authorization f).known
        "cnp_tightened" = false := rfl
    rw [hpermits]
    exact List.mem_singleton_self _

end FactRecord

namespace Proposal

/-- The repair tells two cores apart only by the name of the invariant. The reason that it gives
where it has found the name is given nowhere else. -/
theorem repair_eq_iff {core core' : List String} {f : AuthorizationFacts} :
    repair core f = repair core' f ↔ ("cnp_tightened" ∈ core ↔ "cnp_tightened" ∈ core') := by
  -- Not the action: a decline may also come from an unknown or too high risk.
  have hreason : ∀ core, (repair core f).justification = "CNP with risk above policy threshold." ↔
      "cnp_tightened" ∈ core := by
    intro core
    unfold repair
    split
    · simpa
    · split <;> simpa
  constructor
  · intro heq
    rw [← hreason core, heq, hreason core']
  · intro hsame
    simp only [repair, hsame]

end Proposal

namespace AuthorizationFacts

/-- The check of the suggested action fails. -/
def Rejects (f : AuthorizationFacts) (proposal : Proposal) : Prop :=
  ((FactRecord.authorization f).checkProposal proposal.action).satisfiable = false

instance (f : AuthorizationFacts) (proposal : Proposal) : Decidable (f.Rejects proposal) :=
  inferInstanceAs (Decidable (_ = false))

variable {f : AuthorizationFacts} {propose propose' : Proposer}

theorem runSoft_of_rejects (h : f.Rejects (propose f)) :
    f.runSoft propose =
      let core := ((FactRecord.authorization f).checkProposal (propose f).action).unsatCore
      ⟨(FactRecord.authorization f).checkProposal (Proposal.repair core f).action,
        Proposal.repair core f, true⟩ := by
  have hrejected : ((FactRecord.authorization f).checkProposal
      (propose f).action).satisfiable = false := h
  simp only [runSoft, hrejected, Bool.false_eq_true, if_false]

/-- After a rejection the repaired suggestion determines the outcome, and is part of it. -/
theorem runSoft_eq_iff_of_rejects (h : f.Rejects (propose f)) (h' : f.Rejects (propose' f)) :
    f.runSoft propose = f.runSoft propose' ↔
      Proposal.repair
          ((FactRecord.authorization f).checkProposal (propose f).action).unsatCore f =
        Proposal.repair
          ((FactRecord.authorization f).checkProposal (propose' f).action).unsatCore f := by
  rw [runSoft_of_rejects h, runSoft_of_rejects h']
  constructor
  · intro heq
    exact congrArg SoftOutcome.proposal heq
  · intro heq
    simp only [heq]

end AuthorizationFacts

open FactRecord AuthorizationFacts in
/-- Two rejected suggestions end in the same outcome exactly if the invariant that the repair looks
for is violated, or both suggestions are called like it, or neither is. -/
theorem runSoft_rejected_eq_iff {f : AuthorizationFacts} {propose propose' : Proposer}
    (h : f.Rejects (propose f)) (h' : f.Rejects (propose' f)) :
    f.runSoft propose = f.runSoft propose' ↔
      "cnp_tightened" ∈ (authorization f).verify.unsatCore ∨
        ((propose f).action = "cnp_tightened" ↔ (propose' f).action = "cnp_tightened") := by
  rw [runSoft_eq_iff_of_rejects h h', Proposal.repair_eq_iff, mem_unsatCore_checkProposal,
    mem_unsatCore_checkProposal]
  by_cases hviolated : "cnp_tightened" ∈ (authorization f).verify.unsatCore
  · simp [hviolated]
  · simp [hviolated]

/-- A payment of low risk within the available balance. -/
def lowRiskPayment : AuthorizationFacts where
  amount := some (.ofInt 120)
  availableBalance := some (.ofInt 500)
  creditLimit := some (.ofInt 1000)
  riskScore := Decimal.ofParts? false 30 2
  merchantCategoryCode := some 5999
  cardNotPresent := some false
  velocity := some 1

/-- The name of another invariant and a decision that is no action come to the same. -/
theorem runSoft_rejected_eq_iff_lowRiskPayment :
    lowRiskPayment.Rejects ⟨"limit_ok", ""⟩ ∧ lowRiskPayment.Rejects ⟨"approve", "Low risk."⟩ ∧
      (lowRiskPayment.runSoft fun _ => ⟨"limit_ok", ""⟩) =
        lowRiskPayment.runSoft fun _ => ⟨"approve", "Low risk."⟩ := by
  have h : lowRiskPayment.Rejects ⟨"limit_ok", ""⟩ := by decide +kernel
  have h' : lowRiskPayment.Rejects ⟨"approve", "Low risk."⟩ := by decide +kernel
  refine ⟨h, h', ?_⟩
  exact (runSoft_rejected_eq_iff h h').mpr (Or.inr (by decide))

/-- A rejected suggestion that is called like the invariant has the payment declined, with a reason
that is not true of it; another one ends in an approval. -/
theorem rejected_name_declines :
    lowRiskPayment.Rejects ⟨"cnp_tightened", ""⟩ ∧ lowRiskPayment.Rejects ⟨"approve", ""⟩ ∧
      "cnp_tightened" ∉ (FactRecord.authorization lowRiskPayment).verify.unsatCore ∧
      (lowRiskPayment.runSoft fun _ => ⟨"cnp_tightened", ""⟩).proposal =
        ⟨"decline", "CNP with risk above policy threshold."⟩ ∧
      (lowRiskPayment.runSoft fun _ => ⟨"cnp_tightened", ""⟩).result.decision = .decline ∧
      (lowRiskPayment.runSoft fun _ => ⟨"approve", ""⟩).result.decision = .approveWithOtp := by
  decide +kernel

end Verdict
