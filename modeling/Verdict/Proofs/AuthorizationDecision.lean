import Mathlib.Tactic.Linarith
import Verdict.Proofs.Conditions
import Verdict.Proofs.ModesAgree

/-!
# The decision on a payment

An approval asks for five facts to be known and kept within bounds, and the approval without a
further step for one more. All else is declined. The bound on the risk of a payment without the card
never decides: it is the bound of the step-up as well, so it only tells a decline with every
invariant kept from one where some invariant is violated.
-/

namespace Verdict

theorem atMost_iff {value bound : Option Decimal} :
    atMost value bound = true ↔ ∃ a ∈ value, ∃ b ∈ bound, a.value ≤ b.value := by
  cases value <;> cases bound <;> simp [atMost, Decimal.holds_order, Comparison.relates]

theorem atMost_some_iff {value : Option Decimal} {bound : Decimal} :
    atMost value bound = true ↔ ∃ a ∈ value, a.value ≤ bound.value := by
  simp [atMost_iff]

theorem value_lowRisk : lowRisk.value = 35 / 100 := by
  norm_num [Decimal.value, Decimal.signed, lowRisk, Decimal.ofParts]

theorem value_borderlineRisk : borderlineRisk.value = 55 / 100 := by
  norm_num [Decimal.value, Decimal.signed, borderlineRisk, Decimal.ofParts]

namespace AuthorizationFacts

/-- What both approvals ask for. -/
structure KeepsRules (f : AuthorizationFacts) : Prop where
  withinLimit : ∃ amount ∈ f.amount, ∃ limit ∈ f.creditLimit, amount.value ≤ limit.value
  velocity : ∃ count ∈ f.velocity, count.toInt ≤ 5
  category : ∃ code ∈ f.merchantCategoryCode, code ≠ 4829 ∧ code ≠ 7995

/-- What an approval without a further step asks for. -/
structure QualifiesNoOtp (f : AuthorizationFacts) : Prop extends KeepsRules f where
  withinBalance : ∃ amount ∈ f.amount, ∃ balance ∈ f.availableBalance, amount.value ≤ balance.value
  risk : ∃ risk ∈ f.riskScore, risk.value ≤ 35 / 100

/-- What an approval with a further step asks for. -/
structure QualifiesWithOtp (f : AuthorizationFacts) : Prop extends KeepsRules f where
  risk : ∃ risk ∈ f.riskScore, risk.value ≤ 55 / 100

variable (f : AuthorizationFacts)

/-! ## The invariants -/

theorem holds_limitOk :
    (Predicate.compare (.fact "amount") .le (.fact "credit_limit")).holds
        (FactRecord.authorization f).known = true ↔
      ∃ amount ∈ f.amount, ∃ limit ∈ f.creditLimit, amount.value ≤ limit.value := by
  rw [f.holds_compare_facts rfl rfl, ← atMost_eq, atMost_iff]

theorem holds_riskAtMost (bound : Decimal) :
    (Predicate.compare (.fact "risk_score") .le (.decimal bound)).holds
        (FactRecord.authorization f).known = true ↔
      ∃ risk ∈ f.riskScore, risk.value ≤ bound.value := by
  rw [f.holds_compare_risk, ← atMost_eq, atMost_some_iff]

theorem holds_velocityCap :
    (Predicate.compare (.fact "velocity_1h") .le (.int Policy.velocityCap)).holds
        (FactRecord.authorization f).known = true ↔
      ∃ count ∈ f.velocity, count.toInt ≤ 5 := by
  have hfact : (FactRecord.authorization f).known.get? "velocity_1h" = f.velocity.map .int :=
    FactRecord.get?_known_of_lookup rfl
  have hcap : Policy.velocityCap.toInt = 5 := by decide
  simp [Predicate.holds_compare_iff, Term.eval, Reading.ofFact_eq_ok, hfact, Value.compare_int,
    Comparison.relates, hcap]

theorem holds_mccAllowed :
    (Predicate.notIn "merchant_category_code" Policy.blockedMerchantCategories).holds
        (FactRecord.authorization f).known = true ↔
      ∃ code ∈ f.merchantCategoryCode, code ≠ 4829 ∧ code ≠ 7995 := by
  have hfact : (FactRecord.authorization f).known.get? "merchant_category_code" =
      f.merchantCategoryCode.map .int :=
    FactRecord.get?_known_of_lookup rfl
  simp [Predicate.holds_notIn_iff hfact, Policy.blockedMerchantCategories]

theorem holds_cnpTightened :
    (Predicate.implies (.all [.known ["card_not_present"], .flag "card_not_present"])
      (.compare (.fact "risk_score") .le (.ofDigits 55 2))).holds
        (FactRecord.authorization f).known = true ↔
      (f.cardNotPresent = some true → ∃ risk ∈ f.riskScore, risk.value ≤ 55 / 100) := by
  have hfact : (FactRecord.authorization f).known.get? "card_not_present" =
      f.cardNotPresent.map .bool :=
    FactRecord.get?_known_of_lookup rfl
  have hbound : (Term.ofDigits 55 2) = .decimal borderlineRisk := rfl
  rw [Predicate.holds_flagged_implies_iff hfact, hbound, holds_riskAtMost, value_borderlineRisk]

theorem isSatisfied_iff_keepsRules :
    Policy.authorization.isSatisfied (FactRecord.authorization f).known = true ↔
      f.KeepsRules ∧ (∃ risk ∈ f.riskScore, risk.value ≤ 80 / 100) ∧
        (f.cardNotPresent = some true → ∃ risk ∈ f.riskScore, risk.value ≤ 55 / 100) := by
  have hceiling : (Term.ofDigits 80 2) =
      .decimal (.ofParts false 80 2 (by decide) (by decide)) := rfl
  have hvalue : (Decimal.ofParts false 80 2 (by decide) (by decide)).value = 80 / 100 := by
    norm_num [Decimal.value, Decimal.signed, Decimal.ofParts]
  simp only [Policy.isSatisfied, Policy.authorization, List.all_cons, List.all_nil, Bool.and_true,
    Bool.and_eq_true, holds_limitOk, holds_cnpTightened, holds_velocityCap, holds_mccAllowed]
  rw [hceiling, holds_riskAtMost, hvalue]
  constructor
  · rintro ⟨hlimit, hceiling, hcnp, hvelocity, hcategory⟩
    exact ⟨⟨hlimit, hvelocity, hcategory⟩, hceiling, hcnp⟩
  · rintro ⟨hrules, hceiling, hcnp⟩
    exact ⟨hrules.withinLimit, hceiling, hcnp, hrules.velocity, hrules.category⟩

/-! ## The approvals -/

theorem qualifiesNoOtp_iff :
    f.QualifiesNoOtp ↔
      Policy.authorization.isSatisfied (FactRecord.authorization f).known = true ∧
        Policy.authorization.permits (FactRecord.authorization f).known
          Decision.approveNoOtp.name = true := by
  rw [isSatisfied_iff_keepsRules, permits_approveNoOtp, Bool.and_eq_true, atMost_some_iff,
    atMost_iff, value_lowRisk]
  constructor
  · rintro ⟨hrules, hbalance, risk, hrisk, hle⟩
    exact ⟨⟨hrules, ⟨risk, hrisk, by linarith⟩, fun _ => ⟨risk, hrisk, by linarith⟩⟩,
      ⟨risk, hrisk, hle⟩, hbalance⟩
  · rintro ⟨⟨hrules, -, -⟩, hrisk, hbalance⟩
    exact ⟨hrules, hbalance, hrisk⟩

theorem qualifiesWithOtp_iff :
    f.QualifiesWithOtp ↔
      Policy.authorization.isSatisfied (FactRecord.authorization f).known = true ∧
        Policy.authorization.permits (FactRecord.authorization f).known
          Decision.approveWithOtp.name = true := by
  rw [isSatisfied_iff_keepsRules, permits_approveWithOtp, Bool.and_eq_true, atMost_some_iff,
    atMost_iff, value_borderlineRisk]
  constructor
  · rintro ⟨hrules, risk, hrisk, hle⟩
    exact ⟨⟨hrules, ⟨risk, hrisk, by linarith⟩, fun _ => ⟨risk, hrisk, hle⟩⟩, ⟨risk, hrisk, hle⟩,
      hrules.withinLimit⟩
  · rintro ⟨⟨hrules, -, -⟩, hrisk, -⟩
    exact ⟨hrules, hrisk⟩

end AuthorizationFacts

namespace FactRecord

variable (f : AuthorizationFacts)

theorem verify_eq_approveNoOtp_iff :
    (authorization f).verify.decision = .approveNoOtp ↔ f.QualifiesNoOtp := by
  rw [verify_authorization_decision, f.qualifiesNoOtp_iff]
  split_ifs <;> simp_all

theorem verify_eq_approveWithOtp_iff :
    (authorization f).verify.decision = .approveWithOtp ↔
      f.QualifiesWithOtp ∧ ¬f.QualifiesNoOtp := by
  rw [verify_authorization_decision, f.qualifiesNoOtp_iff, f.qualifiesWithOtp_iff]
  split_ifs <;> simp_all

theorem verify_eq_decline_iff :
    (authorization f).verify.decision = .decline ↔
      ¬f.QualifiesWithOtp ∧ ¬f.QualifiesNoOtp := by
  rw [verify_authorization_decision, f.qualifiesNoOtp_iff, f.qualifiesWithOtp_iff]
  split_ifs <;> simp_all

/-- Where every invariant holds, the decision is named like the suggestion by rule. -/
theorem name_verify_decision
    (h : Policy.authorization.isSatisfied (authorization f).known = true) :
    (authorization f).verify.decision.name = (Proposal.byRule f).action := by
  rw [verify_authorization_decision, f.byRule_action, if_pos h]
  split_ifs <;> rfl

/-- A payment with every invariant kept is declined for its risk and for nothing else. -/
theorem verify_eq_decline_iff_risk
    (h : Policy.authorization.isSatisfied (authorization f).known = true) :
    (authorization f).verify.decision = .decline ↔ ∃ risk ∈ f.riskScore, 55 / 100 < risk.value := by
  obtain ⟨hrules, ⟨risk, hrisk, -⟩, -⟩ := f.isSatisfied_iff_keepsRules.mp h
  rw [verify_eq_decline_iff]
  constructor
  · rintro ⟨hwith, -⟩
    refine ⟨risk, hrisk, not_le.mp fun hle => hwith ⟨hrules, risk, hrisk, hle⟩⟩
  · rintro ⟨risk', hrisk', hlt⟩
    constructor
    · rintro ⟨-, other, hother, hle⟩
      obtain rfl : other = risk' := Option.mem_unique hother hrisk'
      linarith
    · rintro ⟨-, -, other, hother, hle⟩
      obtain rfl : other = risk' := Option.mem_unique hother hrisk'
      linarith

end FactRecord

open FactRecord in
/-- A payment is approved exactly if it qualifies, without a further step if it may be, and declined
otherwise. Where every invariant holds, the decision is the chosen action and the guard of this
action holds; it is to decline exactly if the risk is above the bound of the further step. -/
theorem verify_authorization_table (f : AuthorizationFacts) :
    ((authorization f).verify.decision = .approveNoOtp ↔ f.QualifiesNoOtp) ∧
      ((authorization f).verify.decision = .approveWithOtp ↔
        f.QualifiesWithOtp ∧ ¬f.QualifiesNoOtp) ∧
      ((authorization f).verify.decision = .decline ↔
        ¬f.QualifiesWithOtp ∧ ¬f.QualifiesNoOtp) ∧
      ((authorization f).verify.satisfiable = true →
        (authorization f).verify.chosenAction = some (authorization f).verify.decision.name ∧
          ∃ action,
            Policy.authorization.action? (authorization f).verify.decision.name = some action ∧
              (action.condition.eval (authorization f).known).result = .ok true) ∧
      ((authorization f).verify.decision = .decline ∧ (authorization f).verify.satisfiable = true ↔
        (∀ invariant ∈ Policy.authorization.invariants,
          (invariant.condition.eval (authorization f).known).result = .ok true) ∧
        ∃ risk ∈ f.riskScore, 55 / 100 < risk.value) := by
  have hsatisfiable : (authorization f).verify.satisfiable =
      Policy.authorization.isSatisfied (authorization f).known := Policy.verify_satisfiable _ _
  rw [hsatisfiable, ← Policy.isSatisfied_iff]
  refine ⟨verify_eq_approveNoOtp_iff f, verify_eq_approveWithOtp_iff f, verify_eq_decline_iff f,
    fun hsat => ⟨?_, ?_⟩, ?_⟩
  · rw [AuthorizationFacts.chosenAction_verify, if_pos hsat, name_verify_decision f hsat]
  · rw [name_verify_decision f hsat]
    exact Policy.permits_iff.mp (AuthorizationFacts.permits_byRule hsat)
  · rw [and_comm]
    exact and_congr_right fun hsat => verify_eq_decline_iff_risk f hsat

end Verdict
