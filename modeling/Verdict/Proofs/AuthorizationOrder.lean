import Verdict.Proofs.AuthorizationDecision
import Verdict.Report.Basic

/-!
# Better payments

One payment is at least as good as another if all that is known of the other is known of it as well
and speaks for an approval no less. The conditions of both approvals carry over to a better payment,
so its decision is at least as lenient, in both modes. The channel of the payment has no part in
this.
-/

namespace Verdict

namespace AuthorizationFacts

/-- What is known of the first payment is known of the second, and is no worse there. The channels
of the two payments may be any. -/
structure ImprovedBy (f f' : AuthorizationFacts) : Prop where
  amount : ∀ a ∈ f.amount, ∃ a' ∈ f'.amount, a'.value ≤ a.value
  availableBalance : ∀ b ∈ f.availableBalance, ∃ b' ∈ f'.availableBalance, b.value ≤ b'.value
  creditLimit : ∀ l ∈ f.creditLimit, ∃ l' ∈ f'.creditLimit, l.value ≤ l'.value
  riskScore : ∀ r ∈ f.riskScore, ∃ r' ∈ f'.riskScore, r'.value ≤ r.value
  merchantCategoryCode : ∀ code ∈ f.merchantCategoryCode, code ∈ f'.merchantCategoryCode
  velocity : ∀ n ∈ f.velocity, ∃ n' ∈ f'.velocity, n'.toInt ≤ n.toInt

namespace ImprovedBy

variable {f f' : AuthorizationFacts}

/-- A risk that is kept below a bound stays below it. -/
theorem risk_le (h : f.ImprovedBy f') {bound : ℚ} (hrisk : ∃ r ∈ f.riskScore, r.value ≤ bound) :
    ∃ r' ∈ f'.riskScore, r'.value ≤ bound := by
  obtain ⟨r, hr, hle⟩ := hrisk
  obtain ⟨r', hr', hle'⟩ := h.riskScore r hr
  exact ⟨r', hr', hle'.trans hle⟩

theorem keepsRules (h : f.ImprovedBy f') (hf : f.KeepsRules) : f'.KeepsRules := by
  obtain ⟨⟨a, ha, l, hl, hle⟩, ⟨n, hn, hcap⟩, code, hcode, hallowed⟩ := hf
  obtain ⟨a', ha', haa'⟩ := h.amount a ha
  obtain ⟨l', hl', hll'⟩ := h.creditLimit l hl
  obtain ⟨n', hn', hnn'⟩ := h.velocity n hn
  exact ⟨⟨a', ha', l', hl', haa'.trans (hle.trans hll')⟩, ⟨n', hn', hnn'.trans hcap⟩, code,
    h.merchantCategoryCode code hcode, hallowed⟩

theorem qualifiesWithOtp (h : f.ImprovedBy f') (hf : f.QualifiesWithOtp) : f'.QualifiesWithOtp :=
  ⟨h.keepsRules hf.toKeepsRules, h.risk_le hf.risk⟩

theorem qualifiesNoOtp (h : f.ImprovedBy f') (hf : f.QualifiesNoOtp) : f'.QualifiesNoOtp := by
  obtain ⟨a, ha, b, hb, hle⟩ := hf.withinBalance
  obtain ⟨a', ha', haa'⟩ := h.amount a ha
  obtain ⟨b', hb', hbb'⟩ := h.availableBalance b hb
  exact ⟨h.keepsRules hf.toKeepsRules, ⟨a', ha', b', hb', haa'.trans (hle.trans hbb')⟩,
    h.risk_le hf.risk⟩

end ImprovedBy

end AuthorizationFacts

namespace FactRecord

variable {f f' : AuthorizationFacts}

theorem verify_atMost_of_improvedBy (h : f.ImprovedBy f') :
    (authorization f).verify.decision.AtMost (authorization f').verify.decision := by
  by_cases hno : f.QualifiesNoOtp
  · rw [(verify_eq_approveNoOtp_iff f).mpr hno,
      (verify_eq_approveNoOtp_iff f').mpr (h.qualifiesNoOtp hno)]
    exact ⟨2, 2, rfl, rfl, le_refl 2⟩
  · by_cases hwith : f.QualifiesWithOtp
    · rw [(verify_eq_approveWithOtp_iff f).mpr ⟨hwith, hno⟩]
      by_cases hno' : f'.QualifiesNoOtp
      · rw [(verify_eq_approveNoOtp_iff f').mpr hno']
        exact ⟨1, 2, rfl, rfl, by omega⟩
      · rw [(verify_eq_approveWithOtp_iff f').mpr ⟨h.qualifiesWithOtp hwith, hno'⟩]
        exact ⟨1, 1, rfl, rfl, le_refl 1⟩
    · rw [(verify_eq_decline_iff f).mpr ⟨hwith, hno⟩]
      exact decline_atMost_verify f'

/-- The soft mode comes to the decision of the verification: a suggestion by rule passes its check
where every invariant holds, and nothing passes where one is violated. -/
theorem judge_authorization_decision (f : AuthorizationFacts) (mode : Mode) :
    ((authorization f).judge mode).1.decision = (authorization f).verify.decision := by
  cases mode with
  | hard => rfl
  | soft =>
    have hjudge : ((authorization f).judge .soft).1 = (f.runSoft Proposal.byRule).result := rfl
    rw [hjudge, verify_authorization_decision]
    cases hsat : Policy.authorization.isSatisfied (authorization f).known with
    | true =>
      have hpasses := (checkProposal_authorization_satisfiable f _).mpr
        ⟨hsat, AuthorizationFacts.permits_byRule hsat⟩
      rw [AuthorizationFacts.runSoft_byRule_of_isSatisfied hsat, checkProposal_decision,
        if_pos hpasses, f.byRule_action, if_pos rfl]
      split_ifs <;> simp
    | false =>
      have hrejects := AuthorizationFacts.rejects_of_not_isSatisfied hsat
      rw [AuthorizationFacts.runSoft_of_rejects (hrejects _), checkProposal_decision, hrejects]
      rfl

end FactRecord

open FactRecord in
/-- In both modes the decision on a payment is at least as lenient as the decision on one that it
improves. -/
theorem judge_atMost_of_improvedBy {f f' : AuthorizationFacts} (h : f.ImprovedBy f') (mode : Mode) :
    ((authorization f).judge mode).1.decision.AtMost
      ((authorization f').judge mode).1.decision := by
  rw [judge_authorization_decision, judge_authorization_decision]
  exact verify_atMost_of_improvedBy h

/-- A payment of borderline risk of which neither the balance nor the channel is known. -/
def borderlinePayment : AuthorizationFacts where
  amount := some (.ofInt 120)
  availableBalance := none
  creditLimit := some (.ofInt 1000)
  riskScore := Decimal.ofParts? false 50 2
  merchantCategoryCode := some 5999
  cardNotPresent := none
  velocity := some 1

theorem borderlinePayment_improvedBy : borderlinePayment.ImprovedBy lowRiskPayment where
  amount a ha := ⟨a, ha, le_refl _⟩
  availableBalance _ hb := absurd hb (Option.not_mem_none _)
  creditLimit l hl := ⟨l, hl, le_refl _⟩
  riskScore r hr := by
    cases hr
    exact ⟨_, rfl, by norm_num [Decimal.value, Decimal.signed, Decimal.ofParts]⟩
  merchantCategoryCode _ hcode := hcode
  velocity n hn := ⟨n, hn, le_refl _⟩

/-- With the balance known and a lower risk the further step is no longer asked for. -/
theorem judge_atMost_of_improvedBy_lowRiskPayment :
    borderlinePayment.ImprovedBy lowRiskPayment ∧
      ((FactRecord.authorization borderlinePayment).judge .soft).1.decision = .approveWithOtp ∧
      ((FactRecord.authorization lowRiskPayment).judge .soft).1.decision = .approveNoOtp ∧
      ((FactRecord.authorization borderlinePayment).judge .soft).1.decision.AtMost
        ((FactRecord.authorization lowRiskPayment).judge .soft).1.decision :=
  ⟨borderlinePayment_improvedBy, by decide +kernel, by decide +kernel,
    judge_atMost_of_improvedBy borderlinePayment_improvedBy .soft⟩

end Verdict
