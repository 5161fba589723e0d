import Mathlib.Data.List.Forall2
import Verdict.Proofs.CreditLineDecision
import Verdict.Proofs.Indistinguishable
import Verdict.Report.Basic

/-!
# Equal facts

A number is written as a decimal with more places or with fewer. Records whose facts are equal as
numbers are judged alike: decimals are compared by their values, no fault quotes a fact, and the one
product that is computed from a fact, the share of the income, is rounded to the same number however
many places the income has.
-/

namespace Verdict

/-- The values are equal, decimals as numbers. -/
inductive Value.Same : Value → Value → Prop where
  | refl (v : Value) : Same v v
  | decimal {a b : Decimal} (h : a.value = b.value) : Same (.decimal a) (.decimal b)

/-- Records of one domain that have the same facts known, with equal values. -/
structure FactRecord.Same (r r' : FactRecord) : Prop where
  domain : r'.domain = r.domain
  fields : List.Forall₂
    (fun field field' => field'.1 = field.1 ∧ Option.Rel Value.Same field.2 field'.2)
    r.fields r'.fields

theorem FactRecord.domain_cases {r r' : FactRecord} (h : r'.domain = r.domain) :
    (∃ f f', r = authorization f ∧ r' = authorization f') ∨
      (∃ f f', r = dispute f ∧ r' = dispute f') ∨
      ∃ f f', r = creditLineIncrease f ∧ r' = creditLineIncrease f' := by
  cases r <;> cases r' <;> simp_all [domain]

/-! ## Equal values -/

namespace Decimal

variable {a b a' b' : Decimal}

theorem order_congr (h : a.value = b.value) (h' : a'.value = b'.value) :
    b.order b' = a.order a' := by
  rw [order, order, units_eq_iff.mpr h, units_eq_iff.mpr h']

theorem exists_shares (h : a.value = b.value) :
    ∃ share share', a.mul? Policy.incomeShare = some share ∧
      b.mul? Policy.incomeShare = some share' ∧ share.value = share'.value := by
  obtain ⟨share, hmul, hrounded⟩ := a.exists_share
  obtain ⟨share', hmul', hrounded'⟩ := b.exists_share
  -- The products may be other decimals, but both are the rounding of one number.
  rw [h] at hrounded
  exact ⟨share, share', hmul, hmul', hrounded.value_unique hrounded'⟩

end Decimal

namespace Value

theorem compare_decimal_congr {a b : Decimal} (h : a.value = b.value) (c : Comparison) (v : Value) :
    (decimal b).compare c v = (decimal a).compare c v ∧
      v.compare c (decimal b) = v.compare c (decimal a) := by
  cases v <;> simp [compare, asDecimal, bind, Except.bind, Decimal.order_congr h rfl,
    Decimal.order_congr rfl h]

/-- Of all that a policy does with values nothing tells equal values apart. -/
theorem indistinguishable_same : Indistinguishable [Policy.incomeShare] Same where
  refl := Same.refl
  asBool h := by cases h <;> rfl
  asInt h := by cases h <;> rfl
  compare c {v w v' w'} h h' := by
    have hleft : w.compare c w' = v.compare c w' := by
      cases h with
      | refl => rfl
      | decimal h => exact (compare_decimal_congr h c w').1
    have hright : v.compare c w' = v.compare c v' := by
      cases h' with
      | refl => rfl
      | decimal h' => exact (compare_decimal_congr h' c v).2
    exact hleft.trans hright
  scale factor hfactor {v w} h := by
    rw [List.mem_singleton.mp hfactor]
    cases h with
    | refl =>
      cases v.scale Policy.incomeShare with
      | ok product => exact Or.inl ⟨product, product, rfl, rfl, .refl product⟩
      | error fault => exact Or.inr ⟨fault, rfl, rfl⟩
    | decimal h =>
      obtain ⟨share, share', hmul, hmul', hvalue⟩ := Decimal.exists_shares h
      refine Or.inl ⟨.decimal share, .decimal share', ?_, ?_, .decimal hvalue⟩
      · simp [scale, asDecimal, bind, Except.bind, hmul]
      · simp [scale, asDecimal, bind, Except.bind, hmul']

end Value

/-- The share of the income is the only number that a policy scales by. -/
theorem Domain.factors_policy (d : Domain) : d.policy.factors ⊆ [Policy.incomeShare] := by
  cases d <;> decide

/-! ## Equal records -/

namespace FactRecord

variable {r r' : FactRecord}

theorem Same.known (h : r.Same r') : FactSet.Related Value.Same r.known r'.known := by
  intro fact
  have hrel := Keyed.rel_lookup h.fields fact
  rw [get?_known, get?_known]
  generalize r.fields.lookup fact = value, r'.fields.lookup fact = value' at hrel ⊢
  cases hrel with
  | some h => exact h
  | none => exact .none

theorem indistinguishable_same (r : FactRecord) :
    Value.Indistinguishable r.domain.policy.factors Value.Same :=
  Value.indistinguishable_same.mono r.domain.factors_policy

theorem Same.verify (h : r.Same r') : r'.verify = r.verify :=
  verify_related r.indistinguishable_same h.domain h.known

theorem Same.checkProposal (h : r.Same r') (action : String) :
    r'.checkProposal action = r.checkProposal action :=
  checkProposal_related r.indistinguishable_same h.domain h.known action

/-- A decimal has the same value in both records or is unknown in both. -/
theorem Same.map_value (h : r.Same r') (fact : String) {d d' : Option Decimal}
    (hd : r.fields.lookup fact = some (d.map .decimal))
    (hd' : r'.fields.lookup fact = some (d'.map .decimal)) :
    d'.map Decimal.value = d.map Decimal.value := by
  have hrel := h.known fact
  rw [get?_known_of_lookup hd, get?_known_of_lookup hd'] at hrel
  cases d with
  | none =>
    cases d' with
    | none => rfl
    | some b => cases hrel
  | some a =>
    cases d' with
    | none => cases hrel
    | some b =>
      cases hrel with
      | some hsame =>
        cases hsame with
        | refl => rfl
        | decimal hvalue => exact congrArg some hvalue.symm

end FactRecord

/-! ## The soft mode -/

theorem atMost_congr {value value' bound bound' : Option Decimal}
    (h : value'.map Decimal.value = value.map Decimal.value)
    (hbound : bound'.map Decimal.value = bound.map Decimal.value) :
    atMost value' bound' = atMost value bound := by
  cases value <;> cases value' <;> cases bound <;> cases bound' <;>
    simp_all [atMost, Decimal.holds_order]

namespace AuthorizationFacts

variable {f f' : AuthorizationFacts}

open FactRecord in
theorem atMost_same (h : (authorization f).Same (authorization f')) (bound : Decimal) :
    atMost f'.riskScore bound = atMost f.riskScore bound ∧
      atMost f'.amount f'.availableBalance = atMost f.amount f.availableBalance ∧
      atMost f'.amount f'.creditLimit = atMost f.amount f.creditLimit :=
  ⟨atMost_congr (h.map_value "risk_score" rfl rfl) rfl,
    atMost_congr (h.map_value "amount" rfl rfl) (h.map_value "available_balance" rfl rfl),
    atMost_congr (h.map_value "amount" rfl rfl) (h.map_value "credit_limit" rfl rfl)⟩

theorem runSoft_same (h : (FactRecord.authorization f).Same (.authorization f')) :
    f'.runSoft Proposal.byRule = f.runSoft Proposal.byRule := by
  obtain ⟨hlow, hbalance, hlimit⟩ := atMost_same h lowRisk
  have hborderline := (atMost_same h borderlineRisk).1
  have hpropose : Proposal.byRule f' = Proposal.byRule f := by
    simp only [Proposal.byRule, hlow, hborderline, hbalance, hlimit]
  have hrepair : ∀ core, Proposal.repair core f' = Proposal.repair core f := by
    intro core
    simp only [Proposal.repair, hborderline, hlimit]
  simp only [runSoft, hpropose, hrepair, h.checkProposal]

end AuthorizationFacts

theorem FactRecord.Same.judge {r r' : FactRecord} (h : r.Same r') (mode : Mode) :
    r'.judge mode = r.judge mode := by
  have hverify : (r'.verify, (none : Option String)) = (r.verify, none) := by rw [h.verify]
  cases mode with
  | hard => cases r <;> cases r' <;> exact hverify
  | soft =>
    rcases domain_cases h.domain with ⟨f, f', rfl, rfl⟩ | ⟨f, f', rfl, rfl⟩ | ⟨f, f', rfl, rfl⟩
    · simp only [FactRecord.judge, AuthorizationFacts.runSoft_same h]
    · exact hverify
    · exact hverify

/-- Records of equal facts are verified alike, every action is checked with the same result, and the
suggestions by rule end in the same outcome. -/
theorem verified_alike_of_same {r r' : FactRecord} (h : r.Same r') :
    r'.verify = r.verify ∧
      (∀ action, r'.checkProposal action = r.checkProposal action) ∧
      ∀ f f', r = .authorization f → r' = .authorization f' →
        f'.runSoft Proposal.byRule = f.runSoft Proposal.byRule := by
  refine ⟨h.verify, h.checkProposal, ?_⟩
  rintro f f' rfl rfl
  exact AuthorizationFacts.runSoft_same h

/-- A credit line with an income that is near the largest decimal of one place. -/
def largeIncome : CreditLineFacts where
  amountRequested := Decimal.ofParts? false 1 0
  currentLimit := none
  income := Decimal.ofParts? false 7922816251426433759354395033 0
  tenureMonths := some 6
  delinquent := some false

/-- The same credit line with one more place in its income, for which the share has no room. -/
def largeIncomeInTenths : CreditLineFacts where
  amountRequested := Decimal.ofParts? false 100 2
  currentLimit := none
  income := Decimal.ofParts? false 79228162514264337593543950330 1
  tenureMonths := some 6
  delinquent := some false

theorem same_largeIncome :
    (FactRecord.creditLineIncrease largeIncome).Same (.creditLineIncrease largeIncomeInTenths) := by
  refine ⟨rfl, .cons ⟨rfl, .some (.decimal ?_)⟩ (.cons ⟨rfl, .none⟩
    (.cons ⟨rfl, .some (.decimal ?_)⟩ (.cons ⟨rfl, .some (.refl _)⟩
      (.cons ⟨rfl, .some (.refl _)⟩ .nil))))⟩ <;>
    norm_num [Decimal.value, Decimal.signed, Decimal.ofParts]

theorem verified_alike_of_same_largeIncome :
    (FactRecord.creditLineIncrease largeIncome).Same (.creditLineIncrease largeIncomeInTenths) ∧
      largeIncomeInTenths ≠ largeIncome ∧
      (FactRecord.creditLineIncrease largeIncomeInTenths).verify =
        (FactRecord.creditLineIncrease largeIncome).verify ∧
      (FactRecord.creditLineIncrease largeIncome).verify.decision = .approve :=
  ⟨same_largeIncome, by decide, (verified_alike_of_same same_largeIncome).1, by rfl⟩

end Verdict
