import Verdict.Proofs.Conditions
import Verdict.Proofs.RecordLookup
import Verdict.Proofs.RoundedProduct

/-!
# The decision on a credit line

A credit line is granted exactly if each of four conditions on the fields of the record holds.
Amounts are compared by their exact values. The share of the income is the one number that is
computed, and it is rounded to a decimal.
-/

namespace Verdict

/-! ## The conditions of the policy -/

namespace Decimal

/-- The decimal is at most the share of the income that a credit line may have, or it is the
decimal to which this share is rounded. -/
def WithinShare (requested income : Decimal) : Prop :=
  requested.value ≤ income.value * (3 / 10) ∨
    ∃ share : Decimal, share.IsRounding (income.value * (3 / 10)) ∧ requested.value = share.value

theorem value_incomeShare : Policy.incomeShare.value = 3 / 10 := by
  norm_num [value, signed, Policy.incomeShare, ofParts]

/-- The share of an income does not overflow. -/
theorem exists_share (income : Decimal) :
    ∃ share, income.mul? Policy.incomeShare = some share ∧
      share.IsRounding (income.value * (3 / 10)) := by
  rw [← value_incomeShare]
  refine exists_mul?_of_abs_le_one income ?_
  rw [value_incomeShare]
  norm_num

theorem withinShare_iff {requested income share : Decimal}
    (h : share.IsRounding (income.value * (3 / 10))) :
    requested.WithinShare income ↔ requested.value ≤ share.value := by
  rw [h.le_iff, WithinShare]
  constructor
  · rintro (hle | ⟨share', hshare', heq⟩)
    · exact Or.inl hle
    · exact Or.inr (heq.trans (hshare'.value_unique h))
  · rintro (hle | heq)
    · exact Or.inl hle
    · exact Or.inr ⟨share, h, heq⟩

end Decimal

namespace CreditLineFacts

/-- What a record must show for its credit line to be granted. -/
structure Qualifies (f : CreditLineFacts) : Prop where
  tenure : ∃ months ∈ f.tenureMonths, 6 ≤ months.toInt
  notDelinquent : f.delinquent = some false
  withinShare : ∀ requested ∈ f.amountRequested, ∀ income ∈ f.income, requested.WithinShare income
  notBelowLimit : ∀ requested ∈ f.amountRequested, ∀ limit ∈ f.currentLimit,
    limit.value ≤ requested.value

variable (f : CreditLineFacts)

theorem holds_minTenure :
    (Predicate.compare (.fact "tenure_months") .ge (.int Policy.minimumTenureMonths)).holds
        (FactRecord.creditLineIncrease f).known = true ↔
      ∃ months ∈ f.tenureMonths, 6 ≤ months.toInt := by
  have hfact : (FactRecord.creditLineIncrease f).known.get? "tenure_months" =
      f.tenureMonths.map .int :=
    FactRecord.get?_known_of_lookup rfl
  have hminimum : Policy.minimumTenureMonths.toInt = 6 := by decide
  simp [Predicate.holds_compare_iff, Term.eval, Reading.ofFact_eq_ok, hfact, Value.compare_int,
    Comparison.relates, hminimum]

theorem holds_noDelinquency :
    (Predicate.not (.flag "delinquent")).holds (FactRecord.creditLineIncrease f).known = true ↔
      f.delinquent = some false := by
  have hfact : (FactRecord.creditLineIncrease f).known.get? "delinquent" =
      f.delinquent.map .bool :=
    FactRecord.get?_known_of_lookup rfl
  simp [Predicate.holds_not_flag_iff, hfact]

theorem holds_notBelowLimit :
    (Predicate.implies (.known ["amount_requested", "current_limit"])
      (.compare (.fact "amount_requested") .ge (.fact "current_limit"))).holds
        (FactRecord.creditLineIncrease f).known = true ↔
      ∀ requested ∈ f.amountRequested, ∀ limit ∈ f.currentLimit,
        limit.value ≤ requested.value := by
  have hrequested : (FactRecord.creditLineIncrease f).known.get? "amount_requested" =
      f.amountRequested.map .decimal :=
    FactRecord.get?_known_of_lookup rfl
  have hlimit : (FactRecord.creditLineIncrease f).known.get? "current_limit" =
      f.currentLimit.map .decimal :=
    FactRecord.get?_known_of_lookup rfl
  rw [Predicate.holds_known_implies_iff, Predicate.holds_compare_iff]
  simp only [List.forall_mem_cons, FactSet.isKnown, Term.eval, Reading.ofFact_eq_ok, hrequested,
    hlimit]
  cases f.amountRequested <;> cases f.currentLimit <;>
    simp [Value.compare_decimal, Comparison.relates]

theorem holds_withinIncomeRatio :
    (Predicate.implies (.known ["amount_requested", "income"])
      (.compare (.fact "amount_requested") .le (.scaled "income" Policy.incomeShare))).holds
        (FactRecord.creditLineIncrease f).known = true ↔
      ∀ requested ∈ f.amountRequested, ∀ income ∈ f.income, requested.WithinShare income := by
  have hrequested : (FactRecord.creditLineIncrease f).known.get? "amount_requested" =
      f.amountRequested.map .decimal :=
    FactRecord.get?_known_of_lookup rfl
  have hincome : (FactRecord.creditLineIncrease f).known.get? "income" =
      f.income.map .decimal :=
    FactRecord.get?_known_of_lookup rfl
  rw [Predicate.holds_known_implies_iff, Predicate.holds_compare_iff]
  simp only [List.forall_mem_cons, FactSet.isKnown, Term.eval, Reading.ofFact_eq_ok, hrequested,
    hincome, Reading.result_bind_eq_ok]
  cases hr : f.amountRequested with
  | none => simp
  | some requested =>
    cases hi : f.income with
    | none => simp
    | some income =>
      obtain ⟨share, hshare, hrounded⟩ := income.exists_share
      have hscale : (Value.decimal income).scale Policy.incomeShare = .ok (.decimal share) := by
        simp [Value.scale, Value.asDecimal, bind, Except.bind, hshare]
      simp [Reading.ofExcept, hscale, Value.compare_decimal, Comparison.relates,
        Decimal.withinShare_iff hrounded]

theorem isSatisfied_iff_qualifies :
    Policy.creditLineIncrease.isSatisfied (FactRecord.creditLineIncrease f).known = true ↔
      f.Qualifies := by
  simp only [Policy.isSatisfied, Policy.creditLineIncrease, List.all_cons, List.all_nil,
    Bool.and_true, Bool.and_eq_true, holds_minTenure, holds_noDelinquency, holds_notBelowLimit,
    holds_withinIncomeRatio]
  constructor
  · rintro ⟨htenure, hdelinquent, hshare, hlimit⟩
    exact ⟨htenure, hdelinquent, hshare, hlimit⟩
  · intro h
    exact ⟨h.tenure, h.notDelinquent, h.withinShare, h.notBelowLimit⟩

end CreditLineFacts

/-- A credit line is granted exactly if the record qualifies, and is declined otherwise. -/
theorem verify_creditLine_approve_iff (f : CreditLineFacts) :
    ((FactRecord.creditLineIncrease f).verify.decision = .approve ↔ f.Qualifies) ∧
      ((FactRecord.creditLineIncrease f).verify.decision = .approve ∨
        (FactRecord.creditLineIncrease f).verify.decision = .decline) := by
  have hdecision : (FactRecord.creditLineIncrease f).verify.decision =
      if Policy.creditLineIncrease.isSatisfied (FactRecord.creditLineIncrease f).known then
        .approve else .decline :=
    Policy.verify_decision ..
  rw [hdecision, ← f.isSatisfied_iff_qualifies]
  split <;> simp_all

/-- An income of which the share is rounded up, and a request for the rounded share. -/
def roundedUpLine : CreditLineFacts where
  amountRequested := Decimal.ofParts? false 1 28
  currentLimit := none
  income := Decimal.ofParts? false 2 28
  tenureMonths := some 6
  delinquent := some false

/-- A credit line can be granted that is above the exact share of the income. -/
theorem approved_above_exact_share :
    (FactRecord.creditLineIncrease roundedUpLine).verify.decision = .approve ∧
      ∃ requested ∈ roundedUpLine.amountRequested, ∃ income ∈ roundedUpLine.income,
        income.value * (3 / 10) < requested.value := by
  refine ⟨by rfl, _, rfl, _, rfl, ?_⟩
  norm_num [Decimal.value, Decimal.signed, Decimal.ofParts]

end Verdict
