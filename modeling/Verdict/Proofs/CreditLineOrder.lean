import Verdict.Proofs.CreditLineDecision

/-!
# Better credit lines

A longer tenure, a higher income and a lower current limit speak for a credit line, and where income
or limit are not known there is no bound to keep. The share of the income is a rounded product, so
that a higher income does not lower it rests on rounding keeping the order of values. The amounts
that are granted lie between the current limit and this share, with no gap.
-/

namespace Verdict

theorem Decimal.WithinShare.mono {requested income income' : Decimal}
    (h : requested.WithinShare income) (hle : income.value ≤ income'.value) :
    requested.WithinShare income' := by
  obtain ⟨share, -, hshare⟩ := income.exists_share
  obtain ⟨share', -, hshare'⟩ := income'.exists_share
  rw [withinShare_iff hshare] at h
  rw [withinShare_iff hshare']
  exact h.trans (hshare.mono hshare' (by gcongr))

theorem Decimal.WithinShare.anti {requested requested' income : Decimal}
    (h : requested.WithinShare income) (hle : requested'.value ≤ requested.value) :
    requested'.WithinShare income := by
  obtain ⟨share, -, hshare⟩ := income.exists_share
  rw [withinShare_iff hshare] at h ⊢
  exact hle.trans h

namespace CreditLineFacts

/-- The same line is asked for by a customer of at least the same tenure. What is known of the
second income and of the second limit was known of the first, and is no tighter. -/
structure ImprovedBy (f f' : CreditLineFacts) : Prop where
  amountRequested : f'.amountRequested = f.amountRequested
  delinquent : f'.delinquent = f.delinquent
  tenureMonths : ∀ n ∈ f.tenureMonths, ∃ n' ∈ f'.tenureMonths, n.toInt ≤ n'.toInt
  income : ∀ i' ∈ f'.income, ∃ i ∈ f.income, i.value ≤ i'.value
  currentLimit : ∀ l' ∈ f'.currentLimit, ∃ l ∈ f.currentLimit, l'.value ≤ l.value

variable {f f' : CreditLineFacts}

theorem ImprovedBy.qualifies (h : f.ImprovedBy f') (hf : f.Qualifies) : f'.Qualifies where
  tenure := by
    obtain ⟨n, hn, hminimum⟩ := hf.tenure
    obtain ⟨n', hn', hle⟩ := h.tenureMonths n hn
    exact ⟨n', hn', hminimum.trans hle⟩
  notDelinquent := h.delinquent.trans hf.notDelinquent
  withinShare a ha i' hi' := by
    obtain ⟨i, hi, hle⟩ := h.income i' hi'
    exact (hf.withinShare a (h.amountRequested ▸ ha) i hi).mono hle
  notBelowLimit a ha l' hl' := by
    obtain ⟨l, hl, hle⟩ := h.currentLimit l' hl'
    exact hle.trans (hf.notBelowLimit a (h.amountRequested ▸ ha) l hl)

/-- The same record with a request for the given amount. -/
def requesting (f : CreditLineFacts) (amount : Decimal) : CreditLineFacts :=
  { f with amountRequested := some amount }

/-- The lower amount is not below the limit, and the higher one is within the share. -/
theorem Qualifies.between {low middle high : Decimal} (hlow : (f.requesting low).Qualifies)
    (hhigh : (f.requesting high).Qualifies) (hle : low.value ≤ middle.value)
    (hle' : middle.value ≤ high.value) : (f.requesting middle).Qualifies where
  tenure := hlow.tenure
  notDelinquent := hlow.notDelinquent
  withinShare a ha income hincome := by
    obtain rfl : middle = a := Option.some.inj ha
    exact (hhigh.withinShare high rfl income hincome).anti hle'
  notBelowLimit a ha limit hlimit := by
    obtain rfl : middle = a := Option.some.inj ha
    exact (hlow.notBelowLimit low rfl limit hlimit).trans hle

end CreditLineFacts

namespace FactRecord

theorem verify_eq_approve_iff (f : CreditLineFacts) :
    (creditLineIncrease f).verify.decision = .approve ↔ f.Qualifies := by
  have hdecision : (creditLineIncrease f).verify.decision =
      if Policy.creditLineIncrease.isSatisfied (creditLineIncrease f).known then
        .approve else .decline :=
    Policy.verify_decision ..
  rw [hdecision, ← f.isSatisfied_iff_qualifies]
  split <;> simp_all

end FactRecord

open FactRecord in
/-- An approval carries over to a record that improves on the approved one. Between two amounts that
are approved every amount is approved. -/
theorem creditLine_approval_monotone_convex :
    (∀ f f' : CreditLineFacts, f.ImprovedBy f' →
        (creditLineIncrease f).verify.decision = .approve →
          (creditLineIncrease f').verify.decision = .approve) ∧
      ∀ (f : CreditLineFacts) (low middle high : Decimal),
        low.value ≤ middle.value → middle.value ≤ high.value →
        (creditLineIncrease (f.requesting low)).verify.decision = .approve →
        (creditLineIncrease (f.requesting high)).verify.decision = .approve →
          (creditLineIncrease (f.requesting middle)).verify.decision = .approve := by
  simp only [verify_eq_approve_iff]
  exact ⟨fun f f' h hf => h.qualifies hf, fun f low middle high hle hle' hlow hhigh =>
    hlow.between hhigh hle hle'⟩

/-- A request for a decimal of one place next to the largest there is, on an income of which the
share is exact. -/
def exactShareLine : CreditLineFacts where
  amountRequested := Decimal.ofParts? false 79228162514264337593543950335 1
  currentLimit := some (.ofInt 5000)
  income := Decimal.ofParts? false 26409387504754779197847983445 0
  tenureMonths := some 6
  delinquent := some false

/-- The same request on the next income, of which the share loses its place. -/
def roundedShareLine : CreditLineFacts :=
  { exactShareLine with
    currentLimit := none
    income := Decimal.ofParts? false 26409387504754779197847983446 0
    tenureMonths := some 7 }

theorem exactShareLine_improvedBy : exactShareLine.ImprovedBy roundedShareLine where
  amountRequested := rfl
  delinquent := rfl
  tenureMonths n hn := by
    cases hn
    exact ⟨7, rfl, by decide⟩
  income i' hi' := by
    cases hi'
    exact ⟨_, rfl, by norm_num [Decimal.value, Decimal.signed, Decimal.ofParts]⟩
  currentLimit _ hl' := absurd hl' (Option.not_mem_none _)

/-- On either income the line is granted; on the second one so is the share that is rounded up, and
therefore any amount from the old limit up to it. -/
theorem creditLine_approval_monotone_convex_roundedShare :
    exactShareLine.ImprovedBy roundedShareLine ∧
      (FactRecord.creditLineIncrease exactShareLine).verify.decision = .approve ∧
      (FactRecord.creditLineIncrease roundedShareLine).verify.decision = .approve ∧
      ∀ amount : Decimal, 5000 ≤ amount.value → amount.value ≤ 7922816251426433759354395034 →
        (FactRecord.creditLineIncrease (roundedShareLine.requesting amount)).verify.decision =
          .approve := by
  have happroved : (FactRecord.creditLineIncrease exactShareLine).verify.decision = .approve := by
    decide +kernel
  refine ⟨exactShareLine_improvedBy, happroved,
    creditLine_approval_monotone_convex.1 _ _ exactShareLine_improvedBy happroved,
    fun amount hlow hhigh => ?_⟩
  refine creditLine_approval_monotone_convex.2 roundedShareLine (.ofInt 5000) amount
    (.ofParts false 7922816251426433759354395034 0 (by decide) (by decide)) ?_ ?_
    (by decide +kernel) (by decide +kernel)
  · rw [Decimal.value_ofInt]
    exact hlow
  · refine hhigh.trans_eq ?_
    norm_num [Decimal.value, Decimal.signed, Decimal.ofParts]

end Verdict
