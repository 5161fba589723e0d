import Verdict.Policy.Basic

/-!
# The policies in force

One policy for each domain, and the thresholds of the suggestions that follow them.
-/

namespace Verdict

namespace Term

/-- The decimal with the given digits, the last `places` of them after the point. -/
def ofDigits (digits : Nat) (places : Nat) (hc : digits < 2 ^ 96 := by decide)
    (hs : places ≤ 28 := by decide) : Term :=
  decimal (.ofParts false digits places hc hs)

end Term

namespace Policy

/-- Merchant categories for which nothing is authorized: wire transfers and betting. -/
def blockedMerchantCategories : List Int64 := [4829, 7995]

/-- The most transactions within an hour. -/
def velocityCap : Int64 := 5

/-- The days after a transaction within which a claim can be made. -/
def refundWindowDays : Int64 := 120

/-- The months that a customer must have been one before a line is increased. -/
def minimumTenureMonths : Int64 := 6

/-- The largest share of the income that a credit line may have. -/
def incomeShare : Decimal :=
  .ofParts false 3 1 (by decide) (by decide)

/-- Authorization of a card payment. A payment whose channel is not known does not count as one
without the card. -/
def authorization : Policy where
  id := "auth_v1"
  domain := .authorization
  facts := [
    ⟨"amount", .real⟩,
    ⟨"available_balance", .real⟩,
    ⟨"credit_limit", .real⟩,
    ⟨"risk_score", .real⟩,
    ⟨"merchant_category_code", .int⟩,
    ⟨"card_not_present", .bool⟩,
    ⟨"velocity_1h", .int⟩]
  invariants := [
    ⟨"limit_ok", .compare (.fact "amount") .le (.fact "credit_limit")⟩,
    ⟨"risk_ceiling", .compare (.fact "risk_score") .le (.ofDigits 80 2)⟩,
    ⟨"cnp_tightened", .implies (.all [.known ["card_not_present"], .flag "card_not_present"])
      (.compare (.fact "risk_score") .le (.ofDigits 55 2))⟩,
    ⟨"velocity_cap", .compare (.fact "velocity_1h") .le (.int velocityCap)⟩,
    ⟨"mcc_allowed", .notIn "merchant_category_code" blockedMerchantCategories⟩]
  actions := [
    ⟨"approve_no_otp", .all [
      .compare (.fact "amount") .le (.fact "available_balance"),
      .compare (.fact "risk_score") .le (.ofDigits 35 2)]⟩,
    ⟨"approve_with_otp", .all [
      .compare (.fact "amount") .le (.fact "credit_limit"),
      .compare (.fact "risk_score") .le (.ofDigits 55 2)]⟩,
    ⟨"decline", .any [
      .compare (.fact "risk_score") .gt (.ofDigits 55 2),
      .compare (.fact "amount") .gt (.fact "credit_limit"),
      .compare (.fact "velocity_1h") .gt (.int velocityCap)]⟩]
  rule := .firstMatch .decline

/-- Routing of a dispute. Only the refund window is an invariant. -/
def dispute : Policy where
  id := "dispute_v1"
  domain := .dispute
  facts := [
    ⟨"duplicate_charge", .bool⟩,
    ⟨"transaction_date", .int⟩,
    ⟨"claim_date", .int⟩,
    ⟨"days_since_transaction", .int⟩]
  invariants := [
    ⟨"refund_window", .implies (.known ["days_since_transaction"])
      (.compare (.fact "days_since_transaction") .le (.int refundWindowDays))⟩]
  actions := []
  rule := .disputeRouting

/-- Increase of a credit line. -/
def creditLineIncrease : Policy where
  id := "cli_v1"
  domain := .creditLineIncrease
  facts := [
    ⟨"amount_requested", .real⟩,
    ⟨"current_limit", .real⟩,
    ⟨"income", .real⟩,
    ⟨"tenure_months", .int⟩,
    ⟨"delinquent", .bool⟩]
  invariants := [
    ⟨"min_tenure", .compare (.fact "tenure_months") .ge (.int minimumTenureMonths)⟩,
    ⟨"no_delinquency", .not (.flag "delinquent")⟩,
    ⟨"within_income_ratio", .implies (.known ["amount_requested", "income"])
      (.compare (.fact "amount_requested") .le (.scaled "income" incomeShare))⟩,
    ⟨"not_below_current_limit", .implies (.known ["amount_requested", "current_limit"])
      (.compare (.fact "amount_requested") .ge (.fact "current_limit"))⟩]
  actions := []
  rule := .approveIfSatisfiable

end Policy

/-- The highest risk for which a payment without a further step is suggested. -/
def lowRisk : Decimal :=
  .ofParts false 35 2 (by decide) (by decide)

/-- The highest risk for which a payment with a further step is suggested. -/
def borderlineRisk : Decimal :=
  .ofParts false 55 2 (by decide) (by decide)

/-- The policy in force in a domain. -/
def Domain.policy : Domain → Policy
  | authorization => .authorization
  | dispute => .dispute
  | creditLineIncrease => .creditLineIncrease

end Verdict
