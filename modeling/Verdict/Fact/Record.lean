import Verdict.Domain
import Verdict.Fact.Set

/-!
# Fact records

The facts of a request, one record for each domain. A fact may be unknown. A record is flattened
into a set of known facts for evaluation.
-/

namespace Verdict

/-- The facts about a card payment that is to be authorized. -/
structure AuthorizationFacts where
  amount : Option Decimal
  availableBalance : Option Decimal
  creditLimit : Option Decimal
  /-- From 0 to 1, though nothing enforces it. -/
  riskScore : Option Decimal
  merchantCategoryCode : Option Int64
  cardNotPresent : Option Bool
  /-- The transactions within the last hour. -/
  velocity : Option Int64
deriving DecidableEq

/-- The facts about a dispute. -/
structure DisputeFacts where
  duplicateCharge : Option Bool
  transactionDate : Option Date
  claimDate : Option Date
  daysSinceTransaction : Option Int64
deriving DecidableEq

/-- The facts about a credit line that is to be increased. -/
structure CreditLineFacts where
  amountRequested : Option Decimal
  currentLimit : Option Decimal
  income : Option Decimal
  tenureMonths : Option Int64
  delinquent : Option Bool
deriving DecidableEq

/-- The facts of a request. -/
inductive FactRecord where
  | authorization (facts : AuthorizationFacts)
  | dispute (facts : DisputeFacts)
  | creditLineIncrease (facts : CreditLineFacts)
deriving DecidableEq

/-- The facts by name. -/
def AuthorizationFacts.fields (f : AuthorizationFacts) : List (String × Option Value) :=
  [("amount", f.amount.map .decimal),
    ("available_balance", f.availableBalance.map .decimal),
    ("credit_limit", f.creditLimit.map .decimal),
    ("risk_score", f.riskScore.map .decimal),
    ("merchant_category_code", f.merchantCategoryCode.map .int),
    ("card_not_present", f.cardNotPresent.map .bool),
    ("velocity_1h", f.velocity.map .int)]

/-- The facts by name. -/
def DisputeFacts.fields (f : DisputeFacts) : List (String × Option Value) :=
  [("duplicate_charge", f.duplicateCharge.map .bool),
    ("transaction_date", f.transactionDate.map .date),
    ("claim_date", f.claimDate.map .date),
    ("days_since_transaction", f.daysSinceTransaction.map .int)]

/-- The facts by name. -/
def CreditLineFacts.fields (f : CreditLineFacts) : List (String × Option Value) :=
  [("amount_requested", f.amountRequested.map .decimal),
    ("current_limit", f.currentLimit.map .decimal),
    ("income", f.income.map .decimal),
    ("tenure_months", f.tenureMonths.map .int),
    ("delinquent", f.delinquent.map .bool)]

namespace FactRecord

/-- The domain of a record. -/
def domain : FactRecord → Domain
  | authorization _ => .authorization
  | dispute _ => .dispute
  | creditLineIncrease _ => .creditLineIncrease

/-- The facts of a record by name, whether known or not. -/
def fields : FactRecord → List (String × Option Value)
  | authorization f => f.fields
  | dispute f => f.fields
  | creditLineIncrease f => f.fields

/-- The known facts of a record. -/
def known (r : FactRecord) : FactSet :=
  .ofOptions r.fields

/-- The members of the flat object of a record, in which an unknown fact is null. -/
def members (r : FactRecord) : List (String × Json) :=
  Keyed.ofList (r.fields.map fun field => (field.1, (field.2.map Value.toJson).getD .null))

/-- The record as a flat object. -/
def toJson (r : FactRecord) : Json :=
  .object r.members

end FactRecord

end Verdict
