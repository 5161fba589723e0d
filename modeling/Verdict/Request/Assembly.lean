import Verdict.Fact.Record
import Verdict.Policy.Standard
import Verdict.Request.Field

/-!
# Assembly of fact records

A record is assembled from a JSON object, field by field. Members that no field reads are ignored.
A fact of a record can be replaced; the new record is assembled from the flat object of the old one
with the new value in it.
-/

namespace Verdict

/-! ## The fields of the domains -/

namespace Field

def amount : Field := ⟨"amount", [⟨["amount"], false⟩]⟩

def availableBalance : Field :=
  ⟨"available_balance",
    [⟨["available_balance"], false⟩, ⟨["avail"], false⟩, ⟨["account", "available"], false⟩]⟩

def creditLimit : Field :=
  ⟨"credit_limit",
    [⟨["credit_limit"], false⟩, ⟨["limit"], false⟩, ⟨["account", "credit_limit"], false⟩]⟩

def riskScore : Field :=
  ⟨"risk_score", [⟨["risk_score"], false⟩, ⟨["risk", "score"], false⟩, ⟨["risk"], false⟩]⟩

def merchantCategoryCode : Field :=
  ⟨"merchant_category_code",
    [⟨["merchant_category_code"], false⟩, ⟨["mcc"], false⟩, ⟨["context", "mcc"], false⟩]⟩

/-- A request may also state that the card is present. -/
def cardNotPresent : Field :=
  ⟨"card_not_present",
    [⟨["card_not_present"], false⟩, ⟨["cnp"], false⟩, ⟨["context", "is_card_present"], true⟩]⟩

def velocity : Field :=
  ⟨"velocity_1h",
    [⟨["velocity_1h"], false⟩, ⟨["vel1h"], false⟩, ⟨["risk", "velocity_1h"], false⟩]⟩

def duplicateCharge : Field := ⟨"duplicate_charge", [⟨["duplicate_charge"], false⟩]⟩

def transactionDate : Field :=
  ⟨"transaction_date", [⟨["transaction_date"], false⟩, ⟨["txn_date"], false⟩]⟩

def claimDate : Field := ⟨"claim_date", [⟨["claim_date"], false⟩]⟩

def daysSinceTransaction : Field :=
  ⟨"days_since_transaction", [⟨["days_since_transaction"], false⟩, ⟨["days_since_txn"], false⟩]⟩

def amountRequested : Field := ⟨"amount_requested", [⟨["amount_requested"], false⟩]⟩

def currentLimit : Field := ⟨"current_limit", [⟨["current_limit"], false⟩]⟩

def income : Field := ⟨"income", [⟨["income"], false⟩]⟩

def tenureMonths : Field := ⟨"tenure_months", [⟨["tenure_months"], false⟩]⟩

def delinquent : Field := ⟨"delinquent", [⟨["delinquent"], false⟩]⟩

end Field

/-! ## Records -/

/-- Assembles the facts about a card payment. The channel is read first. -/
def AuthorizationFacts.assemble (request : Json) : Except RequestError AuthorizationFacts := do
  let cardNotPresent ← Field.cardNotPresent.bool request
  let amount ← Field.amount.decimal request
  let availableBalance ← Field.availableBalance.decimal request
  let creditLimit ← Field.creditLimit.decimal request
  let riskScore ← Field.riskScore.decimal request
  let merchantCategoryCode ← Field.merchantCategoryCode.int request
  let velocity ← Field.velocity.int request
  pure { amount, availableBalance, creditLimit, riskScore, merchantCategoryCode, cardNotPresent,
         velocity }

/-- The days between two known dates. -/
def daysBetween? (transactionDate claimDate : Option Date) : Option Int64 := do
  let start ← transactionDate
  let finish ← claimDate
  some (.ofInt (start.daysUntil finish))

/-- Assembles the facts about a dispute. Where the count of days is not stated it follows from the
two dates. -/
def DisputeFacts.assemble (request : Json) : Except RequestError DisputeFacts := do
  let duplicateCharge ← Field.duplicateCharge.bool request
  let transactionDate ← Field.transactionDate.date request
  let claimDate ← Field.claimDate.date request
  let stated ← Field.daysSinceTransaction.int request
  let daysSinceTransaction := stated.or (daysBetween? transactionDate claimDate)
  pure { duplicateCharge, transactionDate, claimDate, daysSinceTransaction }

/-- Assembles the facts about a credit line. -/
def CreditLineFacts.assemble (request : Json) : Except RequestError CreditLineFacts := do
  let amountRequested ← Field.amountRequested.decimal request
  let currentLimit ← Field.currentLimit.decimal request
  let income ← Field.income.decimal request
  let tenureMonths ← Field.tenureMonths.int request
  let delinquent ← Field.delinquent.bool request
  pure { amountRequested, currentLimit, income, tenureMonths, delinquent }

namespace FactRecord

/-- Assembles the record of a domain from an object. -/
def assemble (domain : Domain) (request : Json) : Except RequestError FactRecord :=
  if request.isObject then
    match domain with
    | .authorization => return .authorization (← AuthorizationFacts.assemble request)
    | .dispute => return .dispute (← DisputeFacts.assemble request)
    | .creditLineIncrease => return .creditLineIncrease (← CreditLineFacts.assemble request)
  else .error .notAnObject

/-- The members of the flat object of a record after one fact was replaced. A new date takes away
the count of days, so that it is derived again. -/
def replaced (r : FactRecord) (field : String) (value : Json) : List (String × Json) :=
  let members := Keyed.insert field value r.members
  if field = "transaction_date" ∨ field = "claim_date" then
    Keyed.insert "days_since_transaction" .null members
  else members

/-- The record with one fact replaced. -/
def withFact (r : FactRecord) (field : String) (value : Json) : Except RequestError FactRecord :=
  if r.domain.policy.declares field then assemble r.domain (.object (r.replaced field value))
  else .error (.unknownField r.domain field)

end FactRecord

end Verdict
