import Verdict.Proofs.Conditions
import Verdict.Proofs.RecordLookup

/-!
# The guards of an authorization

The policy compares amounts and risks that are decimals or not known. Over the facts of a record
its conditions are comparisons of the fields of the record, and a comparison with a field that is
not known does not hold. The suggestion by rule tests the same fields.
-/

namespace Verdict

/-- Two known numbers compare as stated. -/
def Comparison.ofKnown (c : Comparison) : Option Decimal → Option Decimal → Bool
  | some a, some b => c.holds (a.order b)
  | _, _ => false

theorem atMost_eq (value bound : Option Decimal) :
    atMost value bound = Comparison.le.ofKnown value bound := by
  cases value <;> cases bound <;> rfl

/-! ## The conditions of the policy -/

namespace AuthorizationFacts

variable (f : AuthorizationFacts)

/-- A comparison of two amounts. -/
theorem holds_compare_facts {name name' : String} {x y : Option Decimal}
    (hx : f.fields.lookup name = some (x.map .decimal))
    (hy : f.fields.lookup name' = some (y.map .decimal)) (c : Comparison) :
    (Predicate.compare (.fact name) c (.fact name')).holds (FactRecord.authorization f).known =
      c.ofKnown x y := by
  have hleft : (FactRecord.authorization f).known.get? name = x.map .decimal :=
    FactRecord.get?_known_of_lookup hx
  have hright : (FactRecord.authorization f).known.get? name' = y.map .decimal :=
    FactRecord.get?_known_of_lookup hy
  rw [Bool.eq_iff_iff, Predicate.holds_compare_iff]
  simp only [Term.eval, Reading.ofFact_eq_ok, hleft, hright]
  cases x <;> cases y <;>
    simp [Comparison.ofKnown, Value.compare_decimal, Decimal.holds_order]

/-- A comparison of the risk with a bound. -/
theorem holds_compare_risk (c : Comparison) (bound : Decimal) :
    (Predicate.compare (.fact "risk_score") c (.decimal bound)).holds
      (FactRecord.authorization f).known = c.ofKnown f.riskScore bound := by
  have hrisk : (FactRecord.authorization f).known.get? "risk_score" = f.riskScore.map .decimal :=
    FactRecord.get?_known_of_lookup rfl
  rw [Bool.eq_iff_iff, Predicate.holds_compare_iff]
  simp only [Term.eval, Reading.ofFact_eq_ok, Reading.result_pure, hrisk]
  cases f.riskScore <;>
    simp [Comparison.ofKnown, Value.compare_decimal, Decimal.holds_order]

theorem permits_approveNoOtp :
    Policy.authorization.permits (FactRecord.authorization f).known Decision.approveNoOtp.name =
      (atMost f.riskScore lowRisk && atMost f.amount f.availableBalance) := by
  have hguard : Policy.authorization.permits (FactRecord.authorization f).known
      Decision.approveNoOtp.name =
      (Predicate.all [.compare (.fact "amount") .le (.fact "available_balance"),
        .compare (.fact "risk_score") .le (.decimal lowRisk)]).holds
          (FactRecord.authorization f).known := rfl
  rw [hguard, Predicate.holds_all, atMost_eq, atMost_eq]
  simp only [List.all_cons, List.all_nil, Bool.and_true]
  rw [f.holds_compare_facts rfl rfl, f.holds_compare_risk, Bool.and_comm]

theorem permits_approveWithOtp :
    Policy.authorization.permits (FactRecord.authorization f).known Decision.approveWithOtp.name =
      (atMost f.riskScore borderlineRisk && atMost f.amount f.creditLimit) := by
  have hguard : Policy.authorization.permits (FactRecord.authorization f).known
      Decision.approveWithOtp.name =
      (Predicate.all [.compare (.fact "amount") .le (.fact "credit_limit"),
        .compare (.fact "risk_score") .le (.decimal borderlineRisk)]).holds
          (FactRecord.authorization f).known := rfl
  rw [hguard, Predicate.holds_all, atMost_eq, atMost_eq]
  simp only [List.all_cons, List.all_nil, Bool.and_true]
  rw [f.holds_compare_facts rfl rfl, f.holds_compare_risk, Bool.and_comm]

end AuthorizationFacts

end Verdict
