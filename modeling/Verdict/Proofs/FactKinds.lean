import Verdict.Policy.Standard
import Verdict.Proofs.RecordLookup

/-!
# The kinds of facts

Each fact of a domain has one kind of value. A known fact of a record has a value of its kind, and
a fact of the domain that has no value stands in the record as unknown.
-/

namespace Verdict

/-- The facts of a domain with the kinds of their values. -/
def Domain.kinds : Domain → List (String × Value.Kind)
  | authorization =>
    [("amount", .decimal), ("available_balance", .decimal), ("credit_limit", .decimal),
      ("risk_score", .decimal), ("merchant_category_code", .int), ("card_not_present", .bool),
      ("velocity_1h", .int)]
  | dispute =>
    [("duplicate_charge", .bool), ("transaction_date", .date), ("claim_date", .date),
      ("days_since_transaction", .int)]
  | creditLineIncrease =>
    [("amount_requested", .decimal), ("current_limit", .decimal), ("income", .decimal),
      ("tenure_months", .int), ("delinquent", .bool)]

/-- The kind of a fact, if the domain has the fact. -/
def Domain.kindOf? (d : Domain) (fact : String) : Option Value.Kind :=
  d.kinds.lookup fact

/-- The value is of the kind, or it is not known. -/
def FactRecord.OfKind (value : Option Value) (kind : Value.Kind) : Prop :=
  ∀ v ∈ value, v.kind = kind

namespace FactRecord

theorem ofKind_map {α : Type} {encode : α → Value} {kind : Value.Kind}
    (h : ∀ a, (encode a).kind = kind) (value : Option α) : OfKind (value.map encode) kind := by
  intro v hv
  obtain ⟨a, -, rfl⟩ := Option.map_eq_some_iff.mp hv
  exact h a

/-- A record lists the facts of its domain in their order, each with a value of its kind. -/
theorem forall₂_kinds (r : FactRecord) :
    List.Forall₂ (fun field entry => entry.1 = field.1 ∧ OfKind field.2 entry.2)
      r.fields r.domain.kinds := by
  have hbool : ∀ value : Option Bool, OfKind (value.map .bool) .bool := ofKind_map fun _ => rfl
  have hint : ∀ value : Option Int64, OfKind (value.map .int) .int := ofKind_map fun _ => rfl
  have hdecimal : ∀ value : Option Decimal, OfKind (value.map .decimal) .decimal :=
    ofKind_map fun _ => rfl
  have hdate : ∀ value : Option Date, OfKind (value.map .date) .date := ofKind_map fun _ => rfl
  cases r with
  | authorization f =>
    simp [fields, AuthorizationFacts.fields, domain, Domain.kinds, hbool, hint, hdecimal]
  | dispute f => simp [fields, DisputeFacts.fields, domain, Domain.kinds, hbool, hint, hdate]
  | creditLineIncrease f =>
    simp [fields, CreditLineFacts.fields, domain, Domain.kinds, hbool, hint, hdecimal]

/-- At each name a record has a value exactly if the domain has a kind, and the value is of it. -/
theorem rel_kindOf? (r : FactRecord) (fact : String) :
    Option.Rel OfKind (r.fields.lookup fact) (r.domain.kindOf? fact) :=
  Keyed.rel_lookup r.forall₂_kinds fact

theorem kindOf?_of_get? {r : FactRecord} {fact : String} {v : Value}
    (h : r.known.get? fact = some v) : r.domain.kindOf? fact = some v.kind := by
  have hrel := r.rel_kindOf? fact
  rw [get?_known] at h
  generalize r.fields.lookup fact = value, r.domain.kindOf? fact = kind at h hrel ⊢
  cases hrel with
  | some hkind => rw [hkind v h]
  | none => cases h

/-- A fact of the domain that is not known is one of the record and has no value there. -/
theorem lookup_of_get?_eq_none {r : FactRecord} {fact : String} {kind : Value.Kind}
    (hkind : r.domain.kindOf? fact = some kind) (h : r.known.get? fact = none) :
    r.fields.lookup fact = some none := by
  have hrel := r.rel_kindOf? fact
  rw [get?_known] at h
  rw [hkind] at hrel
  generalize r.fields.lookup fact = value at h hrel ⊢
  cases hrel with
  | some _ => rw [← h, Option.join_some]

end FactRecord

theorem Policy.declares_iff (policy : Policy) (fact : String) :
    policy.declares fact = true ↔ fact ∈ policy.facts.map (·.fact) := by
  rw [declares, List.any_eq_true, List.mem_map]
  simp only [beq_iff_eq]

/-- The facts that a policy declares are those that have a kind. -/
theorem Domain.declares_policy (d : Domain) (fact : String) :
    d.policy.declares fact = (d.kindOf? fact).isSome := by
  have hnames : d.policy.facts.map (·.fact) = d.kinds.map (·.1) := by
    cases d <;> rfl
  rw [Bool.eq_iff_iff, Policy.declares_iff, hnames, kindOf?, List.lookup_isSome_iff, List.mem_map]
  simp only [beq_iff_eq, @eq_comm _ fact]

end Verdict
