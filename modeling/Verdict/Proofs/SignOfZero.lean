import Verdict.Proofs.EqualFacts
import Verdict.Proofs.Reassembly

/-!
# The sign of a zero

A zero may carry a sign, which does not change its value. So a record and its copy without such
signs have equal facts and are judged alike in both modes.
-/

namespace Verdict

namespace Decimal

@[simp] theorem plain_plain (d : Decimal) : d.plain.plain = d.plain := by
  rw [plain_eq_self_iff]
  cases d.negative <;> simp [plain, ofParts, isNegativeZero]

@[simp] theorem value_plain (d : Decimal) : d.plain.value = d.value :=
  units_eq_iff.mp d.units_plain

end Decimal

namespace Value

/-- The value without the sign that a zero may have. -/
def plain : Value → Value
  | decimal d => decimal d.plain
  | v => v

theorem same_plain (v : Value) : v.Same v.plain := by
  cases v with
  | decimal d => exact .decimal d.value_plain.symm
  | _ => exact .refl _

end Value

/-! ## Records -/

theorem AuthorizationFacts.fields_plain (f : AuthorizationFacts) :
    f.plain.fields = f.fields.map fun field => (field.1, field.2.map Value.plain) := by
  simp [plain, fields, Function.comp_def, Value.plain]

theorem CreditLineFacts.fields_plain (f : CreditLineFacts) :
    f.plain.fields = f.fields.map fun field => (field.1, field.2.map Value.plain) := by
  simp [plain, fields, Function.comp_def, Value.plain]

namespace FactRecord

/-- A record in which no zero has a sign. -/
def plain : FactRecord → FactRecord
  | authorization f => authorization f.plain
  | dispute f => dispute f
  | creditLineIncrease f => creditLineIncrease f.plain

@[simp] theorem domain_plain (r : FactRecord) : r.plain.domain = r.domain := by
  cases r <;> rfl

@[simp] theorem plain_plain (r : FactRecord) : r.plain.plain = r.plain := by
  have hmap : ∀ value : Option Decimal,
      (value.map Decimal.plain).map Decimal.plain = value.map Decimal.plain := by
    intro value
    cases value <;> simp
  cases r with
  | authorization f => simp only [plain, AuthorizationFacts.plain, hmap]
  | dispute f => rfl
  | creditLineIncrease f => simp only [plain, CreditLineFacts.plain, hmap]

theorem fields_plain (r : FactRecord) :
    r.plain.fields = r.fields.map fun field => (field.1, field.2.map Value.plain) := by
  cases r with
  | authorization f => exact f.fields_plain
  | dispute f => simp [plain, fields, DisputeFacts.fields, Function.comp_def, Value.plain]
  | creditLineIncrease f => exact f.fields_plain

theorem get?_known_plain (r : FactRecord) (fact : String) :
    r.plain.known.get? fact = (r.known.get? fact).map Value.plain := by
  rw [get?_known, get?_known, fields_plain, Keyed.lookup_map_snd]
  cases r.fields.lookup fact with
  | none => rfl
  | some value => cases value <;> rfl

theorem same_plain (r : FactRecord) : r.Same r.plain where
  domain := r.domain_plain
  fields := by
    rw [fields_plain, List.forall₂_map_right_iff, List.forall₂_same]
    rintro ⟨name, value⟩ -
    cases value with
    | none => exact ⟨rfl, .none⟩
    | some v => exact ⟨rfl, .some v.same_plain⟩

/-- A record and its copy without signs on zeros are judged alike. -/
theorem judge_plain (r : FactRecord) (mode : Mode) : r.plain.judge mode = r.judge mode :=
  r.same_plain.judge mode

end FactRecord

/-- A payment of nothing, with a sign on the zero. -/
def signedZeroRequest : Json :=
  .ofMembers [("amount", .string "-0.1e-28")]

/-- The record of the payment with a sign on its zero. -/
def signedZeroPayment : FactRecord :=
  let signedZero := { Decimal.zero with
    negative := true, scale := 28, scale_le := Nat.le_refl 28 }
  .authorization ⟨some signedZero, none, none, none, none, none, none⟩

end Verdict
