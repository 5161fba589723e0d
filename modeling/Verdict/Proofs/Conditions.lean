import Verdict.Proofs.Acceptance
import Verdict.Proofs.DecimalValue
import Verdict.Proofs.Evaluation

/-!
# When conditions hold

A condition holds if it is evaluated to true. For each form of condition that a policy uses, this is
said in terms of the values that are known: a fault, as of a fact that is not known, makes a
condition fail, save where a premise keeps it from being evaluated.
-/

namespace Verdict

theorem Reading.ofFact_eq_ok {facts : FactSet} {fact : String} {v : Value} :
    (ofFact facts fact).result = .ok v ↔ facts.get? fact = some v := by
  rw [ofFact]
  cases facts.get? fact <;> simp

theorem Value.compare_int (c : Comparison) (n m : Int64) :
    (int n).compare c (int m) = .ok (c.relates n.toInt m.toInt) := by
  rw [← Comparison.holds_compare]
  rfl

theorem Value.compare_decimal (c : Comparison) (a b : Decimal) :
    (decimal a).compare c (decimal b) = .ok (c.relates a.value b.value) := by
  rw [← Decimal.holds_order]
  rfl

namespace Predicate

variable {facts : FactSet}

theorem holds_all (ps : List Predicate) :
    (all ps).holds facts = ps.all fun p => p.holds facts := by
  rw [Bool.eq_iff_iff, holds_iff, eval, evalAll_eq_true, List.all_eq_true]
  simp only [holds_iff]

/-- The first operand that holds is enough. -/
theorem holds_any_cons {p : Predicate} (h : p.holds facts = true) (rest : List Predicate) :
    (any (p :: rest)).holds facts = true := by
  rw [holds_iff] at h ⊢
  rw [eval, evalAny, Reading.result_bind_eq_ok]
  exact ⟨true, h, rfl⟩

theorem holds_compare_iff {left right : Term} {c : Comparison} :
    (compare left c right).holds facts = true ↔
      ∃ v w, (left.eval facts).result = .ok v ∧ (right.eval facts).result = .ok w ∧
        v.compare c w = .ok true := by
  rw [holds_iff, eval, Reading.result_bind_eq_ok]
  simp only [Reading.result_bind_eq_ok, Reading.ofExcept, exists_and_left]

theorem holds_not_flag_iff {fact : String} :
    (not (flag fact)).holds facts = true ↔ facts.get? fact = some (.bool false) := by
  rw [holds_iff, eval, eval]
  simp only [Reading.result_bind_eq_ok, Reading.ofFact_eq_ok, Reading.ofExcept, Reading.result_pure,
    Except.ok.injEq, Bool.not_eq_true']
  constructor
  · rintro ⟨b, ⟨v, hv, hb⟩, rfl⟩
    cases v with
    | bool b =>
      cases hb
      exact hv
    | _ => cases hb
  · intro h
    exact ⟨false, ⟨_, h, rfl⟩, rfl⟩

/-- An implication from what is known is empty where a fact is not known. -/
theorem holds_known_implies_iff {names : List String} {p : Predicate} :
    (implies (known names) p).holds facts = true ↔
      ((∀ name ∈ names, facts.isKnown name = true) → p.holds facts = true) := by
  have hknown : ((known names).eval facts).result = .ok (names.all facts.isKnown) := by
    rw [eval]
    rfl
  rw [holds_iff, holds_iff, eval, Reading.bind_of_ok hknown, ← List.all_eq_true]
  cases names.all facts.isKnown <;> simp

theorem holds_notIn_iff {fact : String} {code : Option Int64} {excluded : List Int64}
    (h : facts.get? fact = code.map .int) :
    (notIn fact excluded).holds facts = true ↔ ∃ n ∈ code, n ∉ excluded := by
  rw [holds_iff, eval]
  simp only [Reading.result_bind_eq_ok, Reading.ofFact_eq_ok, Reading.ofExcept, Reading.result_pure]
  cases code with
  | none => simp [h]
  | some n => simp [h, Value.asInt, Int64.toInt_inj, List.forall_mem_ne']

/-- A condition on what a flag says is empty where the flag is not known or not set. -/
theorem holds_flagged_implies_iff {fact : String} {flagged : Option Bool} {p : Predicate}
    (h : facts.get? fact = flagged.map .bool) :
    (implies (all [known [fact], flag fact]) p).holds facts = true ↔
      (flagged = some true → p.holds facts = true) := by
  have hpremise : ((all [known [fact], flag fact]).eval facts).result =
      .ok (flagged == some true) := by
    rw [eval, evalAll, eval]
    cases flagged with
    | none => simp [Reading.ofKnown, FactSet.isKnown, h, bind, Reading.andThen]
    | some b =>
      cases b <;> simp [Reading.ofKnown, FactSet.isKnown, h, bind, Reading.andThen, evalAll, eval,
        Reading.ofFact, Reading.ofExcept, Value.asBool]
  rw [holds_iff, holds_iff, eval, Reading.bind_of_ok hpremise]
  cases flagged with
  | none => simp
  | some b => cases b <;> simp

end Predicate

end Verdict
