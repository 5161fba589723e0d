import Verdict.Proofs.FactKinds
import Verdict.Proofs.Results
import Verdict.Report.Basic

/-!
# Records are always decided

A record has exactly the facts that the policy of its domain declares, and each known one suits
its sort. So its proof program can always be written, and a decision on a record does not fail.
-/

namespace Verdict

/-- A value of the kind can be written under the sort. -/
def Value.Kind.fits : Value.Kind → FactSort → Bool
  | bool, .bool => true
  | int, .int => true
  | int, .real => true
  | decimal, .real => true
  | date, .int => true
  | _, _ => false

theorem Value.exists_literal? {v : Value} {sort : FactSort} (h : v.kind.fits sort = true) :
    ∃ literal, v.literal? sort = some literal := by
  cases v <;> cases sort <;> first | exact ⟨_, rfl⟩ | cases h

/-- Each fact is declared with a sort under which values of its kind can be written. -/
theorem Domain.fits_policy (d : Domain) : ∀ declaration ∈ d.policy.facts,
    (d.kindOf? declaration.fact).any (·.fits declaration.sort) = true := by
  cases d <;> decide

namespace FactRecord

theorem facts_policy (r : FactRecord) :
    r.domain.policy.facts.map (·.fact) = r.fields.map (·.1) := by
  cases r <;> rfl

theorem declares_iff (r : FactRecord) (field : String) :
    r.domain.policy.declares field = true ↔ field ∈ r.fields.map (·.1) := by
  rw [← facts_policy, Policy.declares_iff]

/-- The value of a declared fact can be written, whether the fact is known or not. -/
theorem exists_binding (r : FactRecord) {d : Declaration} (hd : d ∈ r.domain.policy.facts) :
    ∃ line, d.binding r.known = .ok line := by
  unfold Declaration.binding
  cases hvalue : r.known.get? d.fact with
  | none => exact ⟨_, rfl⟩
  | some value =>
    have hfits := r.domain.fits_policy d hd
    rw [kindOf?_of_get? hvalue, Option.any_some] at hfits
    obtain ⟨literal, hliteral⟩ := Value.exists_literal? hfits
    simp only [hliteral]
    exact ⟨_, rfl⟩

theorem exists_program (r : FactRecord) : ∃ program, r.program = .ok program := by
  obtain ⟨bindings, hbindings⟩ :=
    exists_mapM_eq_ok fun d (hd : d ∈ r.domain.policy.facts) => r.exists_binding hd
  rw [program, Policy.program, hbindings]
  exact ⟨_, rfl⟩

/-- A record is decided as it is judged. -/
theorem exists_decide (r : FactRecord) (mode : Mode) :
    ∃ report, r.decide mode = .ok report ∧ report.decision = (r.judge mode).1.decision := by
  obtain ⟨program, hprogram⟩ := r.exists_program
  rw [decide, hprogram]
  exact ⟨_, rfl, rfl⟩

theorem satisfiable_of_decide {r : FactRecord} {mode : Mode} {report : Report}
    (h : r.decide mode = .ok report) : report.satisfiable = (r.judge mode).1.satisfiable := by
  obtain ⟨program, hprogram⟩ := r.exists_program
  rw [decide, hprogram] at h
  cases h
  rfl

end FactRecord

end Verdict
