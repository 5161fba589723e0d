import Verdict.Proofs.AuthorizationDecision
import Verdict.Proofs.RecordLookup
import Verdict.Report.Basic

/-!
# What a judgement says of the clauses

In either mode a record is judged by its verification or by the check of a suggested action. Every
name in the core stands for an invariant or for the suggested action, and this does not hold. Where
the core is empty every invariant holds, and so does the guard of the action that is decided on.
-/

namespace Verdict

/-- The name stands for a clause of the policy that does not hold. -/
def Policy.Refutes (policy : Policy) (facts : FactSet) (name : String) : Prop :=
  ∃ clause ∈ policy.invariants ++ policy.actions,
    (policy.invariant? name).or (policy.action? name) = some clause ∧
      clause.condition.holds facts = false

/-- A clause that is found has the name for which it is looked up. -/
theorem Policy.name_of_found {policy : Policy} {name : String} {clause : Clause}
    (h : (policy.invariant? name).or (policy.action? name) = some clause) : clause.name = name := by
  rcases Option.or_eq_some_iff.mp h with h | ⟨-, h⟩
  · simpa using List.find?_some h
  · simpa using List.find?_some h

/-- What is refuted is the name of an invariant or of an action. -/
theorem Policy.Refutes.mem_names {policy : Policy} {facts : FactSet} {name : String}
    (h : policy.Refutes facts name) :
    name ∈ (policy.invariants ++ policy.actions).map (·.name) := by
  obtain ⟨clause, hclause, hfound, -⟩ := h
  exact List.mem_map.mpr ⟨clause, hclause, name_of_found hfound⟩

/-- No two clauses of a policy in force have the same name. -/
theorem Domain.nodup_names (d : Domain) :
    ((d.policy.invariants ++ d.policy.actions).map (·.name)).Nodup := by
  cases d <;> decide

theorem Domain.nodup_invariantNames (d : Domain) : d.policy.invariantNames.Nodup :=
  (List.nodup_append.mp (List.map_append ▸ d.nodup_names)).1

theorem Domain.nodup_actionNames (d : Domain) : (d.policy.actions.map (·.name)).Nodup :=
  (List.nodup_append.mp (List.map_append ▸ d.nodup_names)).2.1

theorem FactRecord.refutes_of_mem_verify {r : FactRecord} {name : String}
    (h : name ∈ r.verify.unsatCore) : r.domain.policy.Refutes r.known name := by
  have hcore : name ∈ Policy.violated (r.domain.policy.checkInvariants r.known) := h
  rw [Policy.violated, Policy.checkInvariants, List.filter_map, List.map_map] at hcore
  obtain ⟨clause, hclause, rfl⟩ := List.mem_map.mp hcore
  obtain ⟨hclause, hholds⟩ := List.mem_filter.mp hclause
  simp only [Function.comp_apply, Clause.outcome_holds, Bool.not_eq_true'] at hholds
  refine ⟨clause, List.mem_append_left _ hclause, ?_, hholds⟩
  rw [Function.comp_apply, Clause.outcome_name, Policy.invariant?,
    Keyed.find?_of_nodup r.domain.nodup_invariantNames hclause, Option.some_or]

theorem Proposal.isSome_action_byRule (f : AuthorizationFacts) :
    (Policy.authorization.action? (byRule f).action).isSome := by
  unfold byRule
  split
  · rfl
  · split <;> rfl

theorem Proposal.isSome_action_repair (core : List String) (f : AuthorizationFacts) :
    (Policy.authorization.action? (repair core f).action).isSome := by
  unfold repair
  split
  · rfl
  · split <;> rfl

/-- Repaired or not, a suggestion by rule is an action of the policy. -/
theorem AuthorizationFacts.isSome_action_runSoft (f : AuthorizationFacts) :
    (Policy.authorization.action? (f.runSoft Proposal.byRule).proposal.action).isSome := by
  unfold runSoft
  dsimp only
  split
  · exact Proposal.isSome_action_byRule f
  · exact Proposal.isSome_action_repair _ f

/-- No action of an authorization is called like an invariant. -/
theorem Policy.invariant?_of_action? {action : String} {clause : Clause}
    (h : authorization.action? action = some clause) : authorization.invariant? action = none := by
  have hall : authorization.actions.all fun clause =>
      (authorization.invariant? clause.name).isNone := by decide
  have hname : clause.name = action := by simpa using List.find?_some h
  have hnone := List.all_eq_true.mp hall clause (List.mem_of_find?_eq_some h)
  rwa [Option.isNone_iff_eq_none, hname] at hnone

namespace FactRecord

theorem refutes_of_mem_checkProposal {f : AuthorizationFacts} {action name : String}
    (haction : (Policy.authorization.action? action).isSome)
    (h : name ∈ ((authorization f).checkProposal action).unsatCore) :
    Policy.authorization.Refutes (authorization f).known name := by
  rw [checkProposal_unsatCore] at h
  rcases List.mem_append.mp h with h | h
  · exact refutes_of_mem_verify h
  -- The action stands in the core under its own name, which is not the one of an invariant.
  · split at h
    · exact absurd h List.not_mem_nil
    · rename_i hpermits
      rw [List.mem_singleton.mp h]
      obtain ⟨clause, hclause⟩ := Option.isSome_iff_exists.mp haction
      refine ⟨clause, List.mem_append_right _ (List.mem_of_find?_eq_some hclause), ?_, ?_⟩
      · rw [Policy.invariant?_of_action? hclause, Option.none_or, hclause]
      · have hpermits : ¬Policy.authorization.permits (authorization f).known action = true :=
          hpermits
        rwa [Policy.permits, hclause, Option.any_some, Bool.not_eq_true] at hpermits

/-- A record is judged by verification or by the check of the suggestion that the soft mode ends
with. -/
theorem judge_cases (r : FactRecord) (mode : Mode) :
    (r.judge mode).1 = r.verify ∨ ∃ f, r = authorization f ∧ (r.judge mode).1 =
      (authorization f).checkProposal (f.runSoft Proposal.byRule).proposal.action := by
  cases mode with
  | hard => exact Or.inl rfl
  | soft =>
    cases r with
    | authorization f => exact Or.inr ⟨f, rfl, f.runSoft_result _⟩
    | dispute f => exact Or.inl rfl
    | creditLineIncrease f => exact Or.inl rfl

/-- Whatever is in the core does not hold. -/
theorem refutes_of_mem_judge {r : FactRecord} {mode : Mode} {name : String}
    (h : name ∈ (r.judge mode).1.unsatCore) : r.domain.policy.Refutes r.known name := by
  rcases r.judge_cases mode with hjudge | ⟨f, rfl, hjudge⟩
  · rw [hjudge] at h
    exact refutes_of_mem_verify h
  · rw [hjudge] at h
    exact refutes_of_mem_checkProposal f.isSome_action_runSoft h

/-- A dispute is verified in the same way in both modes. -/
theorem judge_dispute (f : DisputeFacts) (mode : Mode) :
    ((dispute f).judge mode).1 = Policy.dispute.verify (dispute f).known := by
  cases mode <;> rfl

theorem judge_dispute_decision {f : DisputeFacts} {mode : Mode}
    (h : Policy.dispute.isSatisfied (dispute f).known = true) :
    ((dispute f).judge mode).1.decision =
      if (dispute f).known.get? "duplicate_charge" = some (.bool true) then .reasonCode4834
      else .requestMoreDocs := by
  rw [judge_dispute, Policy.verify_decision, if_pos h]
  simp only [Policy.choose, Policy.dispute]
  split <;> rfl

end FactRecord

end Verdict
