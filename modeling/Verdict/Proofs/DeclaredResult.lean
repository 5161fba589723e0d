import Mathlib.Data.List.Forall2
import Mathlib.Data.List.Perm.Basic
import Verdict.Proofs.Acceptance

/-!
# The result that a policy declares

What a verification must answer is stated here for any policy and any facts, without the functions
that compute it: what came of each clause, the names that make up the core, and the choice that the
decision rule makes. There is exactly one such result. Since the choice is made from the actions
alone, the order of the invariants shows in the lists of their names and outcomes and nowhere else.
-/

namespace Verdict

variable {facts : FactSet}

/-! ## Outcomes -/

structure Clause.HasOutcome (facts : FactSet) (clause : Clause) (outcome : Outcome) : Prop where
  name : outcome.name = clause.name
  holds : outcome.holds = true ↔ (clause.condition.eval facts).result = .ok true
  fault : ∀ fault, outcome.fault = some fault ↔
    (clause.condition.eval facts).result = .error fault
  factsUsed : outcome.factsUsed = (clause.condition.eval facts).factsUsed

theorem Clause.hasOutcome_outcome (clause : Clause) :
    clause.HasOutcome facts (clause.outcome facts) := by
  constructor <;> unfold Clause.outcome <;> dsimp only <;> split <;> simp_all

/-- Name, truth, fault and facts used make up the whole outcome. -/
theorem Clause.HasOutcome.unique {clause : Clause} {o o' : Outcome}
    (h : clause.HasOutcome facts o) (h' : clause.HasOutcome facts o') : o = o' := by
  have hname : o.name = o'.name := h.name.trans h'.name.symm
  have hholds : o.holds = o'.holds := by rw [Bool.eq_iff_iff, h.holds, h'.holds]
  have hused : o.factsUsed = o'.factsUsed := h.factsUsed.trans h'.factsUsed.symm
  have hfault : o.fault = o'.fault :=
    Option.ext fun fault => (h.fault fault).trans (h'.fault fault).symm
  cases o
  cases o'
  rw [Outcome.mk.injEq]
  exact ⟨hname, hholds, hused, hfault⟩

theorem Clause.hasOutcome_iff {clause : Clause} {o : Outcome} :
    clause.HasOutcome facts o ↔ clause.outcome facts = o :=
  ⟨fun h => clause.hasOutcome_outcome.unique h, fun h => h ▸ clause.hasOutcome_outcome⟩

theorem Clause.forall₂_hasOutcome_iff {clauses : List Clause} {outcomes : List Outcome} :
    List.Forall₂ (HasOutcome facts) clauses outcomes ↔
      clauses.map (·.outcome facts) = outcomes := by
  have hrelation : HasOutcome facts = fun clause o => clause.outcome facts = o := by
    funext clause o
    exact propext hasOutcome_iff
  rw [hrelation, ← List.forall₂_map_left_iff, List.forall₂_eq_eq_eq]

/-! ## Choices -/

/-- The decision has the name, or else no decision has it and the other one stands in. -/
inductive Decision.Denoted (otherwise : Decision) : String → Decision → Prop where
  | named (decision : Decision) : Denoted otherwise decision.name decision
  | unnamed {action : String} (h : ∀ decision : Decision, decision.name ≠ action) :
      Denoted otherwise action otherwise

theorem Decision.denoted_iff {otherwise decision : Decision} {action : String} :
    Denoted otherwise action decision ↔ (ofAction? action).getD otherwise = decision := by
  constructor
  · rintro (_ | h)
    · simp
    · have hnone : ofAction? action = none := by
        rw [ofAction?, List.find?_eq_none]
        simp [h]
      rw [hnone, Option.getD_none]
  · rintro rfl
    cases hfound : ofAction? action with
    | some decision =>
      have hname : decision.name = action := by simpa using List.find?_some hfound
      rw [← hname]
      exact .named decision
    | none =>
      refine .unnamed fun decision hname => ?_
      rw [← hname, ofAction?_name] at hfound
      cases hfound

namespace Policy

variable {policy : Policy}

/-- What a decision rule may choose once every invariant holds. -/
inductive Chooses (policy : Policy) (facts : FactSet) : DecisionRule → Choice → Prop where
  | matched {otherwise decision : Decision} {before after : List Clause} {action : Clause}
      {guards : List Outcome} (split : policy.actions = before ++ action :: after)
      (earlier : ∀ other ∈ before, (other.condition.eval facts).result ≠ .ok true)
      (holds : (action.condition.eval facts).result = .ok true)
      (outcomes : List.Forall₂ (Clause.HasOutcome facts) (before ++ [action]) guards)
      (denoted : Decision.Denoted otherwise action.name decision) :
      Chooses policy facts (.firstMatch otherwise) ⟨decision, some action.name, guards⟩
  | unmatched {otherwise : Decision} {guards : List Outcome}
      (fails : ∀ action ∈ policy.actions, (action.condition.eval facts).result ≠ .ok true)
      (outcomes : List.Forall₂ (Clause.HasOutcome facts) policy.actions guards) :
      Chooses policy facts (.firstMatch otherwise) ⟨otherwise, some otherwise.name, guards⟩
  | duplicate (h : facts.get? "duplicate_charge" = some (.bool true)) :
      Chooses policy facts .disputeRouting ⟨.reasonCode4834, none, []⟩
  | noDuplicate (h : facts.get? "duplicate_charge" ≠ some (.bool true)) :
      Chooses policy facts .disputeRouting ⟨.requestMoreDocs, none, []⟩
  | approved : Chooses policy facts .approveIfSatisfiable ⟨.approve, none, []⟩

theorem selectFirst_append {before after : List Clause} {action : Clause}
    (earlier : ∀ other ∈ before, (other.condition.eval facts).result ≠ .ok true)
    (holds : (action.condition.eval facts).result = .ok true) :
    selectFirst facts (before ++ action :: after) =
      (some action.name, (before ++ [action]).map (·.outcome facts)) := by
  induction before with
  | nil =>
    have h : (action.outcome facts).holds = true := action.hasOutcome_outcome.holds.mpr holds
    simp [selectFirst, h]
  | cons other before ih =>
    rw [List.forall_mem_cons] at earlier
    have h : ¬(other.outcome facts).holds = true := fun h =>
      earlier.1 (other.hasOutcome_outcome.holds.mp h)
    simp [selectFirst, h, ih earlier.2]

theorem selectFirst_of_fails {actions : List Clause}
    (fails : ∀ action ∈ actions, (action.condition.eval facts).result ≠ .ok true) :
    selectFirst facts actions = (none, actions.map (·.outcome facts)) := by
  induction actions with
  | nil => rfl
  | cons action rest ih =>
    rw [List.forall_mem_cons] at fails
    have h : ¬(action.outcome facts).holds = true := fun h =>
      fails.1 (action.hasOutcome_outcome.holds.mp h)
    simp [selectFirst, h, ih fails.2]

theorem chooses_choose (policy : Policy) (facts : FactSet) :
    policy.Chooses facts policy.rule (policy.choose facts) := by
  unfold choose
  cases policy.rule with
  | firstMatch otherwise =>
    rw [selectAction]
    cases hfound : policy.actions.find? fun action => action.condition.holds facts with
    | some action =>
      obtain ⟨hholds, before, after, hsplit, hearlier⟩ := List.find?_eq_some_iff_append.mp hfound
      have hholds := Predicate.holds_iff.mp hholds
      have hearlier : ∀ other ∈ before, (other.condition.eval facts).result ≠ .ok true := by
        intro other hother
        rw [Ne, ← Predicate.holds_iff]
        simpa using hearlier other hother
      rw [hsplit, selectFirst_append hearlier hholds]
      exact .matched hsplit hearlier hholds (Clause.forall₂_hasOutcome_iff.mpr rfl)
        (Decision.denoted_iff.mpr rfl)
    | none =>
      have hfails : ∀ action ∈ policy.actions, (action.condition.eval facts).result ≠ .ok true := by
        intro action haction
        rw [Ne, ← Predicate.holds_iff]
        exact List.find?_eq_none.mp hfound action haction
      rw [selectFirst_of_fails hfails]
      simp only [Option.getD_none, Decision.ofAction?_name, Option.getD_some]
      exact .unmatched hfails (Clause.forall₂_hasOutcome_iff.mpr rfl)
  | disputeRouting =>
    dsimp only
    split
    · exact .duplicate ‹_›
    · exact .noDuplicate ‹_›
  | approveIfSatisfiable => exact .approved

theorem Chooses.eq_choose {choice : Choice} (h : policy.Chooses facts policy.rule choice) :
    choice = policy.choose facts := by
  unfold choose
  generalize policy.rule = rule at *
  cases h with
  | matched split earlier holds outcomes denoted =>
    rw [Clause.forall₂_hasOutcome_iff] at outcomes
    rw [Decision.denoted_iff] at denoted
    simp [selectAction, split, selectFirst_append earlier holds, outcomes, denoted]
  | unmatched fails outcomes =>
    rw [Clause.forall₂_hasOutcome_iff] at outcomes
    simp [selectAction, selectFirst_of_fails fails, outcomes]
  | duplicate h => simp [h]
  | noDuplicate h => simp [h]
  | approved => rfl

/-! ## Results -/

/-- What a verification must answer. -/
structure Declares (policy : Policy) (facts : FactSet) (v : Verification) : Prop where
  domain : v.domain = some policy.domain
  policyId : v.policyId = policy.id
  checkedInvariants : v.checkedInvariants = policy.invariants.map (·.name)
  trace : List.Forall₂ (Clause.HasOutcome facts) policy.invariants v.trace
  unsatCore : v.unsatCore =
    (policy.invariants.filter fun clause => !clause.condition.holds facts).map (·.name)
  satisfiable : v.satisfiable = true ↔ v.unsatCore = []
  satisfied : v.unsatCore = [] →
    policy.Chooses facts policy.rule ⟨v.decision, v.chosenAction, v.guards⟩
  unsatisfied : v.unsatCore ≠ [] →
    v.decision = policy.fallback ∧ v.chosenAction = none ∧ v.guards = []

theorem unsatCore_verify (policy : Policy) (facts : FactSet) : (policy.verify facts).unsatCore =
    (policy.invariants.filter fun clause => !clause.condition.holds facts).map (·.name) := by
  have hcore : (policy.verify facts).unsatCore = violated (policy.checkInvariants facts) := rfl
  rw [hcore, violated, checkInvariants, List.filter_map, List.map_map]
  simp [Function.comp_def, Clause.outcome_holds]

theorem choice_verify (policy : Policy) (facts : FactSet) :
    (⟨(policy.verify facts).decision, (policy.verify facts).chosenAction,
      (policy.verify facts).guards⟩ : Choice) =
      if (policy.verify facts).unsatCore = [] then policy.choose facts
      else ⟨policy.fallback, none, []⟩ := by
  simp only [verify, List.isEmpty_iff]

theorem declares_verify (policy : Policy) (facts : FactSet) :
    policy.Declares facts (policy.verify facts) where
  domain := rfl
  policyId := rfl
  checkedInvariants := rfl
  trace := Clause.forall₂_hasOutcome_iff.mpr rfl
  unsatCore := policy.unsatCore_verify facts
  satisfiable := by rw [satisfiable_verify, List.isEmpty_iff]
  satisfied h := by
    rw [choice_verify, if_pos h]
    exact policy.chooses_choose facts
  unsatisfied h := by
    have hchoice := policy.choice_verify facts
    rw [if_neg h, Choice.mk.injEq] at hchoice
    exact hchoice

theorem Declares.unique {v w : Verification} (hv : policy.Declares facts v)
    (hw : policy.Declares facts w) : v = w := by
  have hcore : v.unsatCore = w.unsatCore := hv.unsatCore.trans hw.unsatCore.symm
  have hsatisfiable : v.satisfiable = w.satisfiable := by
    rw [Bool.eq_iff_iff, hv.satisfiable, hw.satisfiable, hcore]
  have htrace : v.trace = w.trace := by
    rw [← Clause.forall₂_hasOutcome_iff.mp hv.trace, Clause.forall₂_hasOutcome_iff.mp hw.trace]
  have hchoice : (⟨v.decision, v.chosenAction, v.guards⟩ : Choice) =
      ⟨w.decision, w.chosenAction, w.guards⟩ := by
    by_cases hempty : v.unsatCore = []
    · rw [(hv.satisfied hempty).eq_choose, (hw.satisfied (hcore ▸ hempty)).eq_choose]
    · obtain ⟨hdecision, haction, hguards⟩ := hv.unsatisfied hempty
      obtain ⟨hdecision', haction', hguards'⟩ := hw.unsatisfied (hcore ▸ hempty)
      rw [hdecision, haction, hguards, hdecision', haction', hguards']
  rw [Choice.mk.injEq] at hchoice
  obtain ⟨hdecision, haction, hguards⟩ := hchoice
  cases v
  cases w
  rw [Verification.mk.injEq]
  exact ⟨hv.domain.trans hw.domain.symm, hv.policyId.trans hw.policyId.symm, hsatisfiable,
    hv.checkedInvariants.trans hw.checkedInvariants.symm, hcore, haction, hdecision, htrace, hguards⟩

/-! ## The order of the invariants -/

variable {invariants : List Clause}

variable (facts) in
theorem unsatCore_perm (h : invariants.Perm policy.invariants) :
    (verify { policy with invariants } facts).unsatCore.Perm (policy.verify facts).unsatCore := by
  rw [unsatCore_verify, unsatCore_verify]
  exact (h.filter _).map _

variable (facts) in
theorem choice_perm (h : invariants.Perm policy.invariants) :
    (⟨(verify { policy with invariants } facts).decision,
      (verify { policy with invariants } facts).chosenAction,
      (verify { policy with invariants } facts).guards⟩ : Choice) =
      ⟨(policy.verify facts).decision, (policy.verify facts).chosenAction,
        (policy.verify facts).guards⟩ := by
  have hcore : (verify { policy with invariants } facts).unsatCore = [] ↔
      (policy.verify facts).unsatCore = [] := by
    rw [← List.length_eq_zero_iff, (unsatCore_perm facts h).length_eq, List.length_eq_zero_iff]
  rw [choice_verify, choice_verify]
  simp only [hcore]
  rfl

end Policy

/-- Verification gives the result that the policy declares and no other. With the invariants in
another order the lists of their names and outcomes are reordered, and all else stays. -/
theorem verify_eq_declared (policy : Policy) (facts : FactSet) :
    (∀ v, policy.Declares facts v ↔ v = policy.verify facts) ∧
      ∀ invariants : List Clause, invariants.Perm policy.invariants →
        let reordered := Policy.verify { policy with invariants } facts
        reordered.satisfiable = (policy.verify facts).satisfiable ∧
          reordered.decision = (policy.verify facts).decision ∧
          reordered.chosenAction = (policy.verify facts).chosenAction ∧
          reordered.guards = (policy.verify facts).guards ∧
          reordered.unsatCore.Perm (policy.verify facts).unsatCore ∧
          reordered.checkedInvariants.Perm (policy.verify facts).checkedInvariants ∧
          reordered.trace.Perm (policy.verify facts).trace := by
  refine ⟨fun v => ⟨fun h => h.unique (policy.declares_verify facts), ?_⟩, fun invariants h => ?_⟩
  · rintro rfl
    exact policy.declares_verify facts
  · have hcore := Policy.unsatCore_perm facts h
    have hchoice := Policy.choice_perm facts h
    rw [Policy.Choice.mk.injEq] at hchoice
    obtain ⟨hdecision, haction, hguards⟩ := hchoice
    refine ⟨?_, hdecision, haction, hguards, hcore, h.map _, h.map _⟩
    rw [Policy.satisfiable_verify, Policy.satisfiable_verify, Bool.eq_iff_iff, List.isEmpty_iff,
      List.isEmpty_iff, ← List.length_eq_zero_iff, hcore.length_eq, List.length_eq_zero_iff]

/-- A payment above its limit to a blocked merchant violates the same invariants whichever of them
comes first. -/
theorem verify_eq_declared_reversed :
    let policy := Policy.authorization
    let invariants := policy.invariants.reverse
    let facts := (FactRecord.authorization
      ⟨some (.ofInt 900), some (.ofInt 500), some (.ofInt 800), some lowRisk, some 7995, some false,
        some 1⟩).known
    invariants.Perm policy.invariants ∧
      (policy.verify facts).unsatCore = ["limit_ok", "mcc_allowed"] ∧
      (Policy.verify { policy with invariants } facts).unsatCore.Perm
        (policy.verify facts).unsatCore := by
  intro policy invariants facts
  have hperm : invariants.Perm policy.invariants := List.reverse_perm _
  obtain ⟨-, hreordered⟩ := verify_eq_declared policy facts
  obtain ⟨-, -, -, -, hcore, -⟩ := hreordered invariants hperm
  exact ⟨hperm, by rfl, hcore⟩

end Verdict
