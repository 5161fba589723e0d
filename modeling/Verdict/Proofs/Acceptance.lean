import Verdict.Judgement.Proposal

/-!
# What a policy accepts

A policy is satisfied by facts if every invariant holds, and it permits an action if it has an
action of that name whose guard holds. Verification and the check of a suggested action are stated
in these two terms, first for any policy and then for the authorization of a payment.
-/

namespace Verdict

theorem Predicate.holds_iff {facts : FactSet} {p : Predicate} :
    p.holds facts = true ↔ (p.eval facts).result = .ok true := by
  unfold Predicate.holds
  cases (p.eval facts).result with
  | ok b => simp
  | error fault => simp

namespace Policy

/-- Every invariant holds. -/
def isSatisfied (policy : Policy) (facts : FactSet) : Bool :=
  policy.invariants.all fun clause => clause.condition.holds facts

/-- The policy has an action of this name, and its guard holds. -/
def permits (policy : Policy) (facts : FactSet) (action : String) : Bool :=
  (policy.action? action).any fun clause => clause.condition.holds facts

theorem isSatisfied_iff {policy : Policy} {facts : FactSet} :
    policy.isSatisfied facts = true ↔
      ∀ clause ∈ policy.invariants, (clause.condition.eval facts).result = .ok true := by
  simp only [isSatisfied, List.all_eq_true, Predicate.holds_iff]

theorem permits_iff {policy : Policy} {facts : FactSet} {action : String} :
    policy.permits facts action = true ↔ ∃ clause, policy.action? action = some clause ∧
      (clause.condition.eval facts).result = .ok true := by
  simp only [permits, Option.any_eq_true, Predicate.holds_iff]

theorem isEmpty_violated (policy : Policy) (facts : FactSet) :
    (violated (policy.checkInvariants facts)).isEmpty = policy.isSatisfied facts := by
  rw [Bool.eq_iff_iff, List.isEmpty_iff, violated, List.map_eq_nil_iff, List.filter_eq_nil_iff,
    isSatisfied, List.all_eq_true]
  simp [checkInvariants, Clause.outcome_holds]

theorem isEmpty_checkAction (policy : Policy) (facts : FactSet) (action : String) :
    (policy.checkAction facts action).2.isEmpty = policy.permits facts action := by
  unfold checkAction permits
  cases policy.action? action with
  | none => rfl
  | some clause => cases h : clause.condition.holds facts <;> simp [Clause.outcome_holds, h]

theorem verify_decision (policy : Policy) (facts : FactSet) :
    (policy.verify facts).decision =
      if policy.isSatisfied facts then (policy.choose facts).decision else policy.fallback := by
  rw [← isEmpty_violated, verify]
  split <;> rfl

theorem verify_satisfiable (policy : Policy) (facts : FactSet) :
    (policy.verify facts).satisfiable = policy.isSatisfied facts := by
  rw [satisfiable_verify, ← isEmpty_violated]
  rfl

theorem verify_chosenAction (policy : Policy) (facts : FactSet) :
    (policy.verify facts).chosenAction =
      if policy.isSatisfied facts then (policy.choose facts).action else none := by
  rw [← isEmpty_violated, verify]
  split <;> rfl

/-- An invariant of a satisfied policy holds. -/
theorem holds_of_isSatisfied {policy : Policy} {facts : FactSet}
    (h : policy.isSatisfied facts = true) {clause : Clause} (hclause : clause ∈ policy.invariants) :
    clause.condition.holds facts = true := by
  rw [isSatisfied, List.all_eq_true] at h
  exact h clause hclause

/-- The chosen action is the first whose guard holds. -/
theorem selectFirst_fst (facts : FactSet) (actions : List Clause) :
    (selectFirst facts actions).1 =
      (actions.find? fun clause => clause.condition.holds facts).map (·.name) := by
  induction actions with
  | nil => rfl
  | cons action rest ih =>
    cases h : action.condition.holds facts <;> simp [selectFirst, Clause.outcome_holds, h, ih]

/-- The guards up to the first that holds are all that the choice of an action depends on. -/
theorem selectFirst_congr {facts facts' : FactSet} {actions : List Clause}
    (h : ∀ clause ∈ actions, clause.outcome facts ∈ (selectFirst facts actions).2 →
      clause.outcome facts' = clause.outcome facts) :
    selectFirst facts' actions = selectFirst facts actions := by
  induction actions with
  | nil => rfl
  | cons action rest ih =>
    have hmem : action.outcome facts ∈ (selectFirst facts (action :: rest)).2 := by
      simp only [selectFirst]
      split <;> simp
    have hout : action.outcome facts' = action.outcome facts := h action List.mem_cons_self hmem
    by_cases hholds : (action.outcome facts).holds
    · simp only [selectFirst, hout, hholds, if_true]
    · simp only [selectFirst, hout, hholds] at h ⊢
      rw [ih fun clause hclause ho =>
        h clause (List.mem_cons_of_mem _ hclause) (List.mem_cons_of_mem _ ho)]

end Policy

namespace FactRecord

theorem checkProposal_satisfiable (r : FactRecord) (action : String) :
    (r.checkProposal action).satisfiable =
      (r.domain.policy.isSatisfied r.known && r.domain.policy.permits r.known action) := by
  rw [← Policy.isEmpty_violated, ← Policy.isEmpty_checkAction]
  simp only [checkProposal]
  cases Policy.violated (r.domain.policy.checkInvariants r.known) <;> rfl

theorem checkProposal_decision (r : FactRecord) (action : String) :
    (r.checkProposal action).decision =
      if (r.checkProposal action).satisfiable then
        (Decision.ofAction? action).getD r.domain.policy.fallback
      else r.domain.policy.fallback := rfl

end FactRecord

/-! ## Authorization -/

/-- The actions of an authorization are the three decisions of the same names. -/
theorem Policy.eq_name_of_permits_authorization {facts : FactSet} {action : String}
    (h : authorization.permits facts action = true) :
    action = Decision.approveNoOtp.name ∨ action = Decision.approveWithOtp.name ∨
      action = Decision.decline.name := by
  obtain ⟨clause, hfound, -⟩ := permits_iff.mp h
  have hmem : clause ∈ authorization.actions := List.mem_of_find?_eq_some hfound
  have hname : clause.name = action := by simpa using List.find?_some hfound
  rw [← hname]
  simp only [authorization, List.mem_cons, List.not_mem_nil, or_false] at hmem
  rcases hmem with rfl | rfl | rfl
  · exact Or.inl rfl
  · exact Or.inr (Or.inl rfl)
  · exact Or.inr (Or.inr rfl)

/-- Of the two approvals the more lenient one is chosen if it is permitted. -/
theorem Policy.selectFirst_authorization (facts : FactSet) :
    (selectFirst facts authorization.actions).1.getD Decision.decline.name =
      if authorization.permits facts Decision.approveNoOtp.name then Decision.approveNoOtp.name
      else if authorization.permits facts Decision.approveWithOtp.name then
        Decision.approveWithOtp.name
      else Decision.decline.name := by
  obtain ⟨noOtp, withOtp, decline, hactions⟩ :
      ∃ noOtp withOtp decline, authorization.actions = [⟨Decision.approveNoOtp.name, noOtp⟩,
        ⟨Decision.approveWithOtp.name, withOtp⟩, ⟨Decision.decline.name, decline⟩] :=
    ⟨_, _, _, rfl⟩
  have hno : authorization.permits facts Decision.approveNoOtp.name = noOtp.holds facts := by
    cases hactions
    rfl
  have hwith : authorization.permits facts Decision.approveWithOtp.name = withOtp.holds facts := by
    cases hactions
    rfl
  rw [selectFirst_fst, hactions, hno, hwith]
  cases h₁ : noOtp.holds facts <;> cases h₂ : withOtp.holds facts <;>
    cases h₃ : decline.holds facts <;> simp [h₁, h₂, h₃]

theorem Policy.choose_authorization_decision (facts : FactSet) :
    (authorization.choose facts).decision =
      if authorization.permits facts Decision.approveNoOtp.name then .approveNoOtp
      else if authorization.permits facts Decision.approveWithOtp.name then .approveWithOtp
      else .decline := by
  have hchoose : (authorization.choose facts).decision = (Decision.ofAction?
      ((selectFirst facts authorization.actions).1.getD Decision.decline.name)).getD .decline := rfl
  rw [hchoose, selectFirst_authorization]
  split
  · simp
  · split <;> simp

theorem Policy.choose_authorization_action (facts : FactSet) :
    (authorization.choose facts).action =
      some (if authorization.permits facts Decision.approveNoOtp.name then Decision.approveNoOtp.name
        else if authorization.permits facts Decision.approveWithOtp.name then
          Decision.approveWithOtp.name
        else Decision.decline.name) :=
  congrArg some (selectFirst_authorization facts)

end Verdict
