import Verdict.Proofs.Acceptance
import Verdict.Proofs.Evaluation

/-!
# Values that no evaluation tells apart

A relation between values that comparison, scaling and the two conversions respect is respected by
the whole evaluation: related facts give every predicate the same reading, and every verification
and check of an action comes out the same. Scaling has to respect the relation for those factors
only by which the policy scales, as a product that overflows is quoted with its factors.
-/

namespace Verdict

/-- The factor of a term that scales. -/
def Term.factor? : Term → Option Decimal
  | scaled _ factor => some factor
  | _ => none

namespace Predicate

mutual

/-- The factors by which a condition scales facts. -/
def factors : Predicate → List Decimal
  | compare left _ right => left.factor?.toList ++ right.factor?.toList
  | flag _ => []
  | not operand => operand.factors
  | all operands => factorsOf operands
  | any operands => factorsOf operands
  | implies premise conclusion => premise.factors ++ conclusion.factors
  | known _ => []
  | notIn _ _ => []

/-- The factors by which several conditions scale facts. -/
def factorsOf : List Predicate → List Decimal
  | [] => []
  | p :: rest => p.factors ++ factorsOf rest

end

theorem factors_subset_of_mem {ps : List Predicate} {p : Predicate} (hp : p ∈ ps) :
    p.factors ⊆ factorsOf ps := by
  induction ps with
  | nil => exact absurd hp List.not_mem_nil
  | cons q rest ih =>
    rw [factorsOf]
    rcases List.mem_cons.mp hp with rfl | hp
    · exact List.subset_append_left _ _
    · exact List.subset_append_of_subset_right _ (ih hp)

end Predicate

/-- The factors by which the invariants and guards of a policy scale facts. -/
def Policy.factors (policy : Policy) : List Decimal :=
  (policy.invariants ++ policy.actions).flatMap (·.condition.factors)

/-- Both results are the same fault, or both are values that are related. -/
def Fault.Related (R : Value → Value → Prop) (a b : Except Fault Value) : Prop :=
  (∃ v w, a = .ok v ∧ b = .ok w ∧ R v w) ∨ ∃ fault, a = .error fault ∧ b = .error fault

/-- The operations on values do not tell related values apart, where values are scaled by the given
factors. -/
structure Value.Indistinguishable (factors : List Decimal) (R : Value → Value → Prop) : Prop where
  refl : ∀ v, R v v
  asBool : ∀ {v w}, R v w → w.asBool = v.asBool
  asInt : ∀ {v w}, R v w → w.asInt = v.asInt
  compare : ∀ (c : Comparison) {v w v' w'}, R v w → R v' w' → w.compare c w' = v.compare c v'
  scale : ∀ factor ∈ factors, ∀ {v w}, R v w → Fault.Related R (v.scale factor) (w.scale factor)

/-- The same facts are known, with related values. -/
def FactSet.Related (R : Value → Value → Prop) (facts facts' : FactSet) : Prop :=
  ∀ fact, Option.Rel R (facts.get? fact) (facts'.get? fact)

/-- Both readings consult the same facts and their results are related. -/
structure Reading.Related (R : Value → Value → Prop) (r r' : Reading Value) : Prop where
  consulted : r'.consulted = r.consulted
  result : Fault.Related R r.result r'.result

section

variable {R : Value → Value → Prop} {factors : List Decimal} {facts facts' : FactSet}

theorem Value.Indistinguishable.mono (hR : Value.Indistinguishable factors R)
    {fewer : List Decimal} (h : fewer ⊆ factors) : Value.Indistinguishable fewer R :=
  { hR with scale := fun factor hfactor => hR.scale factor (h hfactor) }

theorem FactSet.Related.isKnown (h : FactSet.Related R facts facts') (fact : String) :
    facts'.isKnown fact = facts.isKnown fact := by
  have hrel := h fact
  unfold FactSet.isKnown
  generalize facts.get? fact = value, facts'.get? fact = value' at hrel ⊢
  cases hrel <;> rfl

/-- Nothing tells the first readings apart from what follows on their results. -/
theorem Reading.Related.bind {α : Type} {r r' : Reading Value} {next next' : Value → Reading α}
    (h : Reading.Related R r r') (hnext : ∀ v w, R v w → next' w = next v) :
    r' >>= next' = r >>= next := by
  obtain ⟨hconsulted, ⟨v, w, hv, hw, hvw⟩ | ⟨fault, hr, hr'⟩⟩ := h
  · rw [bind_of_ok hv, bind_of_ok hw, hconsulted, hnext v w hvw]
  · rw [bind_of_error hr, bind_of_error hr', hconsulted]

theorem Reading.related_ofFact (h : FactSet.Related R facts facts') (fact : String) :
    Reading.Related R (ofFact facts fact) (ofFact facts' fact) := by
  refine ⟨rfl, ?_⟩
  have hrel := h fact
  unfold ofFact
  generalize facts.get? fact = value, facts'.get? fact = value' at hrel ⊢
  cases hrel with
  | some hvw => exact Or.inl ⟨_, _, rfl, rfl, hvw⟩
  | none => exact Or.inr ⟨_, rfl, rfl⟩

theorem Term.related_eval {t : Term} (hR : Value.Indistinguishable t.factor?.toList R)
    (h : FactSet.Related R facts facts') : Reading.Related R (t.eval facts) (t.eval facts') := by
  cases t with
  | fact name => exact Reading.related_ofFact h name
  | int n => exact ⟨rfl, Or.inl ⟨_, _, rfl, rfl, hR.refl _⟩⟩
  | decimal d => exact ⟨rfl, Or.inl ⟨_, _, rfl, rfl, hR.refl _⟩⟩
  | scaled name factor =>
    obtain ⟨hconsulted, ⟨v, w, hv, hw, hvw⟩ | ⟨fault, hr, hr'⟩⟩ := Reading.related_ofFact h name
    · rw [eval, eval, Reading.bind_of_ok hv, Reading.bind_of_ok hw]
      exact ⟨rfl, hR.scale factor (List.mem_singleton_self factor) hvw⟩
    · rw [eval, eval, Reading.bind_of_error hr, Reading.bind_of_error hr']
      exact ⟨rfl, Or.inr ⟨fault, rfl, rfl⟩⟩

namespace Predicate

theorem evalAll_congr {ps : List Predicate} (h : ∀ p ∈ ps, p.eval facts' = p.eval facts) :
    evalAll facts' ps = evalAll facts ps := by
  induction ps with
  | nil => rfl
  | cons p rest ih =>
    rw [evalAll, evalAll, h p List.mem_cons_self, ih fun q hq => h q (List.mem_cons_of_mem p hq)]

theorem evalAny_congr {ps : List Predicate} (h : ∀ p ∈ ps, p.eval facts' = p.eval facts) :
    evalAny facts' ps = evalAny facts ps := by
  induction ps with
  | nil => rfl
  | cons p rest ih =>
    rw [evalAny, evalAny, h p List.mem_cons_self, ih fun q hq => h q (List.mem_cons_of_mem p hq)]

/-- Related facts give every predicate the same reading. -/
theorem eval_related {p : Predicate} (hR : Value.Indistinguishable p.factors R)
    (h : FactSet.Related R facts facts') : p.eval facts' = p.eval facts := by
  induction p with
  | compare left c right =>
    rw [eval, eval]
    have hleft := Term.related_eval (hR.mono (List.subset_append_left _ _)) h
    have hright := Term.related_eval (hR.mono (List.subset_append_right _ _)) h
    refine hleft.bind fun v w hvw => hright.bind fun v' w' hvw' => ?_
    rw [hR.compare c hvw hvw']
  | flag fact =>
    rw [eval, eval]
    refine (Reading.related_ofFact h fact).bind fun v w hvw => ?_
    rw [hR.asBool hvw]
  | not operand ih => rw [eval, eval, ih hR]
  | all operands ih =>
    rw [eval, eval]
    exact evalAll_congr fun p hp => ih p hp (hR.mono (factors_subset_of_mem hp))
  | any operands ih =>
    rw [eval, eval]
    exact evalAny_congr fun p hp => ih p hp (hR.mono (factors_subset_of_mem hp))
  | implies premise conclusion ihp ihc =>
    rw [eval, eval, ihp (hR.mono (List.subset_append_left _ _)),
      ihc (hR.mono (List.subset_append_right _ _))]
  | known names =>
    have hknown : facts'.isKnown = facts.isKnown := funext h.isKnown
    rw [eval, eval, Reading.ofKnown, Reading.ofKnown, hknown]
  | notIn fact excluded =>
    rw [eval, eval]
    refine (Reading.related_ofFact h fact).bind fun v w hvw => ?_
    rw [hR.asInt hvw]

end Predicate

/-! ## Policies -/

theorem Clause.outcome_related {clause : Clause}
    (hR : Value.Indistinguishable clause.condition.factors R)
    (h : FactSet.Related R facts facts') : clause.outcome facts' = clause.outcome facts := by
  rw [outcome, outcome, Predicate.eval_related hR h]

namespace Policy

variable {policy : Policy}

theorem factors_subset {clause : Clause} (hclause : clause ∈ policy.invariants ++ policy.actions) :
    clause.condition.factors ⊆ policy.factors :=
  fun _ hfactor => List.mem_flatMap.mpr ⟨clause, hclause, hfactor⟩

theorem outcome_related (hR : Value.Indistinguishable policy.factors R)
    (h : FactSet.Related R facts facts') {clause : Clause}
    (hclause : clause ∈ policy.invariants ++ policy.actions) :
    clause.outcome facts' = clause.outcome facts :=
  Clause.outcome_related (hR.mono (factors_subset hclause)) h

theorem checkInvariants_related (hR : Value.Indistinguishable policy.factors R)
    (h : FactSet.Related R facts facts') :
    policy.checkInvariants facts' = policy.checkInvariants facts :=
  List.map_congr_left fun _ hclause => outcome_related hR h (List.mem_append_left _ hclause)

/-- A fact has a truth value as its value in both sets or in none. -/
theorem get?_bool_related (hR : Value.Indistinguishable factors R)
    (h : FactSet.Related R facts facts') (fact : String) (b : Bool) :
    facts'.get? fact = some (.bool b) ↔ facts.get? fact = some (.bool b) := by
  have hbool : ∀ v : Value, v = .bool b ↔ v.asBool = .ok b := by
    intro v
    cases v <;> simp [Value.asBool]
  have hrel := h fact
  generalize facts.get? fact = value, facts'.get? fact = value' at hrel ⊢
  cases hrel with
  | some hvw => rw [Option.some_inj, Option.some_inj, hbool, hbool, hR.asBool hvw]
  | none => rfl

theorem choose_related (hR : Value.Indistinguishable policy.factors R)
    (h : FactSet.Related R facts facts') : policy.choose facts' = policy.choose facts := by
  have hselect : policy.selectAction facts' = policy.selectAction facts :=
    selectFirst_congr fun _ hclause _ =>
      outcome_related hR h (List.mem_append_right _ hclause)
  unfold choose
  cases policy.rule with
  | firstMatch otherwise => simp only [hselect]
  | disputeRouting => simp only [get?_bool_related hR h]
  | approveIfSatisfiable => rfl

theorem verify_related (hR : Value.Indistinguishable policy.factors R)
    (h : FactSet.Related R facts facts') : policy.verify facts' = policy.verify facts := by
  rw [verify, verify, checkInvariants_related hR h, choose_related hR h]

theorem checkAction_related (hR : Value.Indistinguishable policy.factors R)
    (h : FactSet.Related R facts facts') (action : String) :
    policy.checkAction facts' action = policy.checkAction facts action := by
  unfold checkAction
  cases hfound : policy.action? action with
  | none => rfl
  | some clause =>
    have hclause : clause ∈ policy.actions := List.mem_of_find?_eq_some hfound
    simp only [outcome_related hR h (List.mem_append_right _ hclause)]

end Policy

namespace FactRecord

variable {r r' : FactRecord}

theorem verify_related (hR : Value.Indistinguishable r.domain.policy.factors R)
    (hdomain : r'.domain = r.domain) (h : FactSet.Related R r.known r'.known) :
    r'.verify = r.verify := by
  rw [verify, verify, hdomain, Policy.verify_related hR h]

/-- A suggested action is checked with the same result over records of related facts. -/
theorem checkProposal_related (hR : Value.Indistinguishable r.domain.policy.factors R)
    (hdomain : r'.domain = r.domain) (h : FactSet.Related R r.known r'.known) (action : String) :
    r'.checkProposal action = r.checkProposal action := by
  simp only [checkProposal, hdomain, Policy.checkInvariants_related hR h,
    Policy.checkAction_related hR h]

end FactRecord

end

end Verdict
