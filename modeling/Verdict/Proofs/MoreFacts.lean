import Verdict.Proofs.DeclaredResult
import Verdict.Proofs.Provenance

/-!
# More facts

Where no predicate asks which facts are known, every consulted fact is either known or a fault. So a
result rests on known facts alone, and it stays as it is when more facts become known. A policy
without such questions is violated by fewer invariants the more is known.
-/

namespace Verdict

variable {facts facts' : FactSet}

/-- All that is known in the first set is known in the second one, with the same values. -/
def FactSet.ExtendedBy (facts facts' : FactSet) : Prop :=
  ∀ fact value, facts.get? fact = some value → facts'.get? fact = some value

theorem FactSet.extendedBy_insert {fact : String} (h : facts.get? fact = none) (value : Value) :
    facts.ExtendedBy (facts.insert fact value) := by
  intro other v hv
  have hne : other ≠ fact := by
    rintro rfl
    rw [h] at hv
    cases hv
  rw [get?_insert, if_neg hne, hv]

theorem FactSet.ExtendedBy.agreeOn (h : facts.ExtendedBy facts') {names : List String}
    (hknown : ∀ fact ∈ names, facts.isKnown fact = true) : AgreeOn names facts facts' := by
  intro fact hfact
  obtain ⟨value, hvalue⟩ := Option.isSome_iff_exists.mp (hknown fact hfact)
  rw [hvalue, h fact value hvalue]

namespace Reading

variable {α β : Type}

/-- Where the reading has a result, every fact that it consulted is known. -/
def RestsOnKnown (facts : FactSet) (r : Reading α) : Prop :=
  ∀ a, r.result = .ok a → ∀ fact ∈ r.consulted, facts.isKnown fact = true

theorem restsOnKnown_ofExcept (result : Except Fault α) : (ofExcept result).RestsOnKnown facts :=
  fun _ _ _ hfact => absurd hfact List.not_mem_nil

theorem restsOnKnown_ofFact (fact : String) : (ofFact facts fact).RestsOnKnown facts := by
  intro v hv other hother
  rw [List.mem_singleton.mp hother, FactSet.isKnown, get?_of_ofFact hv, Option.isSome_some]

theorem RestsOnKnown.bind {first : Reading α} {next : α → Reading β}
    (hfirst : first.RestsOnKnown facts) (hnext : ∀ a, (next a).RestsOnKnown facts) :
    (first >>= next).RestsOnKnown facts := by
  intro b hb fact hfact
  obtain ⟨a, ha, hb⟩ := result_bind_eq_ok.mp hb
  rw [bind_of_ok ha] at hfact
  rcases List.mem_append.mp hfact with hfact | hfact
  · exact hfirst a ha fact hfact
  · exact hnext a b hb fact hfact

theorem kept_restsOnKnown : Kept fun r => (r facts).RestsOnKnown facts where
  pure _ := restsOnKnown_ofExcept _
  bind := RestsOnKnown.bind

end Reading

open Reading

theorem Term.restsOnKnown_eval (t : Term) : (t.eval facts).RestsOnKnown facts := by
  cases t with
  | fact name => exact restsOnKnown_ofFact name
  | int n => exact restsOnKnown_ofExcept _
  | decimal d => exact restsOnKnown_ofExcept _
  | scaled name factor => exact (restsOnKnown_ofFact name).bind fun _ => restsOnKnown_ofExcept _

namespace Predicate

/-- No part of the predicate asks which facts are known. -/
def AsksNothingKnown (p : Predicate) : Prop :=
  ∀ names, known names ∉ p.leaves

theorem restsOnKnown_eval {p : Predicate} (hp : p.AsksNothingKnown) :
    (p.eval facts).RestsOnKnown facts := by
  refine kept_restsOnKnown.eval fun leaf hleaf => ?_
  cases isLeaf_of_mem_leaves hleaf with
  | compare left c right =>
    exact left.restsOnKnown_eval.bind fun _ => right.restsOnKnown_eval.bind fun _ =>
      restsOnKnown_ofExcept _
  | flag fact => exact (restsOnKnown_ofFact fact).bind fun _ => restsOnKnown_ofExcept _
  | known names => exact absurd hleaf (hp names)
  | notIn fact excluded =>
    exact (restsOnKnown_ofFact fact).bind fun _ => (restsOnKnown_ofExcept _).bind fun _ =>
      restsOnKnown_ofExcept _

/-- A result stays as it is, and so does all that was consulted for it. -/
theorem eval_extendedBy {p : Predicate} (hp : p.AsksNothingKnown) (h : facts.ExtendedBy facts')
    {b : Bool} (hb : (p.eval facts).result = .ok b) : p.eval facts' = p.eval facts :=
  p.accounted_eval facts facts' (h.agreeOn (restsOnKnown_eval hp b hb))

end Predicate

/-- If every invariant that holds goes on to hold, no name comes into the core. -/
theorem Policy.unsatCore_sublist {policy : Policy}
    (h : ∀ invariant ∈ policy.invariants, invariant.condition.holds facts = true →
      invariant.condition.holds facts' = true) :
    (policy.verify facts').unsatCore.Sublist (policy.verify facts).unsatCore := by
  have hfilter : (policy.invariants.filter fun clause => !clause.condition.holds facts') =
      (policy.invariants.filter fun clause => !clause.condition.holds facts).filter
        fun clause => !clause.condition.holds facts' := by
    rw [List.filter_filter]
    refine List.filter_congr fun invariant hmem => ?_
    cases hholds : invariant.condition.holds facts with
    | false => simp
    | true => simp [h invariant hmem hholds]
  rw [unsatCore_verify, unsatCore_verify, hfilter]
  exact List.filter_sublist.map _

/-- If no invariant asks which facts are known, then learning more facts changes no invariant that
was evaluated without a fault, neither its truth nor the facts used. The core loses names and gains
none, so what was satisfiable stays so. -/
theorem more_facts_keep_results {policy : Policy} {facts facts' : FactSet}
    (hpolicy : ∀ invariant ∈ policy.invariants, invariant.condition.AsksNothingKnown)
    (h : facts.ExtendedBy facts') :
    (∀ invariant ∈ policy.invariants, ∀ b, (invariant.condition.eval facts).result = .ok b →
        (invariant.condition.eval facts').result = .ok b ∧
          (invariant.condition.eval facts').factsUsed =
            (invariant.condition.eval facts).factsUsed) ∧
      (policy.verify facts').unsatCore.Sublist (policy.verify facts).unsatCore ∧
      ((policy.verify facts).satisfiable = true → (policy.verify facts').satisfiable = true) := by
  have heval : ∀ invariant ∈ policy.invariants, ∀ b,
      (invariant.condition.eval facts).result = .ok b →
        invariant.condition.eval facts' = invariant.condition.eval facts :=
    fun invariant hmem b => Predicate.eval_extendedBy (hpolicy invariant hmem) h
  have hcore : (policy.verify facts').unsatCore.Sublist (policy.verify facts).unsatCore := by
    refine Policy.unsatCore_sublist fun invariant hmem hholds => ?_
    rw [Predicate.holds, heval invariant hmem true (Predicate.holds_iff.mp hholds)]
    exact hholds
  refine ⟨fun invariant hmem b hb => ?_, hcore, fun hsat => ?_⟩
  · rw [heval invariant hmem b hb]
    exact ⟨hb, rfl⟩
  · rw [Policy.satisfiable_verify, List.isEmpty_iff] at hsat ⊢
    rw [hsat] at hcore
    exact List.eq_nil_of_sublist_nil hcore

/-- The policy for payments without the invariant on their channel, the only one that asks whether a
fact is known. -/
def anyChannel : Policy :=
  { Policy.authorization with
    invariants := Policy.authorization.invariants.filter (·.name != "cnp_tightened") }

/-- The known facts of a payment of which neither the category nor the count of payments is known. -/
def sparsePayment : FactSet :=
  ⟨[("amount", .int 120), ("credit_limit", .int 1000), ("risk_score", .int 0)]⟩

/-- The count becomes known, and one of the two names leaves the core. -/
theorem more_facts_keep_results_sparsePayment :
    (∀ invariant ∈ anyChannel.invariants, invariant.condition.AsksNothingKnown) ∧
      sparsePayment.ExtendedBy (sparsePayment.insert "velocity_1h" (.int 1)) ∧
      (anyChannel.verify sparsePayment).unsatCore = ["velocity_cap", "mcc_allowed"] ∧
      (anyChannel.verify (sparsePayment.insert "velocity_1h" (.int 1))).unsatCore =
        ["mcc_allowed"] ∧
      (anyChannel.verify (sparsePayment.insert "velocity_1h" (.int 1))).unsatCore.Sublist
        (anyChannel.verify sparsePayment).unsatCore := by
  have hpolicy : ∀ invariant ∈ anyChannel.invariants, invariant.condition.AsksNothingKnown := by
    simp [anyChannel, Policy.authorization, Predicate.AsksNothingKnown, Predicate.leaves]
  have hextended : sparsePayment.ExtendedBy (sparsePayment.insert "velocity_1h" (.int 1)) :=
    FactSet.extendedBy_insert (by decide) _
  exact ⟨hpolicy, hextended, by decide +kernel, by decide +kernel,
    (more_facts_keep_results hpolicy hextended).2.1⟩

/-- The refund window asks whether the day count is known, and a late count violates it. -/
example : (Policy.dispute.verify .empty).satisfiable = true ∧
    (Policy.dispute.verify (.insert .empty "days_since_transaction" (.int 137))).satisfiable =
      false := by
  decide +kernel

end Verdict
