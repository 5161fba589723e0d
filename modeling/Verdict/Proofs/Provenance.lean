import Verdict.Proofs.Acceptance
import Verdict.Proofs.Evaluation

/-!
# Consulted facts are all that counts

A reading is accounted for if every set of facts with the same values for the facts that it
consulted gives the same reading. The parts of an evaluation are accounted for, and going on from
one to the next keeps that. So the facts of a trace and of the guards determine a verification,
but for the one fact that the routing of a dispute looks up by itself.
-/

namespace Verdict

/-- Two sets have the same values for the named facts, or none in both. -/
def FactSet.AgreeOn (names : List String) (facts facts' : FactSet) : Prop :=
  ∀ fact ∈ names, facts'.get? fact = facts.get? fact

instance (names : List String) (facts facts' : FactSet) :
    Decidable (FactSet.AgreeOn names facts facts') :=
  inferInstanceAs (Decidable (∀ fact ∈ names, facts'.get? fact = facts.get? fact))

theorem FactSet.AgreeOn.mono {names names' : List String} {facts facts' : FactSet}
    (h : FactSet.AgreeOn names facts facts') (hsub : ∀ fact ∈ names', fact ∈ names) :
    FactSet.AgreeOn names' facts facts' :=
  fun fact hf => h fact (hsub fact hf)

namespace Reading

variable {α β : Type}

/-- The reading is the same over all facts that agree on what it consulted. -/
def Accounted (read : FactSet → Reading α) : Prop :=
  ∀ facts facts', FactSet.AgreeOn (read facts).consulted facts facts' → read facts' = read facts

theorem accounted_const (r : Reading α) : Accounted fun _ => r :=
  fun _ _ _ => rfl

theorem accounted_ofFact (fact : String) : Accounted fun facts => ofFact facts fact := by
  intro facts facts' h
  have hf : facts'.get? fact = facts.get? fact := h fact (List.mem_singleton_self fact)
  simp only [ofFact, hf]

theorem accounted_ofKnown (names : List String) : Accounted fun facts => ofKnown facts names := by
  intro facts facts' h
  have hall : names.all facts'.isKnown = names.all facts.isKnown := by
    rw [Bool.eq_iff_iff, List.all_eq_true, List.all_eq_true]
    refine forall₂_congr fun fact hf => ?_
    rw [FactSet.isKnown, FactSet.isKnown, h fact hf]
  simp only [ofKnown, hall]

/-- The second part is read only where the first one agrees. -/
theorem Accounted.bind {first : FactSet → Reading α} {next : α → FactSet → Reading β}
    (hfirst : Accounted first) (hnext : ∀ a, Accounted (next a)) :
    Accounted fun facts => first facts >>= fun a => next a facts := by
  intro facts facts' h
  -- Without a result of the first part, the second one is not read at all.
  cases hr : (first facts).result with
  | ok a =>
    simp only [bind_of_ok hr] at h
    have hf : first facts' = first facts :=
      hfirst facts facts' (h.mono fun _ hm => List.mem_append_left _ hm)
    have hn : next a facts' = next a facts :=
      hnext a facts facts' (h.mono fun _ hm => List.mem_append_right _ hm)
    simp only [bind_of_ok hr, hf, hn]
  | error fault =>
    simp only [bind_of_error hr] at h
    have hf : first facts' = first facts := hfirst facts facts' h
    simp only [bind_of_error hr, hf]

theorem kept_accounted : Kept Accounted where
  pure _ := accounted_const _
  bind := Accounted.bind

end Reading

open Reading

theorem Term.accounted_eval (t : Term) : Accounted fun facts => t.eval facts := by
  cases t with
  | fact name => exact accounted_ofFact name
  | int n => exact accounted_const _
  | decimal d => exact accounted_const _
  | scaled name factor => exact (accounted_ofFact name).bind fun _ => accounted_const _

namespace Predicate

theorem accounted_eval (p : Predicate) : Accounted fun facts => p.eval facts := by
  refine kept_accounted.eval fun leaf hleaf => ?_
  cases isLeaf_of_mem_leaves hleaf with
  | compare left c right =>
    exact left.accounted_eval.bind fun _ => right.accounted_eval.bind fun _ => accounted_const _
  | flag fact => exact (accounted_ofFact fact).bind fun _ => accounted_const _
  | known names => exact accounted_ofKnown names
  | notIn fact excluded =>
    exact (accounted_ofFact fact).bind fun _ => (accounted_const _).bind fun _ => accounted_const _

/-! ## What is consulted is mentioned -/

theorem mem_fact?_of_consulted {facts : FactSet} {t : Term} {fact : String}
    (h : fact ∈ (t.eval facts).consulted) : fact ∈ t.fact?.toList := by
  cases t with
  | fact name => exact h
  | int n => exact h
  | decimal d => exact h
  | scaled name factor =>
    rcases mem_consulted_bind h with h | ⟨_, h⟩
    · exact h
    · exact nomatch h

theorem mem_mentionsOf_of_consulted {facts : FactSet} {ps : List Predicate} {fact : String}
    (ih : ∀ p ∈ ps, fact ∈ (p.eval facts).consulted → fact ∈ p.mentions) :
    (fact ∈ (evalAll facts ps).consulted → fact ∈ mentionsOf ps) ∧
      (fact ∈ (evalAny facts ps).consulted → fact ∈ mentionsOf ps) := by
  induction ps with
  | nil => exact ⟨fun h => absurd h List.not_mem_nil, fun h => absurd h List.not_mem_nil⟩
  | cons p rest ihr =>
    have hp := ih p List.mem_cons_self
    have hrest := ihr fun q hq => ih q (List.mem_cons_of_mem _ hq)
    simp only [mentionsOf, List.mem_append]
    constructor
    · intro h
      rcases mem_consulted_bind h with h | ⟨b, h⟩
      · exact Or.inl (hp h)
      · cases b with
        | false => exact nomatch h
        | true => exact Or.inr (hrest.1 h)
    · intro h
      rcases mem_consulted_bind h with h | ⟨b, h⟩
      · exact Or.inl (hp h)
      · cases b with
        | false => exact Or.inr (hrest.2 h)
        | true => exact nomatch h

theorem mem_mentions_of_consulted {facts : FactSet} {p : Predicate} {fact : String}
    (h : fact ∈ (p.eval facts).consulted) : fact ∈ p.mentions := by
  induction p with
  | compare left c right =>
    rcases mem_consulted_bind h with h | ⟨_, h⟩
    · exact List.mem_append_left _ (mem_fact?_of_consulted h)
    · rcases mem_consulted_bind h with h | ⟨_, h⟩
      · exact List.mem_append_right _ (mem_fact?_of_consulted h)
      · exact nomatch h
  | flag name =>
    rcases mem_consulted_bind h with h | ⟨_, h⟩
    · exact h
    · exact nomatch h
  | not operand ih =>
    rcases mem_consulted_bind h with h | ⟨_, h⟩
    · exact ih h
    · exact nomatch h
  | all operands ih => exact (mem_mentionsOf_of_consulted fun p hp => ih p hp).1 h
  | any operands ih => exact (mem_mentionsOf_of_consulted fun p hp => ih p hp).2 h
  | implies premise conclusion ihp ihc =>
    rcases mem_consulted_bind h with h | ⟨b, h⟩
    · exact List.mem_append_left _ (ihp h)
    · cases b with
      | false => exact nomatch h
      | true => exact List.mem_append_right _ (ihc h)
  | known names => exact h
  | notIn name excluded =>
    rcases mem_consulted_bind h with h | ⟨_, h⟩
    · exact h
    · rcases mem_consulted_bind h with h | ⟨_, h⟩
      · exact nomatch h
      · exact nomatch h

end Predicate

/-! ## Verifications -/

@[simp] theorem Clause.outcome_factsUsed (facts : FactSet) (clause : Clause) :
    (clause.outcome facts).factsUsed = (clause.condition.eval facts).factsUsed := by
  unfold Clause.outcome
  dsimp only
  split <;> rfl

theorem Clause.outcome_congr {facts facts' : FactSet} {clause : Clause}
    (h : FactSet.AgreeOn (clause.outcome facts).factsUsed facts facts') :
    clause.outcome facts' = clause.outcome facts := by
  rw [Clause.outcome_factsUsed] at h
  have heval : clause.condition.eval facts' = clause.condition.eval facts :=
    clause.condition.accounted_eval facts facts' (h.mono fun _ hm => Names.mem_distinct.mpr hm)
  simp only [Clause.outcome, heval]

namespace Policy

theorem checkInvariants_congr {policy : Policy} {facts facts' : FactSet}
    (h : ∀ o ∈ policy.checkInvariants facts, FactSet.AgreeOn o.factsUsed facts facts') :
    policy.checkInvariants facts' = policy.checkInvariants facts := by
  refine List.map_congr_left fun clause hc => ?_
  exact Clause.outcome_congr (h _ (List.mem_map_of_mem hc))

theorem choose_congr {policy : Policy} {facts facts' : FactSet}
    (h : ∀ o ∈ (policy.choose facts).guards, FactSet.AgreeOn o.factsUsed facts facts')
    (hdispute : policy.rule = .disputeRouting →
      FactSet.AgreeOn ["duplicate_charge"] facts facts') :
    policy.choose facts' = policy.choose facts := by
  cases hr : policy.rule with
  | firstMatch otherwise =>
    simp only [choose, hr, selectAction] at h ⊢
    rw [selectFirst_congr fun _ _ ho => Clause.outcome_congr (h _ ho)]
  | disputeRouting =>
    have hcharge : facts'.get? "duplicate_charge" = facts.get? "duplicate_charge" :=
      hdispute hr _ (List.mem_singleton_self _)
    simp only [choose, hr, hcharge]
  | approveIfSatisfiable => simp only [choose, hr]

theorem verify_congr {policy : Policy} {facts facts' : FactSet}
    (h : ∀ o ∈ (policy.verify facts).trace ++ (policy.verify facts).guards,
      FactSet.AgreeOn o.factsUsed facts facts')
    (hdispute : policy.rule = .disputeRouting →
      FactSet.AgreeOn ["duplicate_charge"] facts facts') :
    policy.verify facts' = policy.verify facts := by
  have htrace : policy.checkInvariants facts' = policy.checkInvariants facts :=
    checkInvariants_congr fun o ho => h o (List.mem_append_left _ ho)
  by_cases hcore : (violated (policy.checkInvariants facts)).isEmpty
  · have hchoose : policy.choose facts' = policy.choose facts := by
      refine choose_congr (fun o ho => h o (List.mem_append_right _ ?_)) hdispute
      simpa only [verify, hcore, if_true] using ho
    simp only [verify, htrace, hchoose]
  · simp only [verify, htrace, hcore, Bool.false_eq_true, if_false]

end Policy

/-- What an evaluation consulted determines it: over facts that agree on that, it has the same
result, or the same fault, and consults the same facts. No fact is listed twice, and each listed
fact is mentioned by the predicate. A verification is determined by the facts of its trace and its
guards, and by the charge where a dispute is routed. -/
theorem consulted_facts_determine :
    (∀ (p : Predicate) (facts facts' : FactSet),
      FactSet.AgreeOn (p.eval facts).factsUsed facts facts' →
        (p.eval facts').result = (p.eval facts).result ∧
          (p.eval facts').factsUsed = (p.eval facts).factsUsed) ∧
    (∀ (p : Predicate) (facts : FactSet), (p.eval facts).factsUsed.Nodup ∧
      ∀ fact ∈ (p.eval facts).factsUsed, fact ∈ p.facts) ∧
    ∀ (policy : Policy) (facts facts' : FactSet),
      (∀ o ∈ (policy.verify facts).trace ++ (policy.verify facts).guards,
        FactSet.AgreeOn o.factsUsed facts facts') →
      (policy.rule = .disputeRouting → FactSet.AgreeOn ["duplicate_charge"] facts facts') →
      policy.verify facts' = policy.verify facts := by
  refine ⟨fun p facts facts' h => ?_, fun p facts => ⟨Names.nodup_distinct _, ?_⟩, ?_⟩
  · have heval : p.eval facts' = p.eval facts :=
      p.accounted_eval facts facts' (h.mono fun _ hm => Names.mem_distinct.mpr hm)
    rw [heval]
    exact ⟨rfl, rfl⟩
  · intro fact hf
    exact Names.mem_distinct.mpr (Predicate.mem_mentions_of_consulted (Names.mem_distinct.mp hf))
  · exact fun policy facts facts' => Policy.verify_congr

/-- The known facts of a dispute outside the refund window. -/
def lateDispute : FactSet :=
  ⟨[("days_since_transaction", .int 137), ("duplicate_charge", .bool true)]⟩

/-- No guard is reached and no invariant consults the claim date, so it may become known. -/
theorem consulted_facts_determine_lateDispute :
    (∀ o ∈ (Policy.dispute.verify lateDispute).trace ++ (Policy.dispute.verify lateDispute).guards,
        FactSet.AgreeOn o.factsUsed lateDispute (lateDispute.insert "claim_date" (.int 5))) ∧
      FactSet.AgreeOn ["duplicate_charge"] lateDispute (lateDispute.insert "claim_date" (.int 5)) ∧
      Policy.dispute.verify (lateDispute.insert "claim_date" (.int 5)) =
        Policy.dispute.verify lateDispute :=
  ⟨by decide +kernel, by decide +kernel,
    consulted_facts_determine.2.2 _ _ _ (by decide +kernel) fun _ => by decide +kernel⟩

end Verdict
