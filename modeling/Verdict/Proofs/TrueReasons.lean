import Verdict.Proofs.Acceptance
import Verdict.Proofs.Evaluation
import Verdict.Report.Reason

/-!
# Reasons state what is true

A reason is asked for with a truth value that the predicate has, unless it faults. Every statement
of the reason is then true of the facts. The truth value is handed down the tree, and so is the
proof: an operand is explained only where it has the value that is handed to it, or faults. So a
property of statements is shown at the leaves and at faults only.
-/

namespace Verdict

/-! ## Statements that are true of facts -/

/-- The predicates that stand in a predicate, itself included. -/
inductive Predicate.Part (whole : Predicate) : Predicate → Prop where
  | whole : Part whole whole
  | negated {operand : Predicate} (h : Part whole (.not operand)) : Part whole operand
  | conjunct {operands : List Predicate} {operand : Predicate} (h : Part whole (.all operands))
      (hmem : operand ∈ operands) : Part whole operand
  | disjunct {operands : List Predicate} {operand : Predicate} (h : Part whole (.any operands))
      (hmem : operand ∈ operands) : Part whole operand
  | premise {premise conclusion : Predicate} (h : Part whole (.implies premise conclusion)) :
      Part whole premise
  | conclusion {premise conclusion : Predicate} (h : Part whole (.implies premise conclusion)) :
      Part whole conclusion

/-- The value that is quoted is the one that the term has. -/
def Quote.Gives (facts : FactSet) (q : Quote) (v : Value) : Prop :=
  q.value = some v ∧ (q.term.eval facts).result = .ok v

/-- Every statement of a reason has the property. -/
def Reason.Every (S : ReasonClause → Prop) (r : Reason) : Prop :=
  ∀ clause ∈ r.clauses, S clause

/-- The predicate has the truth value, or it faults. -/
def Predicate.MayBe (facts : FactSet) (p : Predicate) (wanted : Bool) : Prop :=
  (p.eval facts).result = .ok wanted ∨ ∃ fault, (p.eval facts).result = .error fault

namespace Reason

variable {S : ReasonClause → Prop} {clause : ReasonClause} {parts : List Reason}

theorem clausesOf_eq_flatMap (parts : List Reason) :
    clausesOf parts = parts.flatMap Reason.clauses := by
  induction parts with
  | nil => rfl
  | cons r rest ih => rw [clausesOf, List.flatMap_cons, ih]

theorem mem_clausesOf : clause ∈ clausesOf parts ↔ ∃ part ∈ parts, clause ∈ part.clauses := by
  rw [clausesOf_eq_flatMap, List.mem_flatMap]

theorem every_clause : (Reason.clause clause).Every S ↔ S clause := by
  simp [Every, clauses]

theorem every_listed : (listed parts).Every S ↔ ∀ part ∈ parts, part.Every S := by
  simp only [Every, clauses, mem_clausesOf]
  constructor
  · intro h part hpart clause hclause
    exact h clause ⟨part, hpart, hclause⟩
  · rintro h clause ⟨part, hpart, hclause⟩
    exact h part hpart clause hclause

theorem every_joined : (joined parts).Every S ↔ ∀ part ∈ parts, part.Every S :=
  every_listed

end Reason

namespace Predicate

variable {facts : FactSet} {whole p : Predicate} {ps : List Predicate}

theorem faultReasons_eq_map (ps : List Predicate) :
    faultReasons facts ps = (ps.filter fun p => p.faults facts).map fun p => p.faultReason facts := by
  induction ps with
  | nil => rw [faultReasons, List.filter_nil, List.map_nil]
  | cons p rest ih =>
    rw [faultReasons, List.filter_cons]
    split
    · rw [List.map_cons, ih]
    · exact ih

theorem reasons_eq_map (ps : List Predicate) (every wanted : Bool) :
    reasons facts ps every wanted =
      (ps.filter fun p => every || p.holds facts == wanted).map fun p => p.reason facts wanted := by
  induction ps with
  | nil => rw [reasons, List.filter_nil, List.map_nil]
  | cons p rest ih =>
    rw [reasons, List.filter_cons]
    split
    · rw [List.map_cons, ih]
    · exact ih

theorem premiseReasons_eq_map (ps : List Predicate) :
    premiseReasons facts ps =
      (ps.filter fun p => !p.isKnownTest).map fun p => p.reason facts true := by
  induction ps with
  | nil => rw [premiseReasons, List.filter_nil, List.map_nil]
  | cons p rest ih =>
    rw [premiseReasons, List.filter_cons]
    cases p.isKnownTest with
    | true => exact ih
    | false => exact congrArg (p.reason facts true :: ·) ih

/-! ## Faults -/

theorem faults_iff : p.faults facts = true ↔ ∃ fault, (p.eval facts).result = .error fault := by
  rw [faults]
  cases (p.eval facts).result with
  | ok b => simp
  | error fault => simp

/-- The property is one of every statement by which a part of the predicate may be explained: that
facts are unknown, its fault, or, if it is not put together of others, the value that it has. -/
structure Stated (facts : FactSet) (whole : Predicate) (S : ReasonClause → Prop) : Prop where
  unknown : ∀ {p : Predicate}, whole.Part p → p.unknownFacts facts ≠ [] →
    S (.unknown (p.unknownFacts facts))
  fault : ∀ {p : Predicate} {f : Fault}, whole.Part p → (p.eval facts).result = .error f →
    S (.fault f)
  comparison : ∀ {left right : Term} {c : Comparison} {wanted : Bool},
    whole.Part (compare left c right) → ((compare left c right).eval facts).result = .ok wanted →
      S (.comparison (left.quote facts) (if wanted then c else c.negate) (right.quote facts))
  flag : ∀ {fact : String} {wanted : Bool}, whole.Part (flag fact) →
    ((Predicate.flag fact).eval facts).result = .ok wanted → S (.flag fact wanted)
  known : ∀ {names : List String} {wanted : Bool}, whole.Part (known names) →
    (Predicate.known names).MayBe facts wanted →
      S (if wanted then .known names else .unknown (names.filter fun fact => !facts.isKnown fact))
  notIn : ∀ {fact : String} {excluded : List Int64} {wanted : Bool},
    whole.Part (notIn fact excluded) →
      ((Predicate.notIn fact excluded).eval facts).result = .ok wanted →
      S (if wanted then .allowed ((Term.fact fact).quote facts)
        else .blocked ((Term.fact fact).quote facts))

namespace Stated

variable {S : ReasonClause → Prop} (hS : whole.Stated facts S)
include hS

/-- Where no fact is unknown the fault itself is stated. -/
theorem every_faultOr (hpart : whole.Part p) {other : List String → Reason}
    (hother : p.unknownFacts facts ≠ [] → (other (p.unknownFacts facts)).Every S) :
    (faultOr facts p other).Every S := by
  unfold faultOr
  split
  · split
    · exact Reason.every_clause.mpr (hS.fault hpart (by assumption))
    · exact Reason.every_listed.mpr fun _ hmem => nomatch hmem
  · exact hother (by assumption)

omit hS in
/-- Why operands fault that do, if each reason is right. -/
theorem every_faultReasons (h : ∀ p ∈ ps, (p.faultReason facts).Every S) :
    (Reason.joined (faultReasons facts ps)).Every S := by
  rw [Reason.every_joined, faultReasons_eq_map]
  intro r hr
  obtain ⟨p, hp, rfl⟩ := List.mem_map.mp hr
  exact h p (List.mem_filter.mp hp).1

theorem every_faultReason (hpart : whole.Part p) : (p.faultReason facts).Every S := by
  induction p with
  | all operands ih =>
    rw [faultReason]
    refine hS.every_faultOr hpart fun _ => ?_
    exact every_faultReasons fun p hp => ih p hp (hpart.conjunct hp)
  | any operands ih =>
    rw [faultReason]
    refine hS.every_faultOr hpart fun _ => ?_
    exact every_faultReasons fun p hp => ih p hp (hpart.disjunct hp)
  | _ =>
    rw [faultReason]
    · exact hS.every_faultOr hpart fun hsome => Reason.every_clause.mpr (hS.unknown hpart hsome)
    all_goals simp

/-- A predicate that faults is explained by its fault, another one by the given reason. -/
theorem every_orFault (hpart : whole.Part p) {wanted : Bool} (h : p.MayBe facts wanted) {r : Reason}
    (hr : (p.eval facts).result = .ok wanted → r.Every S) : (orFault facts p r).Every S := by
  unfold orFault
  split
  · exact hS.every_faultReason hpart
  · rename_i hfaults
    rw [faults_iff] at hfaults
    exact hr (h.resolve_right hfaults)

end Stated

/-! ## Truth values -/

theorem eval_of_not {operand : Predicate} {wanted : Bool}
    (h : (operand.not.eval facts).result = .ok wanted) :
    (operand.eval facts).result = .ok !wanted := by
  rw [eval, Reading.result_bind_eq_ok] at h
  obtain ⟨b, hb, hnot⟩ := h
  cases hnot
  rw [hb, Bool.not_not]

/-- What does not hold fails or faults. -/
theorem mayBe_of_holds {wanted : Bool} (h : p.holds facts = wanted) : p.MayBe facts wanted := by
  rw [holds] at h
  cases hresult : (p.eval facts).result with
  | ok b =>
    rw [hresult] at h
    exact Or.inl (hresult.trans (congrArg _ h))
  | error fault => exact Or.inr ⟨fault, hresult⟩

/-- The reasons of operands are right if the operands may have the wanted value. -/
theorem every_reasons {S : ReasonClause → Prop} {every wanted : Bool}
    (hreason : ∀ p ∈ ps, p.MayBe facts wanted → (p.reason facts wanted).Every S)
    (hevery : every = true → ∀ p ∈ ps, (p.eval facts).result = .ok wanted) :
    (Reason.listed (reasons facts ps every wanted)).Every S := by
  rw [Reason.every_listed, reasons_eq_map]
  intro r hr
  obtain ⟨p, hp, rfl⟩ := List.mem_map.mp hr
  obtain ⟨hp, hexplained⟩ := List.mem_filter.mp hp
  refine hreason p hp ?_
  rw [Bool.or_eq_true, beq_iff_eq] at hexplained
  cases hexplained with
  | inl h => exact Or.inl (hevery h p hp)
  | inr h => exact mayBe_of_holds h

theorem implies_eq_ok {premise conclusion : Predicate} {b : Bool} :
    ((implies premise conclusion).eval facts).result = .ok b ↔
      ((premise.eval facts).result = .ok true ∧ (conclusion.eval facts).result = .ok b) ∨
        ((premise.eval facts).result = .ok false ∧ b = true) := by
  rw [eval, Reading.result_bind_eq_ok]
  constructor
  · rintro ⟨held, hpremise, h⟩
    cases held with
    | true => exact Or.inl ⟨hpremise, h⟩
    | false =>
      cases h
      exact Or.inr ⟨hpremise, rfl⟩
  · rintro (⟨hpremise, hconclusion⟩ | ⟨hpremise, rfl⟩)
    · exact ⟨true, hpremise, hconclusion⟩
    · exact ⟨false, hpremise, rfl⟩

theorem reason_implies_true (premise conclusion : Predicate) :
    (implies premise conclusion).reason facts true =
      orFault facts (implies premise conclusion)
        (if premise.holds facts then conclusion.reason facts true
          else premise.reason facts false) := by
  cases premise <;> simp [reason]

/-- What is said of the operands of a premise that holds is said of the premise as well. -/
theorem mem_clauses_of_premiseReasons {operands : List Predicate} {clause : ReasonClause}
    (hok : ((all operands).eval facts).result = .ok true)
    (hclause : clause ∈ Reason.clausesOf (premiseReasons facts operands)) :
    clause ∈ ((all operands).reason facts true).clauses := by
  have hfaults : ¬(all operands).faults facts = true := by
    rw [faults_iff, hok]
    rintro ⟨fault, hfault⟩
    cases hfault
  obtain ⟨r, hr, hclause⟩ := Reason.mem_clausesOf.mp hclause
  rw [premiseReasons_eq_map] at hr
  obtain ⟨p, hp, rfl⟩ := List.mem_map.mp hr
  -- An inclusion only: the operands that ask for known facts are not repeated.
  rw [reason, orFault, if_neg hfaults, Reason.clauses, Reason.mem_clausesOf, reasons_eq_map]
  refine ⟨p.reason facts true, List.mem_map.mpr ⟨p, ?_, rfl⟩, hclause⟩
  exact List.mem_filter.mpr ⟨(List.mem_filter.mp hp).1, rfl⟩

/-- Where an implication fails, the conclusion is explained, and before it the premise as far as
need be. -/
theorem exists_reason_implies_false (facts : FactSet) (premise conclusion : Predicate) :
    ∃ r before, (implies premise conclusion).reason facts false =
        orFault facts (implies premise conclusion) r ∧
      r.clauses = before ++ (conclusion.reason facts false).clauses ∧
      ((premise.eval facts).result = .ok true →
        ∀ clause ∈ before, clause ∈ (premise.reason facts true).clauses) := by
  cases hpremise : premise with
  | known names =>
    exact ⟨conclusion.reason facts false, [], by rw [reason]; rfl, rfl, fun _ _ h => nomatch h⟩
  | all operands =>
    refine ⟨.joined [.listed (premiseReasons facts operands), conclusion.reason facts false],
      Reason.clausesOf (premiseReasons facts operands), by rw [reason]; rfl, ?_, ?_⟩
    · simp [Reason.clauses, Reason.clausesOf]
    · exact fun hok _ => mem_clauses_of_premiseReasons hok
  | _ =>
    rw [← hpremise]
    refine ⟨.joined [premise.reason facts true, conclusion.reason facts false],
      (premise.reason facts true).clauses, ?_, ?_, fun _ _ h => h⟩
    · rw [reason] <;> simp [hpremise]
    · simp [Reason.clauses, Reason.clausesOf]

/-- An implication is explained by one of its two sides with the value that this side has, and
before it by statements on a premise that holds. -/
theorem exists_reason_implies (facts : FactSet) (premise conclusion : Predicate) (wanted : Bool) :
    ∃ r, (implies premise conclusion).reason facts wanted =
        orFault facts (implies premise conclusion) r ∧
      (((implies premise conclusion).eval facts).result = .ok wanted →
        ∃ before side b, (side = premise ∨ side = conclusion) ∧ (side.eval facts).result = .ok b ∧
          r.clauses = before ++ (side.reason facts b).clauses ∧
          ∀ clause ∈ before, (premise.eval facts).result = .ok true ∧
            clause ∈ (premise.reason facts true).clauses) := by
  cases wanted with
  | true =>
    refine ⟨_, reason_implies_true premise conclusion, fun hok => ?_⟩
    rcases implies_eq_ok.mp hok with ⟨hholds, hconclusion⟩ | ⟨hfails, -⟩
    · refine ⟨[], conclusion, true, Or.inr rfl, hconclusion, ?_, fun _ h => nomatch h⟩
      rw [if_pos (holds_iff.mpr hholds), List.nil_append]
    · have hfalse : premise.holds facts = false := by simp [holds, hfails]
      refine ⟨[], premise, false, Or.inl rfl, hfails, ?_, fun _ h => nomatch h⟩
      rw [hfalse, List.nil_append]
      rfl
  | false =>
    obtain ⟨r, before, hreason, hclauses, hbefore⟩ :=
      exists_reason_implies_false facts premise conclusion
    refine ⟨r, hreason, fun hok => ?_⟩
    rcases implies_eq_ok.mp hok with ⟨hholds, hfails⟩ | ⟨-, hfalse⟩
    · exact ⟨before, conclusion, false, Or.inr rfl, hfails, hclauses, fun clause hclause =>
        ⟨hholds, hbefore hholds clause hclause⟩⟩
    · cases hfalse

namespace Stated

variable {S : ReasonClause → Prop} (hS : whole.Stated facts S)
include hS

theorem every_implies {premise conclusion : Predicate}
    (hpart : whole.Part (implies premise conclusion)) {wanted : Bool}
    (h : (implies premise conclusion).MayBe facts wanted)
    (hpremise : ∀ b, premise.MayBe facts b → (premise.reason facts b).Every S)
    (hconclusion : ∀ b, conclusion.MayBe facts b → (conclusion.reason facts b).Every S) :
    ((implies premise conclusion).reason facts wanted).Every S := by
  obtain ⟨r, hreason, hsides⟩ := exists_reason_implies facts premise conclusion wanted
  rw [hreason]
  refine hS.every_orFault hpart h fun hok clause hclause => ?_
  obtain ⟨before, side, b, hside, hvalue, hclauses, hbefore⟩ := hsides hok
  rw [hclauses] at hclause
  rcases List.mem_append.mp hclause with hclause | hclause
  · obtain ⟨hholds, hclause⟩ := hbefore clause hclause
    exact hpremise true (Or.inl hholds) clause hclause
  · rcases hside with rfl | rfl
    · exact hpremise b (Or.inl hvalue) clause hclause
    · exact hconclusion b (Or.inl hvalue) clause hclause

/-- What is shown of the parts holds of the whole reason. -/
theorem every_reason (hpart : whole.Part p) {wanted : Bool} (h : p.MayBe facts wanted) :
    (p.reason facts wanted).Every S := by
  -- The wanted value varies on the way down: a negation asks its operand for the opposite one.
  induction p generalizing wanted with
  | compare left c right =>
    rw [reason]
    refine hS.every_orFault hpart h fun hok => ?_
    exact Reason.every_clause.mpr (hS.comparison hpart hok)
  | flag fact =>
    rw [reason]
    refine hS.every_orFault hpart h fun hok => ?_
    exact Reason.every_clause.mpr (hS.flag hpart hok)
  | not operand ih =>
    rw [reason]
    refine hS.every_orFault hpart h fun hok => ?_
    exact ih hpart.negated (Or.inl (eval_of_not hok))
  | all operands ih =>
    rw [reason]
    refine hS.every_orFault hpart h fun hok => ?_
    refine every_reasons (fun p hp => ih p hp (hpart.conjunct hp)) ?_
    rintro rfl
    exact evalAll_eq_true.mp hok
  | any operands ih =>
    rw [reason]
    refine hS.every_orFault hpart h fun hok => ?_
    refine every_reasons (fun p hp => ih p hp (hpart.disjunct hp)) ?_
    -- All operands of a disjunction are explained only where it fails.
    intro hfails
    rw [Bool.not_eq_true'] at hfails
    subst hfails
    exact evalAny_eq_false.mp hok
  | implies premise conclusion ihpremise ihconclusion =>
    exact hS.every_implies hpart h (fun _ => ihpremise hpart.premise)
      (fun _ => ihconclusion hpart.conclusion)
  | known names =>
    rw [reason]
    exact Reason.every_clause.mpr (hS.known hpart h)
  | notIn fact excluded =>
    rw [reason]
    refine hS.every_orFault hpart h fun hok => ?_
    exact Reason.every_clause.mpr (hS.notIn hpart hok)

end Stated

end Predicate

end Verdict
