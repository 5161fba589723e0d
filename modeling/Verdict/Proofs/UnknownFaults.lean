import Verdict.Proofs.DeclaredResult
import Verdict.Proofs.Evaluation
import Verdict.Proofs.FactKinds
import Verdict.Proofs.RoundedProduct

/-!
# Faults are unknown facts

Whether an operation on values has a result depends on the kinds of the values, and that of a product
on the size of its factor. A policy is well kinded if each part of its conditions has operands of
suitable kinds. Over facts of these kinds the only fault is then that a fact is not known. The
policies in force are well kinded, and every record has facts of the kinds of its domain.
-/

namespace Verdict

/-! ## Kinds of operands -/

/-- The kinds of numbers. -/
def Value.Kind.isNumeric : Value.Kind → Bool
  | int => true
  | decimal => true
  | _ => false

/-- The kinds that have a whole number. -/
def Value.Kind.isWhole : Value.Kind → Bool
  | int => true
  | date => true
  | _ => false

/-- Values of the two kinds can be compared in this way. -/
def Comparison.suits (c : Comparison) : Value.Kind → Value.Kind → Bool
  | .bool, .bool => c == .eq || c == .ne
  | .date, .date => true
  | k, k' => k.isNumeric && k'.isNumeric

/-- Without its sign, the decimal is at most one. -/
def Decimal.isShare (d : Decimal) : Bool :=
  d.coefficient ≤ 10 ^ d.scale

theorem Decimal.abs_value_le_one {d : Decimal} (h : d.isShare = true) : |d.value| ≤ 1 := by
  have hle : (d.coefficient : ℚ) ≤ 10 ^ d.scale := by
    exact_mod_cast of_decide_eq_true h
  rw [value, abs_div, abs_of_pos (show (0 : ℚ) < 10 ^ d.scale by positivity), ← Int.cast_abs,
    Int.abs_eq_natAbs, natAbs_signed]
  exact div_le_one_of_le₀ hle (by positivity)

namespace Value

theorem exists_asBool_iff {v : Value} : (∃ b, v.asBool = .ok b) ↔ v.kind = .bool := by
  cases v <;> simp [asBool, kind]

theorem exists_asInt_iff {v : Value} : (∃ n, v.asInt = .ok n) ↔ v.kind.isWhole = true := by
  cases v <;> simp [asInt, kind, Kind.isWhole]

theorem exists_asDecimal_iff {v : Value} :
    (∃ d, v.asDecimal = .ok d) ↔ v.kind.isNumeric = true := by
  cases v <;> simp [asDecimal, kind, Kind.isNumeric]

/-- Two values compare exactly if their kinds do. -/
theorem exists_compare_iff {c : Comparison} {v w : Value} :
    (∃ b, v.compare c w = .ok b) ↔ c.suits v.kind w.kind = true := by
  cases v <;> cases w <;> cases c <;>
    simp [compare, kind, Comparison.suits, Kind.isNumeric, asDecimal, bind, Except.bind]

/-- A number has a product with a factor of at most one. -/
theorem exists_scale {factor : Decimal} (hfactor : factor.isShare = true) {v : Value}
    (hv : v.kind.isNumeric = true) : ∃ product, v.scale factor = .ok (.decimal product) := by
  obtain ⟨base, hbase⟩ := exists_asDecimal_iff.mpr hv
  obtain ⟨product, hproduct, -⟩ :=
    Decimal.exists_mul?_of_abs_le_one base (Decimal.abs_value_le_one hfactor)
  refine ⟨product, ?_⟩
  simp [scale, hbase, hproduct, bind, Except.bind]

end Value

section

variable (kindOf? : String → Option Value.Kind)

/-- The kind of a term, if its operands have suitable kinds. -/
def Term.kind? : Term → Option Value.Kind
  | fact name => kindOf? name
  | int _ => some .int
  | decimal _ => some .decimal
  | scaled name factor =>
    if (kindOf? name).any (·.isNumeric) && factor.isShare then some .decimal else none

/-- A part of a condition has operands of suitable kinds. -/
def Predicate.suits : Predicate → Bool
  | compare left c right =>
    (left.kind? kindOf?).any fun k => (right.kind? kindOf?).any fun k' => c.suits k k'
  | flag fact => (kindOf? fact).any (· == .bool)
  | known _ => true
  | notIn fact _ => (kindOf? fact).any (·.isWhole)
  | _ => false

/-- Every part of the condition has operands of suitable kinds. -/
def Predicate.WellKinded (p : Predicate) : Prop :=
  ∀ leaf ∈ p.leaves, leaf.suits kindOf? = true

/-- Every known fact has a value of its kind. -/
def FactSet.HasKinds (facts : FactSet) : Prop :=
  ∀ fact v, facts.get? fact = some v → kindOf? fact = some v.kind

/-- The fact has a kind and no value. -/
def FactSet.Lacks (facts : FactSet) (fact : String) : Prop :=
  (kindOf? fact).isSome ∧ facts.get? fact = none

/-- A result of the reading has the property. A fault is that one of the consulted facts is not
known. -/
structure Reading.Yields {α : Type} (facts : FactSet) (P : α → Prop) (r : Reading α) : Prop where
  result : ∀ a, r.result = .ok a → P a
  fault : ∀ fault, r.result = .error fault →
    ∃ fact ∈ r.consulted, fault = .unknownFact fact ∧ facts.Lacks kindOf? fact

end

variable {kindOf? : String → Option Value.Kind} {facts : FactSet}

namespace Reading

variable {α β : Type} {P : α → Prop} {Q : β → Prop}

theorem yields_pure {a : α} (h : P a) : Yields kindOf? facts P (pure a) where
  result _ ha := by
    cases ha
    exact h
  fault _ hfault := nomatch hfault

theorem yields_ofExcept {result : Except Fault α} (hok : ∃ a, result = .ok a)
    (h : ∀ a, result = .ok a → P a) : Yields kindOf? facts P (ofExcept result) where
  result := h
  fault fault hfault := by
    obtain ⟨a, ha⟩ := hok
    cases ha.symm.trans hfault

theorem yields_ofFact (hfacts : facts.HasKinds kindOf?) {fact : String} {k : Value.Kind}
    (hk : kindOf? fact = some k) : Yields kindOf? facts (·.kind = k) (ofFact facts fact) where
  result v hv := by
    have hkind := hfacts fact v (get?_of_ofFact hv)
    rw [hk, Option.some.injEq] at hkind
    exact hkind.symm
  fault fault hfault := by
    refine ⟨fact, List.mem_singleton_self fact, ?_⟩
    rw [ofFact] at hfault
    cases hvalue : facts.get? fact with
    | some v => simp [hvalue] at hfault
    | none =>
      rw [hvalue] at hfault
      cases hfault
      exact ⟨rfl, by rw [hk, Option.isSome_some], hvalue⟩

theorem Yields.bind {first : Reading α} {next : α → Reading β} (h : first.Yields kindOf? facts P)
    (hnext : ∀ a, P a → (next a).Yields kindOf? facts Q) :
    (first >>= next).Yields kindOf? facts Q := by
  cases hr : first.result with
  | error fault =>
    obtain ⟨fact, hfact, hfault⟩ := h.fault fault hr
    rw [bind_of_error hr]
    constructor
    · intro b hb
      cases hb
    · intro fault' hfault'
      cases hfault'
      exact ⟨fact, hfact, hfault⟩
  | ok a =>
    have ha := hnext a (h.result a hr)
    rw [bind_of_ok hr]
    refine ⟨ha.result, fun fault hfault => ?_⟩
    obtain ⟨fact, hfact, hlacks⟩ := ha.fault fault hfault
    exact ⟨fact, List.mem_append_right _ hfact, hlacks⟩

theorem kept_yields : Kept fun r => (r facts).Yields kindOf? facts fun _ => True where
  pure _ := yields_pure trivial
  bind h hnext := h.bind fun b _ => hnext b

end Reading

open Reading

/-! ## Soundness -/

theorem Term.yields_eval (hfacts : facts.HasKinds kindOf?) {t : Term} {k : Value.Kind}
    (h : t.kind? kindOf? = some k) : (t.eval facts).Yields kindOf? facts (·.kind = k) := by
  cases t with
  | fact name => exact yields_ofFact hfacts h
  | int n =>
    cases h
    exact yields_pure rfl
  | decimal d =>
    cases h
    exact yields_pure rfl
  | scaled name factor =>
    rw [kind?] at h
    split at h
    · rename_i hsuits
      cases h
      obtain ⟨hname, hfactor⟩ := Bool.and_eq_true_iff.mp hsuits
      obtain ⟨kname, hkname, hnumeric⟩ := (Option.any_eq_true _ _).mp hname
      refine (yields_ofFact hfacts hkname).bind fun v hv => ?_
      obtain ⟨product, hproduct⟩ := Value.exists_scale hfactor (hv ▸ hnumeric)
      refine yields_ofExcept ⟨_, hproduct⟩ fun w hw => ?_
      cases hproduct.symm.trans hw
      rfl
    · cases h

namespace Predicate

theorem yields_leaf (hfacts : facts.HasKinds kindOf?) {leaf : Predicate} (hleaf : leaf.IsLeaf)
    (h : leaf.suits kindOf? = true) : (leaf.eval facts).Yields kindOf? facts fun _ => True := by
  cases hleaf with
  | compare left c right =>
    obtain ⟨k, hk, h⟩ := (Option.any_eq_true _ _).mp h
    obtain ⟨k', hk', hsuits⟩ := (Option.any_eq_true _ _).mp h
    refine (Term.yields_eval hfacts hk).bind fun v hv => ?_
    refine (Term.yields_eval hfacts hk').bind fun w hw => ?_
    exact yields_ofExcept (Value.exists_compare_iff.mpr (hv ▸ hw ▸ hsuits)) fun _ _ => trivial
  | flag fact =>
    obtain ⟨k, hk, hbool⟩ := (Option.any_eq_true _ _).mp h
    refine (yields_ofFact hfacts hk).bind fun v hv => ?_
    exact yields_ofExcept (Value.exists_asBool_iff.mpr (hv ▸ beq_iff_eq.mp hbool)) fun _ _ => trivial
  | known names => exact ⟨fun _ _ => trivial, fun _ hfault => nomatch hfault⟩
  | notIn fact excluded =>
    obtain ⟨k, hk, hwhole⟩ := (Option.any_eq_true _ _).mp h
    refine (yields_ofFact hfacts hk).bind fun v hv => ?_
    refine (yields_ofExcept (P := fun _ => True) (Value.exists_asInt_iff.mpr (hv ▸ hwhole))
      fun _ _ => trivial).bind fun n _ => ?_
    exact yields_pure trivial

/-- Over facts of suitable kinds a well-kinded condition faults only because a fact is not known. -/
theorem WellKinded.yields_eval {p : Predicate} (hp : p.WellKinded kindOf?)
    (hfacts : facts.HasKinds kindOf?) : (p.eval facts).Yields kindOf? facts fun _ => True :=
  kept_yields.eval fun leaf hleaf =>
    yields_leaf hfacts (isLeaf_of_mem_leaves hleaf) (hp leaf hleaf)

end Predicate

/-! ## Outcomes -/

namespace Policy

variable {policy : Policy} {o : Outcome}

/-- The outcome is that of an invariant or of a guard. -/
def HasOutcome (policy : Policy) (facts : FactSet) (o : Outcome) : Prop :=
  ∃ clause ∈ policy.invariants ++ policy.actions, clause.outcome facts = o

theorem exists_of_mem_selectFirst {actions : List Clause} (h : o ∈ (selectFirst facts actions).2) :
    ∃ action ∈ actions, action.outcome facts = o := by
  induction actions with
  | nil => exact absurd h List.not_mem_nil
  | cons action rest ih =>
    simp only [selectFirst] at h
    split at h
    · exact ⟨action, List.mem_cons_self, (List.mem_singleton.mp h).symm⟩
    · rcases List.mem_cons.mp h with rfl | h
      · exact ⟨action, List.mem_cons_self, rfl⟩
      · obtain ⟨other, hother, ho⟩ := ih h
        exact ⟨other, List.mem_cons_of_mem _ hother, ho⟩

theorem hasOutcome_of_mem_trace (h : o ∈ policy.checkInvariants facts) :
    policy.HasOutcome facts o := by
  obtain ⟨invariant, hinvariant, ho⟩ := List.mem_map.mp h
  exact ⟨invariant, List.mem_append_left _ hinvariant, ho⟩

theorem hasOutcome_of_mem_choose (h : o ∈ (policy.choose facts).guards) :
    policy.HasOutcome facts o := by
  unfold choose at h
  split at h
  · obtain ⟨action, haction, ho⟩ := exists_of_mem_selectFirst h
    exact ⟨action, List.mem_append_right _ haction, ho⟩
  · split at h <;> exact absurd h List.not_mem_nil
  · exact absurd h List.not_mem_nil

theorem hasOutcome_of_mem_verify
    (h : o ∈ (policy.verify facts).trace ++ (policy.verify facts).guards) :
    policy.HasOutcome facts o := by
  rcases List.mem_append.mp h with h | h
  · exact hasOutcome_of_mem_trace h
  · simp only [verify] at h
    split at h
    · exact hasOutcome_of_mem_choose h
    · exact absurd h List.not_mem_nil

theorem hasOutcome_of_mem_checkAction {action : String}
    (h : o ∈ (policy.checkAction facts action).1) : policy.HasOutcome facts o := by
  unfold checkAction at h
  split at h
  · rename_i clause hclause
    exact ⟨clause, List.mem_append_right _ (List.mem_of_find?_eq_some hclause),
      (List.mem_singleton.mp h).symm⟩
  · exact absurd h List.not_mem_nil

/-- The conditions of all invariants and guards are well kinded. -/
def WellKinded (kindOf? : String → Option Value.Kind) (policy : Policy) : Prop :=
  ∀ clause ∈ policy.invariants ++ policy.actions, clause.condition.WellKinded kindOf?

/-- The only fault of a well-kinded policy is a fact that was consulted and is not known. -/
theorem WellKinded.fault_eq (hpolicy : policy.WellKinded kindOf?)
    (hfacts : facts.HasKinds kindOf?) (ho : policy.HasOutcome facts o) {fault : Fault}
    (h : o.fault = some fault) :
    ∃ fact ∈ o.factsUsed, fault = .unknownFact fact ∧ facts.Lacks kindOf? fact := by
  obtain ⟨clause, hclause, rfl⟩ := ho
  have houtcome : clause.HasOutcome facts (clause.outcome facts) := clause.hasOutcome_outcome
  have hyields := (hpolicy clause hclause).yields_eval hfacts
  obtain ⟨fact, hfact, hfault⟩ := hyields.fault fault ((houtcome.fault fault).mp h)
  refine ⟨fact, ?_, hfault⟩
  rw [houtcome.factsUsed]
  exact Names.mem_distinct.mpr hfact

end Policy

theorem Domain.wellKinded_policy (d : Domain) : d.policy.WellKinded d.kindOf? := by
  cases d <;> unfold Policy.WellKinded Predicate.WellKinded <;> decide

namespace FactRecord

theorem hasKinds (r : FactRecord) : r.known.HasKinds r.domain.kindOf? :=
  fun _ _ => kindOf?_of_get?

theorem hasOutcome_of_mem_checkProposal {r : FactRecord} {action : String} {o : Outcome}
    (h : o ∈ (r.checkProposal action).trace ++ (r.checkProposal action).guards) :
    r.domain.policy.HasOutcome r.known o :=
  (List.mem_append.mp h).elim Policy.hasOutcome_of_mem_trace Policy.hasOutcome_of_mem_checkAction

end FactRecord

/-- Whatever is known of a record, a clause that faults does so because of a fact of the record that
it consulted and that is not known. No operand is of a wrong kind and no product overflows, as the
share of an income is a decimal for every income. -/
theorem fault_eq_unknownFact (r : FactRecord) (action : String) :
    (∀ o ∈ (r.verify.trace ++ r.verify.guards) ++
        ((r.checkProposal action).trace ++ (r.checkProposal action).guards), ∀ fault ∈ o.fault,
      ∃ fact ∈ o.factsUsed, fault = .unknownFact fact ∧
        fault.message = "unknown fact: " ++ fact ∧ r.fields.lookup fact = some none) ∧
      ∀ income : Decimal, ∃ share,
        (Value.decimal income).scale Policy.incomeShare = .ok (.decimal share) := by
  refine ⟨fun o ho fault hfault => ?_, fun income => Value.exists_scale (by decide) rfl⟩
  have houtcome : r.domain.policy.HasOutcome r.known o :=
    (List.mem_append.mp ho).elim Policy.hasOutcome_of_mem_verify
      FactRecord.hasOutcome_of_mem_checkProposal
  obtain ⟨fact, hfact, rfl, hkind, hunknown⟩ :=
    r.domain.wellKinded_policy.fault_eq r.hasKinds houtcome hfault
  obtain ⟨kind, hkind⟩ := Option.isSome_iff_exists.mp hkind
  exact ⟨fact, hfact, rfl, rfl, FactRecord.lookup_of_get?_eq_none hkind hunknown⟩

/-- A payment of which the amount is known and nothing else. -/
def unratedPayment : AuthorizationFacts where
  amount := some (.ofInt 120)
  availableBalance := none
  creditLimit := none
  riskScore := none
  merchantCategoryCode := none
  cardNotPresent := none
  velocity := none

theorem fault_eq_unknownFact_unratedPayment :
    ((FactRecord.authorization unratedPayment).checkProposal "approve_no_otp").guards =
        [⟨"approve_no_otp", false, ["amount", "available_balance"],
          some (.unknownFact "available_balance")⟩] ∧
      ∃ fact ∈ ["amount", "available_balance"],
        Fault.unknownFact "available_balance" = .unknownFact fact ∧
          (FactRecord.authorization unratedPayment).fields.lookup fact = some none := by
  have hguards : ((FactRecord.authorization unratedPayment).checkProposal "approve_no_otp").guards =
      [⟨"approve_no_otp", false, ["amount", "available_balance"],
        some (.unknownFact "available_balance")⟩] := by
    decide +kernel
  refine ⟨hguards, ?_⟩
  obtain ⟨fact, hfact, hfault, -, hlookup⟩ :=
    (fault_eq_unknownFact (.authorization unratedPayment) "approve_no_otp").1 _
      (List.mem_append_right _ (List.mem_append_right _ (hguards ▸ List.mem_singleton_self _))) _ rfl
  exact ⟨fact, hfact, hfault, hlookup⟩

end Verdict
