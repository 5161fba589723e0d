import Verdict.Proofs.Evaluation
import Verdict.Proofs.ValueOrder

/-!
# Negation normal form

A negation can be moved inwards: through a negation, through an implication, and through a
conjunction or a disjunction, which turns into the other one. At a comparison it is taken up by the
opposite comparison. The result is read like the condition it comes from: it has the same truth
value or both fault, and the same facts are consulted in the same order, since each operand still
stands where it stood and the evaluation still ends at the same one.
-/

namespace Verdict

namespace Predicate

/-! ## The normal form -/

/-- The connective that ends at the first operand with the given truth value. -/
def join (stop : Bool) (operands : List Predicate) : Predicate :=
  if stop then any operands else all operands

/-- The condition or its negation. -/
def signed (negated : Bool) (p : Predicate) : Predicate :=
  if negated then not p else p

mutual

/-- The condition or its negation, with every negation moved inwards. -/
def pushed (negated : Bool) : Predicate → Predicate
  | compare left c right => compare left (if negated then c.negate else c) right
  | flag fact => signed negated (flag fact)
  | not operand => operand.pushed (!negated)
  | all operands => join negated (pushedAll negated operands)
  | any operands => join (!negated) (pushedAll negated operands)
  | implies premise conclusion =>
    join (!negated) [premise.pushed (!negated), conclusion.pushed negated]
  | known facts => signed negated (known facts)
  | notIn fact excluded => signed negated (notIn fact excluded)

/-- Several conditions or their negations, with every negation moved inwards. -/
def pushedAll (negated : Bool) : List Predicate → List Predicate
  | [] => []
  | p :: rest => p.pushed negated :: pushedAll negated rest

end

/-- The negation normal form. -/
def nnf (p : Predicate) : Predicate :=
  p.pushed false

@[simp] theorem pushedAll_eq_map (negated : Bool) (ps : List Predicate) :
    pushedAll negated ps = ps.map (pushed negated) := by
  induction ps with
  | nil => rfl
  | cons p rest ih => rw [pushedAll, ih, List.map_cons]

@[simp] theorem nnf_not_not (p : Predicate) : (not (not p)).nnf = p.nnf := rfl

@[simp] theorem nnf_not_all (ps : List Predicate) :
    (not (all ps)).nnf = any (ps.map fun p => (not p).nnf) :=
  congrArg any (pushedAll_eq_map true ps)

@[simp] theorem nnf_not_any (ps : List Predicate) :
    (not (any ps)).nnf = all (ps.map fun p => (not p).nnf) :=
  congrArg all (pushedAll_eq_map true ps)

@[simp] theorem nnf_implies (premise conclusion : Predicate) :
    (implies premise conclusion).nnf = any [(not premise).nnf, conclusion.nnf] := rfl

@[simp] theorem nnf_not_compare (left : Term) (c : Comparison) (right : Term) :
    (not (compare left c right)).nnf = compare left c.negate right := rfl

example (left right : Term) :
    (not (implies (flag "active") (all [compare left .ge right, not (flag "barred")]))).nnf =
      all [flag "active", any [compare left .lt right, flag "barred"]] := rfl

/-- Negations stand only at leaves that are no comparisons, and there are no implications. -/
inductive IsNegationNormal : Predicate → Prop where
  | leaf {p : Predicate} (h : p.IsLeaf) : IsNegationNormal p
  | not {p : Predicate} (h : p.IsLeaf) (hne : ∀ left c right, p ≠ .compare left c right) :
    IsNegationNormal (.not p)
  | all {ps : List Predicate} (h : ∀ p ∈ ps, IsNegationNormal p) : IsNegationNormal (.all ps)
  | any {ps : List Predicate} (h : ∀ p ∈ ps, IsNegationNormal p) : IsNegationNormal (.any ps)

theorem isNegationNormal_join {stop : Bool} {ps : List Predicate}
    (h : ∀ p ∈ ps, p.IsNegationNormal) : (join stop ps).IsNegationNormal := by
  cases stop with
  | false => exact .all h
  | true => exact .any h

theorem isNegationNormal_signed {p : Predicate} (h : p.IsLeaf)
    (hne : ∀ left c right, p ≠ .compare left c right) (negated : Bool) :
    (p.signed negated).IsNegationNormal := by
  cases negated with
  | false => exact .leaf h
  | true => exact .not h hne

theorem isNegationNormal_pushed (p : Predicate) (negated : Bool) :
    (p.pushed negated).IsNegationNormal := by
  induction p generalizing negated with
  | compare left c right => exact .leaf (.compare left _ right)
  | flag fact => exact isNegationNormal_signed (.flag fact) (by simp) negated
  | not operand ih => exact ih !negated
  | all ps ih | any ps ih =>
    rw [pushed, pushedAll_eq_map]
    refine isNegationNormal_join fun q hq => ?_
    obtain ⟨p, hp, rfl⟩ := List.mem_map.mp hq
    exact ih p hp negated
  | implies premise conclusion ihp ihc =>
    refine isNegationNormal_join fun q hq => ?_
    simp only [List.mem_cons, List.not_mem_nil, or_false] at hq
    rcases hq with rfl | rfl
    · exact ihp !negated
    · exact ihc negated
  | known names => exact isNegationNormal_signed (.known names) (by simp) negated
  | notIn fact excluded => exact isNegationNormal_signed (.notIn fact excluded) (by simp) negated

end Predicate

/-! ## Readings with opposite results -/

namespace Reading

instance : LawfulMonad Reading := by
  refine LawfulMonad.mk' Reading ?_ ?_ ?_
  · rintro α ⟨result, consulted⟩
    cases result with
    | ok a => exact congrArg (Reading.mk (.ok a)) (List.append_nil consulted)
    | error fault => rfl
  · intro α β a next
    exact bind_of_ok rfl next
  · rintro α β γ ⟨result, consulted⟩ next last
    cases result with
    | error fault => rfl
    | ok a =>
      have hfirst : (⟨.ok a, consulted⟩ : Reading α).result = .ok a := rfl
      rw [bind_of_ok hfirst, bind_of_ok hfirst]
      cases h : (next a).result with
      | error fault => rw [bind_of_error rfl, bind_of_error h]
      | ok b => rw [bind_of_ok rfl, bind_of_ok h, List.append_assoc]

/-- The results are the same truth value, or opposite ones if that is asked for, or both are
faults. -/
inductive Turned (negated : Bool) : Except Fault Bool → Except Fault Bool → Prop where
  | ok (b : Bool) : Turned negated (.ok b) (.ok (b != negated))
  | error {fault fault' : Fault} (h : fault.UpToOpposite fault') :
    Turned negated (.error fault) (.error fault')

theorem Turned.eq_ok_iff {result result' : Except Fault Bool} (h : Turned false result result')
    (b : Bool) : result' = .ok b ↔ result = .ok b := by
  cases h with
  | ok b' => rw [Bool.bne_false]
  | error hfault => exact ⟨nofun, nofun⟩

theorem Turned.exists_error {negated : Bool} {result result' : Except Fault Bool}
    (h : Turned negated result result') (fault : Fault) (hresult : result = .error fault) :
    ∃ fault', result' = .error fault' ∧ fault.UpToOpposite fault' := by
  cases h with
  | ok b => cases hresult
  | error hfault =>
    cases hresult
    exact ⟨_, rfl, hfault⟩

/-- The readings consult the same facts in the same order, and the result of the second one is that
of the first, or its opposite. -/
structure Turns (negated : Bool) (r r' : Reading Bool) : Prop where
  consulted : r'.consulted = r.consulted
  result : Turned negated r.result r'.result

variable {negated negated' : Bool} {r r' : Reading Bool}

theorem turns_pure (negated b : Bool) : Turns negated (pure b) (pure (b != negated)) :=
  ⟨rfl, .ok b⟩

theorem Turns.bind {next next' : Bool → Reading Bool} (h : Turns negated r r')
    (hnext : ∀ b, Turns negated' (next b) (next' (b != negated))) :
    Turns negated' (r >>= next) (r' >>= next') := by
  obtain ⟨consulted, result⟩ := r
  obtain ⟨consulted', result'⟩ := r'
  obtain ⟨hconsulted, hresult⟩ := h
  cases hconsulted
  cases hresult with
  | ok b =>
    rw [bind_of_ok rfl, bind_of_ok rfl, (hnext b).consulted]
    exact ⟨rfl, (hnext b).result⟩
  | error hfault =>
    rw [bind_of_error rfl, bind_of_error rfl]
    exact ⟨rfl, .error hfault⟩

/-- Both readings go on with the same first part. -/
theorem turns_bind {α : Type} {first : Reading α} {next next' : α → Reading Bool}
    (h : ∀ a, Turns negated (next a) (next' a)) :
    Turns negated (first >>= next) (first >>= next') := by
  cases hr : first.result with
  | ok a =>
    rw [bind_of_ok hr, bind_of_ok hr, (h a).consulted]
    exact ⟨rfl, (h a).result⟩
  | error fault =>
    rw [bind_of_error hr, bind_of_error hr]
    exact ⟨rfl, .error (.refl fault)⟩

theorem turns_refl (r : Reading Bool) : Turns false r r := by
  obtain ⟨result, consulted⟩ := r
  refine ⟨rfl, ?_⟩
  cases result with
  | ok b => cases b <;> exact .ok _
  | error fault => exact .error (.refl fault)

theorem turns_not (r : Reading Bool) : Turns true r (r >>= fun b => pure !b) := by
  obtain ⟨result, consulted⟩ := r
  cases result with
  | ok b =>
    refine ⟨List.append_nil consulted, ?_⟩
    cases b <;> exact .ok _
  | error fault => exact ⟨rfl, .error (.refl fault)⟩

/-- The opposite of a reading turns where the reading itself turns the other way. -/
theorem Turns.not (h : Turns (!negated) r r') : Turns negated (r >>= fun b => pure !b) r' := by
  rw [← bind_pure r']
  refine h.bind fun b => ?_
  rw [Bool.bne_not, ← Bool.not_bne]
  exact turns_pure negated !b

/-- A comparison turns with its opposite. -/
theorem turns_compare (c : Comparison) (v w : Value) (negated : Bool) :
    Turns negated (ofExcept (v.compare c w))
      (ofExcept (v.compare (if negated then c.negate else c) w)) := by
  cases negated with
  | false => exact turns_refl _
  | true =>
    refine ⟨rfl, ?_⟩
    change Turned true (v.compare c w) (v.compare c.negate w)
    cases h : v.compare c w with
    | ok b =>
      rw [Value.compare_negate_of_ok h, ← Bool.bne_true]
      exact .ok b
    | error fault =>
      obtain ⟨fault', h', hfault⟩ := Value.compare_negate_of_error h
      rw [h']
      exact .error hfault

end Reading

open Reading

namespace Predicate

variable {facts : FactSet} {negated : Bool}

/-- Evaluates operands up to the first that has the given truth value. -/
def evalUntil (facts : FactSet) (stop : Bool) : List Predicate → Reading Bool
  | [] => pure !stop
  | p :: rest => do
    let b ← p.eval facts
    if b = stop then pure stop else evalUntil facts stop rest

theorem eval_join (stop : Bool) (ps : List Predicate) :
    (join stop ps).eval facts = evalUntil facts stop ps := by
  cases stop with
  | false =>
    change evalAll facts ps = evalUntil facts false ps
    induction ps with
    | nil => rfl
    | cons p rest ih =>
      rw [evalAll, evalUntil, ih]
      congr
      funext b
      cases b <;> rfl
  | true =>
    change evalAny facts ps = evalUntil facts true ps
    induction ps with
    | nil => rfl
    | cons p rest ih => rw [evalAny, evalUntil, ih]

/-- If each operand turns, the evaluation ends at the same one with the turned result. -/
theorem turns_evalUntil {f : Predicate → Predicate} (stop : Bool) {ps : List Predicate}
    (h : ∀ p ∈ ps, Turns negated (p.eval facts) ((f p).eval facts)) :
    Turns negated (evalUntil facts stop ps) (evalUntil facts (stop != negated) (ps.map f)) := by
  induction ps with
  | nil =>
    rw [List.map_nil, evalUntil, evalUntil, ← Bool.not_bne]
    exact turns_pure negated !stop
  | cons p rest ih =>
    rw [List.forall_mem_cons] at h
    refine h.1.bind fun b => ?_
    by_cases hb : b = stop
    · rw [if_pos hb, if_pos (by rw [hb])]
      exact turns_pure negated stop
    · rw [if_neg hb, if_neg (fun h => hb (Bool.bne_left_inj.mp h))]
      exact ih h.2

theorem turns_signed (p : Predicate) (negated : Bool) :
    Turns negated (p.eval facts) ((p.signed negated).eval facts) := by
  cases negated with
  | false => exact turns_refl _
  | true => exact turns_not _

theorem evalUntil_singleton (stop : Bool) (p : Predicate) :
    evalUntil facts stop [p] = p.eval facts := by
  have hlast (b : Bool) :
      (if b = stop then pure stop else pure !stop) = (pure b : Reading Bool) := by
    cases b <;> cases stop <;> rfl
  rw [evalUntil, evalUntil, funext hlast, bind_pure]

/-- A condition is read with its negations moved inwards as it is read without. -/
theorem turns_pushed (p : Predicate) (negated : Bool) :
    Turns negated (p.eval facts) ((p.pushed negated).eval facts) := by
  induction p generalizing negated with
  | compare left c right =>
    exact turns_bind fun v => turns_bind fun w => turns_compare c v w negated
  | flag fact => exact turns_signed (flag fact) negated
  | not operand ih => exact (ih !negated).not
  | all ps ih =>
    have h := turns_evalUntil false fun p hp => ih p hp negated
    rw [Bool.false_bne, ← eval_join, ← eval_join, ← pushedAll_eq_map] at h
    exact h
  | any ps ih =>
    have h := turns_evalUntil true fun p hp => ih p hp negated
    rw [Bool.true_bne, ← eval_join, ← eval_join, ← pushedAll_eq_map] at h
    exact h
  | implies premise conclusion ihp ihc =>
    rw [pushed, eval_join, evalUntil, evalUntil_singleton]
    refine (ihp !negated).bind fun b => ?_
    -- A premise that fails decides the implication, and its negation decides the disjunction.
    cases b with
    | false =>
      rw [if_pos (Bool.false_bne _), if_neg Bool.false_ne_true, ← Bool.true_bne]
      exact turns_pure negated true
    | true =>
      have hgoes : (true != !negated) ≠ !negated := by cases negated <;> decide
      rw [if_neg hgoes, if_pos rfl]
      exact ihc negated
  | known names => exact turns_signed (known names) negated
  | notIn fact excluded => exact turns_signed (notIn fact excluded) negated

/-- The second condition evaluates to the truth value of the first, or both fault for the same
reason, and the evaluations consult the same facts in the same order. Where truth values cannot be
compared, the reason names the comparison, which may be the opposite one. -/
structure ReadAlike (facts : FactSet) (p q : Predicate) : Prop where
  result (b : Bool) : (q.eval facts).result = .ok b ↔ (p.eval facts).result = .ok b
  faults : q.faults facts = p.faults facts
  fault : ∀ fault, (p.eval facts).result = .error fault →
    ∃ fault', (q.eval facts).result = .error fault' ∧ fault.UpToOpposite fault'
  factsUsed : (q.eval facts).factsUsed = (p.eval facts).factsUsed

theorem ReadAlike.of_turns {p q : Predicate} (h : Turns false (p.eval facts) (q.eval facts)) :
    ReadAlike facts p q where
  result := h.result.eq_ok_iff
  faults := by
    have hresult := h.result
    unfold Predicate.faults
    generalize (p.eval facts).result = result, (q.eval facts).result = result' at hresult
    cases hresult <;> rfl
  fault := h.result.exists_error
  factsUsed := congrArg Names.distinct h.consulted

/-- The normal form of a condition and the normal form of its negation have their negations at
leaves that are no comparisons, and they are read like the condition and its negation. -/
theorem nnf_readAlike (p : Predicate) (facts : FactSet) :
    p.nnf.IsNegationNormal ∧ ReadAlike facts p p.nnf ∧
      (not p).nnf.IsNegationNormal ∧ ReadAlike facts (not p) (not p).nnf :=
  ⟨isNegationNormal_pushed p false, .of_turns (turns_pushed p false),
    isNegationNormal_pushed (not p) false, .of_turns (turns_pushed (not p) false)⟩

end Predicate

end Verdict
