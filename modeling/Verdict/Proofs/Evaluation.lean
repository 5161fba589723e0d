import Verdict.Policy.Evaluation

/-!
# Induction over predicates and steps of a reading

Predicates are nested in lists of predicates. The induction principle here hands every operand of a
list to the proof, so that `induction` works on predicates. A reading that goes on with the result
of another one is taken apart by its result and by the facts that it consulted. An evaluation goes
from leaf to leaf of its predicate, so what each step of a reading keeps is shown at the leaves only.
-/

namespace Verdict

/-- Induction over the tree of a predicate, with a hypothesis for each operand of a list. -/
@[elab_as_elim, induction_eliminator]
theorem Predicate.induct {motive : Predicate → Prop}
    (compare : ∀ left c right, motive (.compare left c right))
    (flag : ∀ fact, motive (.flag fact))
    (not : ∀ operand, motive operand → motive (.not operand))
    (all : ∀ operands, (∀ p ∈ operands, motive p) → motive (.all operands))
    (any : ∀ operands, (∀ p ∈ operands, motive p) → motive (.any operands))
    (implies : ∀ premise conclusion, motive premise → motive conclusion →
      motive (.implies premise conclusion))
    (known : ∀ facts, motive (.known facts))
    (notIn : ∀ fact excluded, motive (.notIn fact excluded)) (p : Predicate) : motive p :=
  @Predicate.rec motive (fun ps => ∀ p ∈ ps, motive p) compare flag not all any implies known notIn
    (fun _ h => nomatch h) (fun _ _ hfirst hrest => List.forall_mem_cons.mpr ⟨hfirst, hrest⟩) p

namespace Reading

variable {α β : Type}

/-- A reading that goes on has a result exactly if both parts have one. -/
theorem result_bind_eq_ok {first : Reading α} {next : α → Reading β} {b : β} :
    (first >>= next).result = .ok b ↔
      ∃ a, first.result = .ok a ∧ (next a).result = .ok b := by
  cases h : first.result with
  | ok a => simp [bind_of_ok h]
  | error fault => simp [bind_of_error h]

/-- A fact that was consulted was consulted by one of the two parts. -/
theorem mem_consulted_bind {first : Reading α} {next : α → Reading β} {fact : String}
    (h : fact ∈ (first >>= next).consulted) :
    fact ∈ first.consulted ∨ ∃ a, fact ∈ (next a).consulted := by
  cases hr : first.result with
  | ok a =>
    rw [bind_of_ok hr] at h
    rcases List.mem_append.mp h with h | h
    · exact Or.inl h
    · exact Or.inr ⟨a, h⟩
  | error fault =>
    rw [bind_of_error hr] at h
    exact Or.inl h

/-- A value that was read is the value of the fact. -/
theorem get?_of_ofFact {facts : FactSet} {fact : String} {v : Value}
    (h : (ofFact facts fact).result = .ok v) : facts.get? fact = some v := by
  unfold ofFact at h
  cases hvalue : facts.get? fact with
  | none =>
    rw [hvalue] at h
    cases h
  | some w =>
    rw [hvalue] at h
    cases h
    rfl

end Reading

variable {facts : FactSet}

namespace Predicate

/-- A conjunction holds exactly if each operand does: an operand that faults ends the evaluation, and
so does one that fails. -/
theorem evalAll_eq_true {ps : List Predicate} :
    (evalAll facts ps).result = .ok true ↔ ∀ p ∈ ps, (p.eval facts).result = .ok true := by
  induction ps with
  | nil => simp [evalAll]
  | cons p rest ih =>
    rw [evalAll, Reading.result_bind_eq_ok, List.forall_mem_cons, ← ih]
    constructor
    · rintro ⟨b, hb, h⟩
      cases b with
      | false => cases h
      | true => exact ⟨hb, h⟩
    · rintro ⟨hp, hrest⟩
      exact ⟨true, hp, hrest⟩

/-- A disjunction fails exactly if each operand does. -/
theorem evalAny_eq_false {ps : List Predicate} :
    (evalAny facts ps).result = .ok false ↔ ∀ p ∈ ps, (p.eval facts).result = .ok false := by
  induction ps with
  | nil => simp [evalAny]
  | cons p rest ih =>
    rw [evalAny, Reading.result_bind_eq_ok, List.forall_mem_cons, ← ih]
    constructor
    · rintro ⟨b, hb, h⟩
      cases b with
      | false => exact ⟨hb, h⟩
      | true => cases h
    · rintro ⟨hp, hrest⟩
      exact ⟨false, hp, hrest⟩

mutual

/-- The conditions that a condition is put together of. -/
def leaves : Predicate → List Predicate
  | compare left c right => [compare left c right]
  | flag fact => [flag fact]
  | not operand => operand.leaves
  | all operands => leavesOf operands
  | any operands => leavesOf operands
  | implies premise conclusion => premise.leaves ++ conclusion.leaves
  | known facts => [known facts]
  | notIn fact excluded => [notIn fact excluded]

/-- The conditions that several conditions are put together of. -/
def leavesOf : List Predicate → List Predicate
  | [] => []
  | p :: rest => p.leaves ++ leavesOf rest

end

/-- A condition that is not put together of others. -/
inductive IsLeaf : Predicate → Prop where
  | compare (left : Term) (c : Comparison) (right : Term) : IsLeaf (.compare left c right)
  | flag (fact : String) : IsLeaf (.flag fact)
  | known (names : List String) : IsLeaf (.known names)
  | notIn (fact : String) (excluded : List Int64) : IsLeaf (.notIn fact excluded)

theorem mem_leavesOf {ps : List Predicate} {leaf : Predicate} :
    leaf ∈ leavesOf ps ↔ ∃ p ∈ ps, leaf ∈ p.leaves := by
  induction ps with
  | nil => simp [leavesOf]
  | cons p rest ih => simp [leavesOf, ih]

theorem isLeaf_of_mem_leaves {p leaf : Predicate} (h : leaf ∈ p.leaves) : leaf.IsLeaf := by
  induction p with
  | compare left c right => exact List.mem_singleton.mp h ▸ .compare left c right
  | flag fact => exact List.mem_singleton.mp h ▸ .flag fact
  | not operand ih => exact ih h
  | all operands ih =>
    obtain ⟨p, hp, hleaf⟩ := mem_leavesOf.mp h
    exact ih p hp hleaf
  | any operands ih =>
    obtain ⟨p, hp, hleaf⟩ := mem_leavesOf.mp h
    exact ih p hp hleaf
  | implies premise conclusion ihp ihc => exact (List.mem_append.mp h).elim ihp ihc
  | known names => exact List.mem_singleton.mp h ▸ .known names
  | notIn fact excluded => exact List.mem_singleton.mp h ▸ .notIn fact excluded

end Predicate

/-- The property is one of every truth value that is there without a reading, and it is kept when
one reading goes on after another. -/
structure Reading.Kept (Q : (FactSet → Reading Bool) → Prop) : Prop where
  pure : ∀ b, Q fun _ => pure b
  bind : ∀ {first : FactSet → Reading Bool} {next : Bool → FactSet → Reading Bool},
    Q first → (∀ b, Q (next b)) → Q fun facts => first facts >>= fun b => next b facts

namespace Reading.Kept

variable {Q : (FactSet → Reading Bool) → Prop} (hQ : Kept Q)
include hQ

theorem evalAll {ps : List Predicate} (h : ∀ p ∈ ps, Q fun facts => p.eval facts) :
    Q fun facts => Predicate.evalAll facts ps := by
  induction ps with
  | nil => exact hQ.pure true
  | cons p rest ih =>
    rw [List.forall_mem_cons] at h
    refine hQ.bind h.1 fun b => ?_
    cases b with
    | false => exact hQ.pure false
    | true => exact ih h.2

theorem evalAny {ps : List Predicate} (h : ∀ p ∈ ps, Q fun facts => p.eval facts) :
    Q fun facts => Predicate.evalAny facts ps := by
  induction ps with
  | nil => exact hQ.pure false
  | cons p rest ih =>
    rw [List.forall_mem_cons] at h
    refine hQ.bind h.1 fun b => ?_
    cases b with
    | false => exact ih h.2
    | true => exact hQ.pure true

/-- A property that is kept is one of the whole evaluation if it is one of the leaves. -/
theorem eval {p : Predicate} (h : ∀ leaf ∈ p.leaves, Q fun facts => leaf.eval facts) :
    Q fun facts => p.eval facts := by
  induction p with
  | not operand ih => exact hQ.bind (ih h) fun b => hQ.pure !b
  | all operands ih =>
    refine hQ.evalAll fun p hp => ih p hp fun leaf hleaf => h leaf ?_
    exact Predicate.mem_leavesOf.mpr ⟨p, hp, hleaf⟩
  | any operands ih =>
    refine hQ.evalAny fun p hp => ih p hp fun leaf hleaf => h leaf ?_
    exact Predicate.mem_leavesOf.mpr ⟨p, hp, hleaf⟩
  | implies premise conclusion ihp ihc =>
    rw [Predicate.leaves, List.forall_mem_append] at h
    refine hQ.bind (ihp h.1) fun b => ?_
    cases b with
    | false => exact hQ.pure true
    | true => exact ihc h.2
  | compare _ _ _ | flag _ | known _ | notIn _ _ => exact h _ (List.mem_singleton_self _)

end Reading.Kept

end Verdict
