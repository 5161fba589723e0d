import Verdict.Fact.Arithmetic
import Verdict.Policy.Predicate
import Verdict.Policy.Reading

/-!
# Evaluation of predicates

A predicate is evaluated strictly: to read an unknown fact or to compare values that do not compare
is a fault. Operands are evaluated from left to right and no further than the result needs, so a
fault in an operand that is not reached does not show.
-/

namespace Verdict

/-- The value of a term. -/
def Term.eval (facts : FactSet) : Term → Reading Value
  | fact name => .ofFact facts name
  | int n => pure (.int n)
  | decimal d => pure (.decimal d)
  | scaled name factor => do
    let base ← Reading.ofFact facts name
    .ofExcept (base.scale factor)

namespace Predicate

mutual

/-- The truth value of a predicate. -/
def eval (facts : FactSet) : Predicate → Reading Bool
  | compare left comparison right => do
    let l ← left.eval facts
    let r ← right.eval facts
    .ofExcept (l.compare comparison r)
  | flag fact => do
    let value ← Reading.ofFact facts fact
    .ofExcept value.asBool
  | not operand => do
    let b ← operand.eval facts
    pure !b
  | all operands => evalAll facts operands
  | any operands => evalAny facts operands
  | implies premise conclusion => do
    let b ← premise.eval facts
    if b then conclusion.eval facts else pure true
  | known names => .ofKnown facts names
  | notIn fact excluded => do
    let value ← Reading.ofFact facts fact
    let n ← Reading.ofExcept value.asInt
    pure !((excluded.map Int64.toInt).contains n)

/-- All operands hold; the first that fails ends the evaluation. -/
def evalAll (facts : FactSet) : List Predicate → Reading Bool
  | [] => pure true
  | p :: rest => do
    let b ← p.eval facts
    if b then evalAll facts rest else pure false

/-- Some operand holds; the first that does ends the evaluation. -/
def evalAny (facts : FactSet) : List Predicate → Reading Bool
  | [] => pure false
  | p :: rest => do
    let b ← p.eval facts
    if b then pure true else evalAny facts rest

end

/-- The predicate evaluates to true. -/
def holds (facts : FactSet) (p : Predicate) : Bool :=
  match (p.eval facts).result with
  | .ok b => b
  | .error _ => false

/-- The evaluation of the predicate ends in a fault. -/
def faults (facts : FactSet) (p : Predicate) : Bool :=
  match (p.eval facts).result with
  | .ok _ => false
  | .error _ => true

end Predicate

end Verdict
