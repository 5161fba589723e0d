import Verdict.Fact.Fault
import Verdict.Fact.Set
import Verdict.Policy.Names

/-!
# Readings of facts

A reading is an evaluation over known facts that keeps a list of the facts it has consulted. A
fault ends it; the facts consulted up to there are kept.
-/

namespace Verdict

/-- What an evaluation has found, and the facts that it consulted on the way. -/
structure Reading (α : Type) where
  result : Except Fault α
  consulted : List String

namespace Reading

variable {α β : Type}

/-- A result for which no fact was consulted. -/
def ofExcept (result : Except Fault α) : Reading α :=
  ⟨result, []⟩

/-- Goes on with the result of a first reading. -/
def andThen (first : Reading α) (next : α → Reading β) : Reading β :=
  match first.result with
  | .ok a => ⟨(next a).result, first.consulted ++ (next a).consulted⟩
  | .error fault => ⟨.error fault, first.consulted⟩

instance : Monad Reading where
  pure a := ofExcept (.ok a)
  bind := andThen

/-- The value of a fact. An unknown fact is a fault. -/
def ofFact (facts : FactSet) (fact : String) : Reading Value where
  result := match facts.get? fact with
    | some value => .ok value
    | none => .error (.unknownFact fact)
  consulted := [fact]

/-- Which facts are known; there is no fault. -/
def ofKnown (facts : FactSet) (names : List String) : Reading Bool where
  result := .ok (names.all facts.isKnown)
  consulted := names

/-- The facts that were consulted, in the order of first consultation. -/
def factsUsed (r : Reading α) : List String :=
  Names.distinct r.consulted

@[simp] theorem result_pure (a : α) : (pure a : Reading α).result = .ok a := rfl

@[simp] theorem consulted_pure (a : α) : (pure a : Reading α).consulted = [] := rfl

theorem bind_of_ok {first : Reading α} {a : α} (h : first.result = .ok a) (next : α → Reading β) :
    first >>= next = ⟨(next a).result, first.consulted ++ (next a).consulted⟩ := by
  simp [bind, andThen, h]

theorem bind_of_error {first : Reading α} {fault : Fault} (h : first.result = .error fault)
    (next : α → Reading β) : first >>= next = ⟨.error fault, first.consulted⟩ := by
  simp [bind, andThen, h]

end Reading

end Verdict
