import Verdict.Fact.Value

/-!
# Sets of known facts

The values of the facts that are known, by the names of the facts.
-/

namespace Verdict

/-- The known facts with their values, in the order of their names. -/
structure FactSet where
  entries : List (String × Value)

namespace FactSet

/-- No fact is known. -/
def empty : FactSet := ⟨[]⟩

/-- The value of a fact, if it is known. -/
def get? (facts : FactSet) (fact : String) : Option Value :=
  facts.entries.lookup fact

/-- The fact has a value. -/
def isKnown (facts : FactSet) (fact : String) : Bool :=
  (facts.get? fact).isSome

/-- The facts with one more value. -/
def insert (facts : FactSet) (fact : String) (value : Value) : FactSet :=
  ⟨Keyed.insert fact value facts.entries⟩

/-- The facts of a list that have a value. -/
def ofOptions (facts : List (String × Option Value)) : FactSet :=
  facts.foldl (fun set fact => match fact.2 with
    | some value => set.insert fact.1 value
    | none => set) empty

/-- The known values as the members of an object. -/
def toMembers (facts : FactSet) : List (String × Json) :=
  facts.entries.map fun entry => (entry.1, entry.2.toJson)

/-- The known values as an object. -/
def toJson (facts : FactSet) : Json :=
  .object facts.toMembers

@[simp] theorem get?_empty (fact : String) : empty.get? fact = none := rfl

theorem get?_insert (facts : FactSet) (fact other : String) (value : Value) :
    (facts.insert fact value).get? other = if other = fact then some value else facts.get? other :=
  Keyed.lookup_insert fact other value facts.entries

end FactSet

end Verdict
