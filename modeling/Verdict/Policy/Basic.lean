import Verdict.Decision
import Verdict.Domain
import Verdict.Policy.Predicate

/-!
# Policies

A policy is data: the facts of a domain with their sorts, the invariants in the order of their
declaration, the actions in the order of their priority, and the rule that makes a decision out of
what was found.
-/

namespace Verdict

/-- The sort of a fact in a proof program. -/
inductive FactSort where
  | real | int | bool
deriving DecidableEq

/-- The word for a sort. -/
def FactSort.name : FactSort → String
  | real => "Real"
  | int => "Int"
  | bool => "Bool"

/-- A fact that a domain has. -/
structure Declaration where
  fact : String
  sort : FactSort
deriving DecidableEq

/-- A condition with a name: an invariant, or an action with its guard. -/
structure Clause where
  name : String
  condition : Predicate

/-- How a decision is made once every invariant holds. -/
inductive DecisionRule where
  /-- The first action whose guard holds, or else the given decision. -/
  | firstMatch (otherwise : Decision)
  /-- Duplicate charges go to their reason code, all else asks for documents. -/
  | disputeRouting
  /-- The request is approved. -/
  | approveIfSatisfiable
deriving DecidableEq

/-- The policy of a domain. -/
structure Policy where
  id : String
  domain : Domain
  facts : List Declaration
  invariants : List Clause
  actions : List Clause
  rule : DecisionRule

namespace Policy

/-- The decision where some invariant does not hold. -/
def fallback (policy : Policy) : Decision :=
  match policy.rule with
  | .firstMatch otherwise => otherwise
  | .disputeRouting => .requestMoreDocs
  | .approveIfSatisfiable => .decline

/-- The names of the invariants, in the order of declaration. -/
def invariantNames (policy : Policy) : List String :=
  policy.invariants.map (·.name)

/-- The invariant of a name. -/
def invariant? (policy : Policy) (name : String) : Option Clause :=
  policy.invariants.find? (·.name == name)

/-- The action of a name. -/
def action? (policy : Policy) (name : String) : Option Clause :=
  policy.actions.find? (·.name == name)

/-- The sort of a fact, if the domain has it. -/
def sortOf? (policy : Policy) (fact : String) : Option FactSort :=
  (policy.facts.find? (·.fact == fact)).map (·.sort)

/-- The domain has a fact of this name. -/
def declares (policy : Policy) (fact : String) : Bool :=
  policy.facts.any (·.fact == fact)

end Policy

end Verdict
