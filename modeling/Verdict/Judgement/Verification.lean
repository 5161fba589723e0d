import Verdict.Judgement.Outcome
import Verdict.Policy.Standard

/-!
# Verification

All invariants of a policy are evaluated, in the order of their declaration. Those that do not hold
make up the unsatisfied core. Where the core is empty the decision rule of the policy decides, and
otherwise its fallback. There are no faults here: what cannot be confirmed does not hold.
-/

namespace Verdict

/-- The result of verifying facts against a policy. -/
structure Verification where
  /-- The domain; there is none where the request names no known domain. -/
  domain : Option Domain
  policyId : String
  satisfiable : Bool
  /-- The names of all invariants. -/
  checkedInvariants : List String
  /-- The names of what does not hold. -/
  unsatCore : List String
  /-- The action that was chosen. -/
  chosenAction : Option String
  decision : Decision
  /-- What came of the invariants. -/
  trace : List Outcome
  /-- What came of the guards that were evaluated. -/
  guards : List Outcome
deriving DecidableEq

/-- The result for a request that names no known domain: nothing is checked and the request is
declined. -/
def Verification.unknownDomain : Verification where
  domain := none
  policyId := "unknown"
  satisfiable := false
  checkedInvariants := []
  unsatCore := []
  chosenAction := none
  decision := .decline
  trace := []
  guards := []

namespace Policy

/-- What comes of the invariants. -/
def checkInvariants (policy : Policy) (facts : FactSet) : List Outcome :=
  policy.invariants.map (·.outcome facts)

/-- What comes of guards up to the first that holds, and the name of that one. -/
def selectFirst (facts : FactSet) : List Clause → Option String × List Outcome
  | [] => (none, [])
  | action :: rest =>
    let outcome := action.outcome facts
    if outcome.holds then (some action.name, [outcome])
    else
      let (found, outcomes) := selectFirst facts rest
      (found, outcome :: outcomes)

/-- The first action whose guard holds, and what came of the guards up to it. -/
def selectAction (policy : Policy) (facts : FactSet) : Option String × List Outcome :=
  selectFirst facts policy.actions

/-- The names of the outcomes that do not hold. -/
def violated (outcomes : List Outcome) : List String :=
  (outcomes.filter fun o => !o.holds).map (·.name)

/-- A choice made by a decision rule. -/
structure Choice where
  decision : Decision
  action : Option String
  guards : List Outcome

/-- The choice for facts of which every invariant holds. -/
def choose (policy : Policy) (facts : FactSet) : Choice :=
  match policy.rule with
  | .firstMatch otherwise =>
    let (found, guards) := policy.selectAction facts
    let action := found.getD otherwise.name
    ⟨(Decision.ofAction? action).getD otherwise, some action, guards⟩
  | .disputeRouting =>
    if facts.get? "duplicate_charge" = some (.bool true) then ⟨.reasonCode4834, none, []⟩
    else ⟨.requestMoreDocs, none, []⟩
  | .approveIfSatisfiable => ⟨.approve, none, []⟩

/-- Verifies facts against a policy. -/
def verify (policy : Policy) (facts : FactSet) : Verification :=
  let trace := policy.checkInvariants facts
  let unsatCore := violated trace
  let choice := if unsatCore.isEmpty then policy.choose facts else ⟨policy.fallback, none, []⟩
  { domain := some policy.domain
    policyId := policy.id
    satisfiable := unsatCore.isEmpty
    checkedInvariants := policy.invariantNames
    unsatCore := unsatCore
    chosenAction := choice.action
    decision := choice.decision
    trace := trace
    guards := choice.guards }

@[simp] theorem satisfiable_verify (policy : Policy) (facts : FactSet) :
    (policy.verify facts).satisfiable = (policy.verify facts).unsatCore.isEmpty := rfl

@[simp] theorem trace_verify (policy : Policy) (facts : FactSet) :
    (policy.verify facts).trace = policy.checkInvariants facts := rfl

end Policy

end Verdict
