import Verdict.Fact.Record
import Verdict.Judgement.Verification

/-!
# Proposals

In the soft mode a proposer suggests the action for an authorization. No suggestion is trusted: it
is checked against every invariant and the guard of the action. A suggestion that fails the check
is replaced once.
-/

namespace Verdict

/-- Verifies a record against the policy of its domain. -/
def FactRecord.verify (r : FactRecord) : Verification :=
  r.domain.policy.verify r.known

/-- A suggested action and the reason given for it. -/
structure Proposal where
  action : String
  justification : String
deriving DecidableEq

/-- A source of suggestions, which may be anything. -/
abbrev Proposer : Type := AuthorizationFacts → Proposal

/-- What the check of an action adds to a trace: what came of its guard, and its name where it is
no action of the policy or its guard does not hold. -/
def Policy.checkAction (policy : Policy) (facts : FactSet) (action : String) :
    List Outcome × List String :=
  match policy.action? action with
  | some clause =>
    let outcome := clause.outcome facts
    ([outcome], if outcome.holds then [] else [clause.name])
  | none => ([], [action])

/-- Checks a suggested action: every invariant must hold and so must the guard of the action. -/
def FactRecord.checkProposal (r : FactRecord) (action : String) : Verification :=
  let policy := r.domain.policy
  let trace := policy.checkInvariants r.known
  let (guards, missing) := policy.checkAction r.known action
  let unsatCore := Policy.violated trace ++ missing
  let satisfiable := unsatCore.isEmpty
  { domain := some policy.domain
    policyId := policy.id
    satisfiable := satisfiable
    checkedInvariants := policy.invariantNames
    unsatCore := unsatCore
    chosenAction := if satisfiable then some action else none
    decision :=
      if satisfiable then (Decision.ofAction? action).getD policy.fallback else policy.fallback
    trace := trace
    guards := guards }

/-- A known number that is at most the other. -/
def atMost (value bound : Option Decimal) : Bool :=
  match value, bound with
  | some a, some b => Comparison.le.holds (a.order b)
  | _, _ => false

namespace Proposal

/-- The suggestion that follows the thresholds of the policy. -/
def byRule : Proposer := fun f =>
  if atMost f.riskScore lowRisk && atMost f.amount f.availableBalance then
    ⟨"approve_no_otp", "Low risk and within available balance."⟩
  else if atMost f.riskScore borderlineRisk && atMost f.amount f.creditLimit then
    ⟨"approve_with_otp", "Borderline risk; within limit; step-up auth."⟩
  else ⟨"decline", "High risk or exceeds limits."⟩

/-- The replacement for a suggestion whose check left the given core. -/
def repair (unsatCore : List String) (f : AuthorizationFacts) : Proposal :=
  if "cnp_tightened" ∈ unsatCore then ⟨"decline", "CNP with risk above policy threshold."⟩
  else if atMost f.riskScore borderlineRisk && atMost f.amount f.creditLimit then
    ⟨"approve_with_otp", "Within limit; risk acceptable for step-up."⟩
  else ⟨"decline", "Constraints unsatisfied after repair."⟩

end Proposal

/-- The end of the soft mode: a suggestion and its check. -/
structure SoftOutcome where
  result : Verification
  proposal : Proposal
  repaired : Bool
deriving DecidableEq

/-- Takes a suggestion, checks it, and replaces it once if the check fails. -/
def AuthorizationFacts.runSoft (f : AuthorizationFacts) (propose : Proposer) : SoftOutcome :=
  let record := FactRecord.authorization f
  let proposal := propose f
  let result := record.checkProposal proposal.action
  if result.satisfiable then ⟨result, proposal, false⟩
  else
    let repaired := Proposal.repair result.unsatCore f
    ⟨record.checkProposal repaired.action, repaired, true⟩

end Verdict
