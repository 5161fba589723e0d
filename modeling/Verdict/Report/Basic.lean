import Verdict.Proof.Program
import Verdict.Report.Explanation
import Verdict.Request.Assembly
import Verdict.Sha256

/-!
# Decision reports

A request is assembled, verified, explained and written as a proof program; a report holds the
results. A request for an unknown domain is declined with a report of its own, whatever its facts
are.
-/

namespace Verdict

/-- Who picks the action of an authorization: the guards of the policy, or a proposer whose
suggestion the policy checks. The other domains know only the first. -/
inductive Mode where
  | hard | soft
deriving DecidableEq

/-- The word for a mode. -/
def Mode.name : Mode → String
  | hard => "hard"
  | soft => "soft"

/-- Everything that is said about one decision. -/
structure Report where
  domain : String
  decision : Decision
  policyVersion : String
  mode : Mode
  satisfiable : Bool
  /-- The known facts where every invariant holds, else nothing. -/
  model : FactSet
  checkedInvariants : List String
  unsatCore : List String
  chosenAction : Option String
  trace : List Outcome
  explanation : Explanation
  /-- The reason that the proposer gave. -/
  justification : Option String
  /-- The flat object of the facts. -/
  facts : Json
  program : Program
  error : Option RequestError

namespace Report

/-- The name of the checker. -/
def solver : String := "proofgate-eval"

/-- The digest of the program text. -/
def programDigest (r : Report) : String :=
  Sha256.ofText r.program.text

/-- The report on a request for a domain that is not known. -/
def unknownDomain (name : String) (mode : Mode) : Report :=
  let result := Verification.unknownDomain
  { domain := name
    decision := result.decision
    policyVersion := result.policyId
    mode := mode
    satisfiable := result.satisfiable
    model := .empty
    checkedInvariants := result.checkedInvariants
    unsatCore := result.unsatCore
    chosenAction := result.chosenAction
    trace := result.trace
    explanation := .unknownDomain name
    justification := none
    facts := .object []
    program := []
    error := some (.unknownDomain name) }

end Report

namespace FactRecord

/-- The verification of a record in a mode, and the reason of the proposer in the soft mode. -/
def judge (r : FactRecord) (mode : Mode) : Verification × Option String :=
  match mode, r with
  | .soft, .authorization f =>
    let outcome := f.runSoft Proposal.byRule
    (outcome.result, some outcome.proposal.justification)
  | _, _ => (r.verify, none)

/-- Decides a record. -/
def decide (r : FactRecord) (mode : Mode) : Except RequestError Report := do
  let (result, justification) := r.judge mode
  let program ← r.program.mapError RequestError.program
  pure
    { domain := r.domain.name
      decision := result.decision
      policyVersion := result.policyId
      mode := mode
      satisfiable := result.satisfiable
      model := if result.satisfiable then r.known else .empty
      checkedInvariants := result.checkedInvariants
      unsatCore := result.unsatCore
      chosenAction := result.chosenAction
      trace := result.trace
      explanation := r.domain.explain result.decision r result.satisfiable result.unsatCore
      justification := justification
      facts := r.toJson
      program := program
      error := none }

/-- Decides a record and a copy with one fact replaced, and tells whether the decisions agree. -/
def unchangedBy (r : FactRecord) (field : String) (value : Json) (mode : Mode) :
    Except RequestError Bool := do
  let flipped ← r.withFact field value
  let before ← r.decide mode
  let after ← flipped.decide mode
  pure (before.decision == after.decision)

end FactRecord

/-- Decides a request, given the name of a domain and the facts. -/
def decideRequest (domain : String) (facts : Json) (mode : Mode) : Except RequestError Report :=
  match Domain.ofName? domain with
  | none => .ok (.unknownDomain domain mode)
  | some d => do (← FactRecord.assemble d facts).decide mode

end Verdict
