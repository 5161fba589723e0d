import Verdict.Judgement.Proposal
import Verdict.Report.Reason

/-!
# Explanations

A decision is explained in one or two sentences that quote the values on which it rests. Where some
clause is violated, every entry of the unsatisfied core is listed.
-/

namespace Verdict

/-- An entry of an unsatisfied core, with the reason why it does not hold; a name that the policy
does not have has no reason. -/
structure Violation where
  name : String
  reason : Option Reason
  policyId : String

/-- The text of a violation. -/
def Violation.text (v : Violation) : String :=
  "`" ++ v.name ++ "` (" ++
    (match v.reason with
      | some r => r.text
      | none => "not an action of " ++ v.policyId) ++ ")"

/-- The texts of violations. -/
def Violation.texts (vs : List Violation) : String :=
  "; ".intercalate (vs.map text)

/-- Why a decision was made. -/
inductive Explanation where
  | unknownDomain (name : String)
  | violated (domain : Domain) (violations : List Violation)
  | approvedNoOtp (guard : Reason)
  | approvedWithOtp (guard : Reason)
  | declined (guard : Reason)
  | noGuardHolds
  | duplicateCharge (window : Reason)
  | documentsNeeded (charge window : Reason)
  | lineApproved (invariants : List Reason)

/-- The text of an explanation. -/
def Explanation.text : Explanation → String
  | unknownDomain name => "Declined: unknown domain '" ++ name ++ "', no policy applies."
  | violated domain vs =>
    (match domain with
      | .authorization => "Declined: violated "
      | .dispute =>
        "Declined: dispute outside allowed window, request additional documents. Violated "
      | .creditLineIncrease => "Declined due to: ") ++ Violation.texts vs ++ "."
  | approvedNoOtp guard =>
    "Approved without OTP: low risk and within available balance (" ++ guard.text ++ ")."
  | approvedWithOtp guard =>
    "Approved with OTP: borderline risk within limit, step-up authentication required (" ++
      guard.text ++ ")."
  | declined guard => "Declined: " ++ guard.text ++ "."
  | noGuardHolds => "Declined: no approval guard holds."
  | duplicateCharge window =>
    "Route to duplicate charge reason code (4834): duplicate_charge=true; " ++ window.text ++ "."
  | documentsNeeded charge window =>
    "Request additional documents: " ++ charge.text ++ "; " ++ window.text ++ "."
  | lineApproved invariants =>
    "Approved: satisfies tenure, delinquency and income constraints (" ++
      "; ".intercalate (invariants.map Reason.text) ++ ")."

namespace Policy

/-- An entry of an unsatisfied core. -/
def violation (policy : Policy) (facts : FactSet) (name : String) : Violation where
  name := name
  reason := ((policy.invariant? name).or (policy.action? name)).map fun clause =>
    clause.condition.reason facts false
  policyId := policy.id

/-- Why a clause holds; there is nothing to say of a clause that the policy does not have. -/
def clauseReason (facts : FactSet) (clause : Option Clause) : Reason :=
  match clause with
  | some c => c.condition.reason facts true
  | none => .listed []

end Policy

/-- Explains a decision on the facts of a record, with the wording of a domain. -/
def Domain.explain (domain : Domain) (decision : Decision) (r : FactRecord) (satisfiable : Bool)
    (unsatCore : List String) : Explanation :=
  let policy := domain.policy
  let facts := r.known
  if satisfiable then
    match domain with
    | .authorization =>
      match decision with
      | .approveNoOtp =>
        .approvedNoOtp (Policy.clauseReason facts (policy.action? "approve_no_otp"))
      | .approveWithOtp =>
        .approvedWithOtp (Policy.clauseReason facts (policy.action? "approve_with_otp"))
      | _ =>
        match policy.action? "decline" with
        | some action =>
          if action.condition.holds facts then .declined (action.condition.reason facts true)
          else .noGuardHolds
        | none => .noGuardHolds
    | .dispute =>
      let window := Policy.clauseReason facts (policy.invariant? "refund_window")
      match decision with
      | .reasonCode4834 => .duplicateCharge window
      | _ => .documentsNeeded ((Predicate.flag "duplicate_charge").reason facts false) window
    | .creditLineIncrease =>
      .lineApproved (policy.invariants.map fun i => i.condition.reason facts true)
  else .violated domain (unsatCore.map (policy.violation facts))

end Verdict
