/-!
# Decisions

The possible outcomes of a request, and the actions that stand for them.
-/

namespace Verdict

/-- The outcome of a request. A dispute over a duplicate charge goes to reason code 4834. -/
inductive Decision where
  | approveNoOtp
  | approveWithOtp
  | approve
  | decline
  | reasonCode4834
  | requestMoreDocs
deriving DecidableEq

namespace Decision

/-- The name of a decision. -/
def name : Decision → String
  | approveNoOtp => "approve_no_otp"
  | approveWithOtp => "approve_with_otp"
  | approve => "approve"
  | decline => "decline"
  | reasonCode4834 => "rc_4834"
  | requestMoreDocs => "request_more_docs"

/-- All decisions. -/
def all : List Decision :=
  [approveNoOtp, approveWithOtp, approve, decline, reasonCode4834, requestMoreDocs]

/-- The decision that an action stands for: the one of the same name. -/
def ofAction? (action : String) : Option Decision :=
  all.find? fun d => d.name == action

@[simp] theorem ofAction?_name (d : Decision) : ofAction? d.name = some d := by
  cases d <;> decide +kernel

end Decision

end Verdict
