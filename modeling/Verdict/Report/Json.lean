import Verdict.Report.Basic

/-!
# Reports as JSON

The members of a report are written in a fixed order; those of other objects are in key order.
-/

namespace Verdict

/-- Strings as an array. -/
def Json.strings (items : List String) : Json :=
  .array (items.map .string)

/-- A string, or null. -/
def Json.ofString? : Option String → Json
  | some s => .string s
  | none => .null

/-- An optional member. -/
def Json.member? (key : String) : Option String → List (String × Json)
  | some s => [(key, .string s)]
  | none => []

/-- What came of a clause; the fault is left out where there is none. -/
def Outcome.toJson (o : Outcome) : Json :=
  .object <|
    [("name", .string o.name), ("holds", .bool o.holds), ("facts_used", .strings o.factsUsed)] ++
      Json.member? "fault" (o.fault.map (·.message))

/-- The part of a report that says how the decision was checked. -/
def Report.proofJson (r : Report) : Json :=
  .object
    [("solver", .string solver),
      ("satisfiable", .bool r.satisfiable),
      ("model", r.model.toJson),
      ("checked_invariants", .strings r.checkedInvariants),
      ("unsat_core", .strings r.unsatCore),
      ("chosen_action", .ofString? r.chosenAction),
      ("trace", .array (r.trace.map (·.toJson)))]

/-- A report; the justification and the error are left out where there are none. -/
def Report.toJson (r : Report) : Json :=
  .object <|
    [("domain", .string r.domain),
      ("decision", .string r.decision.name),
      ("policy_version", .string r.policyVersion),
      ("mode", .string r.mode.name),
      ("proof", r.proofJson),
      ("explanation", .string r.explanation.text)] ++
    Json.member? "justification" r.justification ++
    [("facts", r.facts),
      ("program", .string r.program.text),
      ("program_digest", .string r.programDigest)] ++
    Json.member? "error" (r.error.map (·.message))

end Verdict
