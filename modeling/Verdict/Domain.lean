import Verdict.Text.Blank

/-!
# Domains

The three domains of decision. Each has its own facts, its own policy and its own decisions.
-/

namespace Verdict

/-- A domain of decision. -/
inductive Domain where
  | authorization
  | dispute
  | creditLineIncrease
deriving DecidableEq

namespace Domain

/-- The name of a domain. -/
def name : Domain → String
  | authorization => "authorization"
  | dispute => "dispute"
  | creditLineIncrease => "credit_line_increase"

/-- The names by which a domain can be asked for. -/
def names : List (String × Domain) :=
  [("authorization", authorization), ("auth", authorization), ("dispute", dispute),
    ("credit_line_increase", creditLineIncrease), ("credit-line-increase", creditLineIncrease),
    ("cli", creditLineIncrease)]

/-- Finds a domain by name; blank characters around the name and the case of ASCII letters do not
count. -/
def ofName? (s : String) : Option Domain :=
  names.lookup (String.ofList ((Text.trim s.toList).map Char.toLower))

@[simp] theorem ofName?_name (d : Domain) : ofName? d.name = some d := by
  cases d <;> decide +kernel

end Domain

end Verdict
