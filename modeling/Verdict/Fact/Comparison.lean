/-!
# Comparisons

The six ways to compare two values, each with its opposite.
-/

namespace Verdict

/-- A comparison of two values. -/
inductive Comparison where
  | lt | le | gt | ge | eq | ne
deriving DecidableEq

namespace Comparison

/-- The sign of a comparison in a proof program. -/
def symbol : Comparison → String
  | lt => "<"
  | le => "<="
  | gt => ">"
  | ge => ">="
  | eq => "="
  | ne => "!="

/-- The sign of a comparison in an explanation. -/
def sign : Comparison → String
  | lt => "<"
  | le => "≤"
  | gt => ">"
  | ge => "≥"
  | eq => "="
  | ne => "≠"

/-- The comparison that holds where this one fails. -/
def negate : Comparison → Comparison
  | lt => ge
  | le => gt
  | gt => le
  | ge => lt
  | eq => ne
  | ne => eq

/-- The comparison holds of two values in the given order. -/
def holds : Comparison → Ordering → Bool
  | lt, o => o == .lt
  | le, o => o != .gt
  | gt, o => o == .gt
  | ge, o => o != .lt
  | eq, o => o == .eq
  | ne, o => o != .eq

@[simp] theorem negate_negate (c : Comparison) : c.negate.negate = c := by
  cases c <;> rfl

@[simp] theorem holds_negate (c : Comparison) (o : Ordering) : c.negate.holds o = !c.holds o := by
  cases c <;> cases o <;> rfl

end Comparison

end Verdict
