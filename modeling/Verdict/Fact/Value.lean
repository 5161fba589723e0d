import Verdict.Date
import Verdict.Decimal.Text
import Verdict.Json.Basic

/-!
# Values of facts

A known fact has a value of one of four kinds. A fact that is not known has no value.
-/

namespace Verdict

/-- The value of a known fact. -/
inductive Value where
  | bool (b : Bool)
  | int (n : Int64)
  | decimal (d : Decimal)
  | date (d : Date)
deriving DecidableEq

namespace Value

/-- The kinds of value. -/
inductive Kind where
  | bool | int | decimal | date
deriving DecidableEq

/-- The word for a kind of value. -/
def Kind.name : Kind → String
  | .bool => "Bool"
  | .int => "Int"
  | .decimal => "Decimal"
  | .date => "Date"

/-- The kind of a value. -/
def kind : Value → Kind
  | bool _ => .bool
  | int _ => .int
  | decimal _ => .decimal
  | date _ => .date

/-- The text of a value. -/
def text : Value → String
  | bool b => toString b
  | int n => toString n.toInt
  | decimal d => d.text
  | date d => d.text

/-- The value in a document. Decimals and dates are written as strings, so that no digit is
lost. -/
def toJson : Value → Json
  | bool b => .bool b
  | int n => .integer n.toInt
  | decimal d => .string d.text
  | date d => .string d.text

end Value

end Verdict
