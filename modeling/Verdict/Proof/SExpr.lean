/-!
# Symbolic expressions

Atoms and lists, and their text: lists stand between round brackets with one space between their
items.
-/

namespace Verdict

/-- A symbolic expression. -/
inductive SExpr where
  | atom (text : String)
  | list (items : List SExpr)

namespace SExpr

mutual

/-- The text of an expression. -/
def text : SExpr → String
  | atom s => s
  | list items => "(" ++ " ".intercalate (texts items) ++ ")"

/-- The texts of several expressions. -/
def texts : List SExpr → List String
  | [] => []
  | e :: rest => e.text :: texts rest

end

/-- An operator with its operands. -/
def apply (operator : String) (operands : List SExpr) : SExpr :=
  list (atom operator :: operands)

/-- Operands under an operator of any number of operands: one operand stands for itself, and none
at all for the given atom. -/
def join (operator unit : String) : List SExpr → SExpr
  | [] => atom unit
  | [e] => e
  | operands => apply operator operands

/-- A magnitude with a minus sign in front of it, if it is negative. -/
def signed (negative : Bool) (magnitude : String) : SExpr :=
  if negative then apply "-" [atom magnitude] else atom magnitude

end SExpr

end Verdict
