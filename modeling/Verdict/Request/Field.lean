import Verdict.Binary64.Shortest
import Verdict.Request.Error
import Verdict.Text.Digits

/-!
# Fields of a request

A fact can be stated in a request under several spellings: its own name, a short name, or a path
into a nested object. The first spelling with a value counts. Null is no value, and neither is an
object into which another spelling of the same fact leads. A value must be of the kind of the fact.
-/

namespace Verdict

/-- A place in a request where a fact can be stated, and whether its opposite is stated there. -/
structure Spelling where
  path : List String
  negated : Bool := false
deriving DecidableEq

/-- A fact with its accepted spellings in the order in which they count. -/
structure Field where
  fact : String
  spellings : List Spelling

namespace Field

/-- Some spelling leads further than the given path. -/
def goesDeeper (spellings : List Spelling) (path : List String) : Bool :=
  spellings.any fun s => path.length < s.path.length && path.isPrefixOf s.path

/-- The value that a request states at a spelling. -/
def stated? (spellings : List Spelling) (request : Json) (s : Spelling) : Option (Json × Bool) :=
  match request.at? s.path with
  | some v =>
    if v.isNull || (v.isObject && goesDeeper spellings s.path) then none else some (v, s.negated)
  | none => none

/-- The value that counts for a field, and whether it states the opposite. -/
def find? (field : Field) (request : Json) : Option (Json × Bool) :=
  field.spellings.findSome? (stated? field.spellings request)

/-- Reads the value of a field. A field without value is unknown. -/
def read {α : Type} (field : Field) (expected : Value.Kind) (ofJson? : Json → Bool → Option α)
    (request : Json) : Except RequestError (Option α) :=
  match field.find? request with
  | none => .ok none
  | some (v, negated) =>
    match ofJson? v negated with
    | some a => .ok (some a)
    | none => .error (.typeMismatch field.fact expected v.kind)

end Field

/-! ## Values of the four kinds -/

/-- A decimal is a number, read from its text, or a string. -/
def Decimal.ofJson? : Json → Option Decimal
  | .integer n => ofChars? (toString n).toList
  | .float x => ofChars? x.chars
  | .string s => ofChars? s.toList
  | _ => none

/-- A whole number that fits into 64 bits with a sign. -/
def int64? (n : Int) : Option Int64 :=
  if -2 ^ 63 ≤ n ∧ n < 2 ^ 63 then some (.ofInt n) else none

/-- A whole number is a number without point and exponent, or a string of digits with an optional
sign. -/
def int64OfJson? : Json → Option Int64
  | .integer n => int64? n
  | .string s => (Text.integer? (Text.trim s.toList)).bind int64?
  | _ => none

/-- A truth value. -/
def boolOfJson? : Json → Option Bool
  | .bool b => some b
  | _ => none

/-- A date is a string. -/
def Date.ofJson? : Json → Option Date
  | .string s => ofChars? s.toList
  | _ => none

namespace Field

/-- Reads a decimal. -/
def decimal (field : Field) : Json → Except RequestError (Option Decimal) :=
  field.read .decimal fun v _ => Decimal.ofJson? v

/-- Reads a whole number. -/
def int (field : Field) : Json → Except RequestError (Option Int64) :=
  field.read .int fun v _ => int64OfJson? v

/-- Reads a truth value, or its opposite. -/
def bool (field : Field) : Json → Except RequestError (Option Bool) :=
  field.read .bool fun v negated => (boolOfJson? v).map (· != negated)

/-- Reads a date. -/
def date (field : Field) : Json → Except RequestError (Option Date) :=
  field.read .date fun v _ => Date.ofJson? v

end Field

end Verdict
