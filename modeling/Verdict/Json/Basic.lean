import Verdict.Binary64.Basic
import Verdict.Keyed

/-!
# JSON values

The values of a JSON document. Whole numbers of 64 bits are kept exactly, all other numbers as
binary floating-point numbers. The members of an object are listed in key order.
-/

namespace Verdict

/-- A JSON value. -/
inductive Json where
  | null
  | bool (b : Bool)
  | integer (n : Int)
  | float (x : Binary64)
  | string (s : String)
  | array (items : List Json)
  | object (members : List (String × Json))

namespace Json

instance : Inhabited Json := ⟨null⟩

/-- The kinds of value that a reader of a document tells apart. -/
inductive Kind where
  | null | boolean | number | string | array | object
deriving DecidableEq

/-- The word for a kind of value. -/
def Kind.name : Kind → String
  | .null => "null"
  | .boolean => "boolean"
  | .number => "number"
  | .string => "string"
  | .array => "array"
  | .object => "object"

/-- The kind of a value. -/
def kind : Json → Kind
  | null => .null
  | bool _ => .boolean
  | integer _ => .number
  | float _ => .number
  | string _ => .string
  | array _ => .array
  | object _ => .object

/-- The value is `null`. -/
def isNull : Json → Bool
  | null => true
  | _ => false

/-- The value is an object. -/
def isObject : Json → Bool
  | object _ => true
  | _ => false

/-- The value that is reached from an object by one key after the other. -/
def at? : List String → Json → Option Json
  | [], v => some v
  | key :: path, object members => (members.lookup key).bind (at? path)
  | _ :: _, _ => none

/-- An object with the given members, put in key order. -/
def ofMembers (members : List (String × Json)) : Json :=
  object (Keyed.ofList members)

end Json

end Verdict
