import Verdict.Json.Basic
import Verdict.Binary64.Shortest

/-!
# Writing JSON text

A value is written on one line without spaces, or over several lines with an indent of two spaces.
Characters outside ASCII stand for themselves.
-/

namespace Verdict.Json

/-- The escapes that have a short form. -/
def escapes : List (Char × String) :=
  [('"', "\\\""), ('\\', "\\\\"), ('\x08', "\\b"), ('\x0c', "\\f"), ('\n', "\\n"), ('\r', "\\r"),
    ('\t', "\\t")]

/-- A character as it stands in a string: the other control characters are written by number. -/
def escaped (c : Char) : String :=
  match escapes.lookup c with
  | some s => s
  | none =>
    if c.toNat < 0x20 then "\\u" ++ String.ofList ((Nat.toDigits 16 c.toNat).leftpad 4 '0')
    else c.toString

/-- A string between quotation marks. -/
def quoted (s : String) : String :=
  "\"" ++ String.join (s.toList.map escaped) ++ "\""

mutual

/-- The text of a value on one line. -/
def compact : Json → String
  | null => "null"
  | bool b => toString b
  | integer n => toString n
  | float x => x.text
  | string s => quoted s
  | array items => "[" ++ ",".intercalate (compactItems items) ++ "]"
  | object members => "\x7b" ++ ",".intercalate (compactMembers members) ++ "\x7d"

/-- The texts of the items of an array. -/
def compactItems : List Json → List String
  | [] => []
  | v :: rest => v.compact :: compactItems rest

/-- The texts of the members of an object. -/
def compactMembers : List (String × Json) → List String
  | [] => []
  | (key, v) :: rest => (quoted key ++ ":" ++ v.compact) :: compactMembers rest

end

/-- Lines between two brackets, each one level deeper than the brackets; brackets around nothing
stay together. -/
def block (indent : String) (opening closing : String) (lines : List String) : String :=
  if lines.isEmpty then opening ++ closing
  else
    let inner := indent ++ "  "
    opening ++ "\n" ++ ",\n".intercalate (lines.map (inner ++ ·)) ++ "\n" ++ indent ++ closing

mutual

/-- The text of a value over several lines, its later lines after the given indent. -/
def prettyFrom (indent : String) : Json → String
  | null => "null"
  | bool b => toString b
  | integer n => toString n
  | float x => x.text
  | string s => quoted s
  | array items => block indent "[" "]" (prettyItems (indent ++ "  ") items)
  | object members => block indent "\x7b" "\x7d" (prettyMembers (indent ++ "  ") members)

/-- The texts of the items of an array. -/
def prettyItems (indent : String) : List Json → List String
  | [] => []
  | v :: rest => v.prettyFrom indent :: prettyItems indent rest

/-- The texts of the members of an object. -/
def prettyMembers (indent : String) : List (String × Json) → List String
  | [] => []
  | (key, v) :: rest => (quoted key ++ ": " ++ v.prettyFrom indent) :: prettyMembers indent rest

end

/-- The text of a value over several lines. -/
def pretty (v : Json) : String :=
  prettyFrom "" v

end Verdict.Json
