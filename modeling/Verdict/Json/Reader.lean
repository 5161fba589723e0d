import Verdict.Json.Basic
import Verdict.Text.Digits

/-!
# Reading JSON text

A strict reader of JSON documents. Arrays and objects may be nested up to a given depth, the last
of several members with one key counts, a surrogate must be half of a pair, and a number must be
in the range of the 64-bit binary format.
-/

namespace Verdict.Json

/-- A reader takes a value from the front of a text and leaves the rest. -/
abbrev Scan (α : Type) : Type := List Char → Option (α × List Char)

namespace Scan

/-- The white space that may stand between the tokens of a document. -/
def isSpace (c : Char) : Bool :=
  c = ' ' || c = '\n' || c = '\t' || c = '\r'

/-- The text from its first character that is no white space. -/
def skipSpace (cs : List Char) : List Char :=
  cs.dropWhile isSpace

/-! ## Numbers -/

/-- One digit or more. -/
def digitRun : Scan (List Char) := fun cs =>
  match cs.takeWhile Char.isDigit with
  | [] => none
  | ds => some (ds, cs.dropWhile Char.isDigit)

/-- The digits before the point: zero stands alone. -/
def wholeDigits : Scan (List Char) := fun cs => do
  let (ds, rest) ← digitRun cs
  match ds with
  | '0' :: _ :: _ => none
  | _ => some (ds, rest)

/-- The digits after a point, if there is a point. -/
def fractionDigits : Scan (List Char)
  | '.' :: cs => digitRun cs
  | cs => some ([], cs)

/-- A signed power of ten, if there is one. -/
def exponentPart : Scan (Option Int) := fun cs =>
  match cs with
  | c :: cs' =>
    if c = 'e' ∨ c = 'E' then
      match cs' with
      | '-' :: ds => (digitRun ds).map fun r => (some (-(Nat.ofDigitChars 10 r.1 0 : Int)), r.2)
      | '+' :: ds => (digitRun ds).map fun r => (some (Nat.ofDigitChars 10 r.1 0 : Int), r.2)
      | ds => (digitRun ds).map fun r => (some (Nat.ofDigitChars 10 r.1 0 : Int), r.2)
    else some (none, cs)
  | [] => some (none, [])

/-- Takes digits into a significand as long as it has 64 bits, and leaves the others. -/
def takeDigits (significand : Nat) : List Char → Nat × List Char
  | [] => (significand, [])
  | c :: cs =>
    let next := 10 * significand + (c.toNat - '0'.toNat)
    if next < 2 ^ 64 then takeDigits next cs else (significand, c :: cs)

/-- The binary number for the digits before and after the point. Digits that do not fit into the
significand do not count; where they stand before the point, their places do. -/
def floatValue? (negative : Bool) (whole fraction : List Char) (exponent : Int) :
    Option Binary64 :=
  let (significand, dropped) := takeDigits 0 whole
  let (significand, ignored) := takeDigits significand fraction
  Binary64.ofDecimal? negative significand
    (exponent + dropped.length - (fraction.length - ignored.length))

/-- The value of a number text. A text without point and power of ten is a whole number if it fits
into 64 bits, with or without a sign; the text of minus zero is not. -/
def numberValue? (negative : Bool) (whole fraction : List Char) (exponent : Option Int) :
    Option Json :=
  let n := Nat.ofDigitChars 10 whole 0
  let float := (floatValue? negative whole fraction (exponent.getD 0)).map Json.float
  if fraction.isEmpty ∧ exponent = none then
    if negative ∧ 0 < n ∧ n ≤ 2 ^ 63 then some (.integer (-n))
    else if ¬negative ∧ n < 2 ^ 64 then some (.integer n)
    else float
  else float

/-- A number. -/
def number : Scan Json := fun cs => do
  let (negative, cs) := match cs with
    | '-' :: cs => (true, cs)
    | cs => (false, cs)
  let (whole, cs) ← wholeDigits cs
  let (fraction, cs) ← fractionDigits cs
  let (exponent, cs) ← exponentPart cs
  let v ← numberValue? negative whole fraction exponent
  some (v, cs)

/-! ## Strings -/

/-- The value of a hexadecimal digit. -/
def hexDigit? (c : Char) : Option Nat :=
  if c.isDigit then some (c.toNat - '0'.toNat)
  else if 'a' ≤ c ∧ c ≤ 'f' then some (c.toNat - 'a'.toNat + 10)
  else if 'A' ≤ c ∧ c ≤ 'F' then some (c.toNat - 'A'.toNat + 10)
  else none

/-- A number of four hexadecimal digits. -/
def codeUnit : Scan Nat
  | a :: b :: c :: d :: cs => do
    let a ← hexDigit? a
    let b ← hexDigit? b
    let c ← hexDigit? c
    let d ← hexDigit? d
    some (((a * 16 + b) * 16 + c) * 16 + d, cs)
  | _ => none

/-- The character that a code unit stands for, together with the unit after it where the two are a
pair of surrogates. -/
def unitChar : Scan Char := fun cs => do
  let (high, cs) ← codeUnit cs
  if high < 0xD800 ∨ 0xDFFF < high then some (Char.ofNat high, cs)
  else if 0xDC00 ≤ high then none
  else match cs with
    | '\\' :: 'u' :: cs => do
      let (low, cs) ← codeUnit cs
      if 0xDC00 ≤ low ∧ low ≤ 0xDFFF then
        some (Char.ofNat (0x10000 + (high - 0xD800) * 0x400 + (low - 0xDC00)), cs)
      else none
    | _ => none

/-- The character after a reverse solidus, and the character that the two stand for. -/
def shortEscapes : List (Char × Char) :=
  [('"', '"'), ('\\', '\\'), ('/', '/'), ('b', '\x08'), ('f', '\x0c'), ('n', '\n'), ('r', '\r'),
    ('t', '\t')]

/-- The character that an escape stands for, read after its reverse solidus. -/
def escape : Scan Char
  | 'u' :: cs => unitChar cs
  | c :: cs => (shortEscapes.lookup c).map fun meant => (meant, cs)
  | [] => none

/-- The characters of a string up to its closing quotation mark. The count bounds the characters,
and those that were read are held in reverse. -/
def stringRest : (count : Nat) → (read : List Char) → Scan String
  | _, read, '"' :: cs => some (String.ofList read.reverse, cs)
  | count + 1, read, '\\' :: cs => do
    let (c, cs) ← escape cs
    stringRest count (c :: read) cs
  | count + 1, read, c :: cs => if c.toNat < 0x20 then none else stringRest count (c :: read) cs
  | _, _, _ => none

/-- A string, read after its opening quotation mark. -/
def string : Scan String := fun cs =>
  stringRest cs.length [] cs

/-! ## Values -/

/-- Items with commas between them up to a closing bracket; there is at least one. The count bounds
the items, and those that were read are held in reverse. -/
def itemsRest {α : Type} (item : Scan α) (close : Char) :
    (count : Nat) → (read : List α) → Scan (List α)
  | 0, _, _ => none
  | count + 1, read, cs => do
    let (x, cs) ← item cs
    match skipSpace cs with
    | c :: cs =>
      if c = close then some ((x :: read).reverse, cs)
      else if c = ',' then itemsRest item close count (x :: read) cs
      else none
    | [] => none

/-- Items with commas between them up to a closing bracket. -/
def items {α : Type} (item : Scan α) (close : Char) : Scan (List α) := fun cs =>
  match skipSpace cs with
  | c :: rest => if c = close then some ([], rest) else itemsRest item close cs.length [] cs
  | [] => none

/-- A key and, after a colon, a value. -/
def member (value : Scan Json) : Scan (String × Json) := fun cs =>
  match skipSpace cs with
  | '"' :: cs => do
    let (key, cs) ← string cs
    match skipSpace cs with
    | ':' :: cs => do
      let (v, cs) ← value cs
      some ((key, v), cs)
    | _ => none
  | _ => none

/-- A value in which brackets are nested no deeper than given. -/
def value (depth : Nat) : Scan Json := fun cs =>
  match skipSpace cs with
  | 'n' :: 'u' :: 'l' :: 'l' :: cs => some (.null, cs)
  | 't' :: 'r' :: 'u' :: 'e' :: cs => some (.bool true, cs)
  | 'f' :: 'a' :: 'l' :: 's' :: 'e' :: cs => some (.bool false, cs)
  | '"' :: cs => (string cs).map fun r => (.string r.1, r.2)
  | '[' :: cs =>
    match depth with
    | 0 => none
    | depth + 1 => (items (value depth) ']' cs).map fun r => (.array r.1, r.2)
  | '{' :: cs =>
    match depth with
    | 0 => none
    | depth + 1 => (items (member (value depth)) '}' cs).map fun r => (ofMembers r.1, r.2)
  | cs => number cs

end Scan

/-- The value of a document whose brackets are nested no deeper than given. -/
def parseWithin? (depth : Nat) (text : String) : Option Json := do
  let (v, rest) ← Scan.value depth text.toList
  if (Scan.skipSpace rest).isEmpty then some v else none

/-- The nesting that a document may have. -/
def nestingLimit : Nat := 127

/-- The value of a document. -/
def parse? (text : String) : Option Json :=
  parseWithin? nestingLimit text

end Verdict.Json
