import Verdict.Decimal.Basic
import Verdict.Numeric.Rounding
import Verdict.Text.Blank
import Verdict.Text.Digits

/-!
# Decimals as text

A decimal is written with all its places: a minus sign, at least one digit before the point, and
the point only where there are places. It is read from plain text, where digits beyond the limits
are rounded by the first of them, and, failing that, from a plain text with a power of ten.
-/

namespace Verdict.Decimal

open Text

/-! ## Writing -/

/-- The coefficient with the point before its last digits. -/
def unsignedText (coefficient scale : Nat) : List Char :=
  let ds := padded (scale + 1) coefficient
  if scale = 0 then ds
  else ds.take (ds.length - scale) ++ '.' :: ds.drop (ds.length - scale)

/-- The characters of a decimal. -/
def chars (d : Decimal) : List Char :=
  if d.negative then '-' :: unsignedText d.coefficient d.scale
  else unsignedText d.coefficient d.scale

/-- The text of a decimal. -/
def text (d : Decimal) : String :=
  String.ofList d.chars

/-! ## Reading plain text -/

/-- Beyond the limits a text goes on with digits and separators only. -/
def isTail (cs : List Char) : Bool :=
  cs.all fun c => c = '_' || (digit? c).isSome

/-- A coefficient is long if its digits before the last make a number that may grow out of 64 bits
with one digit more. The bound stays 255 below the tenth of 64 bits. -/
def isLong (coefficient : Nat) : Bool :=
  2 ^ 64 / 10 - 255 ≤ coefficient / 10

/-- The digit that decides the rounding after the last place. Separators in front of it are passed
over after a long coefficient; after any other, a separator counts as zero. -/
def roundingDigit (coefficient : Nat) (tail : List Char) : Nat :=
  let cs := if isLong coefficient then tail.dropWhile (· = '_') else tail
  (cs.head?.bind digit?).getD 0

/-- A coefficient with the digit that follows it rounded away. Where the next coefficient is too
long, one place more is given up. -/
def rounded? (negative : Bool) (coefficient scale digit : Nat) : Option Decimal :=
  if digit < 5 then ofParts? negative coefficient scale
  else if coefficient + 1 < 2 ^ 96 then ofParts? negative (coefficient + 1) scale
  else if scale = 0 then none
  else ofParts? negative ((coefficient + 5) / 10) (scale - 1)

/-- Reads the rest of a plain decimal. The places are counted once the point was met; a separator
may stand anywhere after the first digit. The first digit that does not fit rounds those before it,
and what follows is only tested. -/
def readFrom (negative : Bool) (coefficient : Nat) (places : Option Nat) (seenDigit : Bool) :
    List Char → Option Decimal
  | [] => if seenDigit then ofParts? negative coefficient (places.getD 0) else none
  | c :: cs =>
    if places = some 28 then
      if isTail (c :: cs) then
        rounded? negative coefficient 28 (roundingDigit coefficient (c :: cs))
      else none
    else match digit? c with
      | some d =>
        if coefficient * 10 + d < 2 ^ 96 then
          readFrom negative (coefficient * 10 + d) (places.map (· + 1)) true cs
        else if isTail cs then places.bind fun s => rounded? negative coefficient s d
        else none
      | none =>
        if c = '.' ∧ places = none then readFrom negative coefficient (some 0) seenDigit cs
        else if c = '_' ∧ seenDigit then readFrom negative coefficient places seenDigit cs
        else none

/-- Reads a plain decimal with an optional sign. -/
def ofPlain? : List Char → Option Decimal
  | '-' :: cs => readFrom true 0 none false cs
  | '+' :: cs => readFrom false 0 none false cs
  | cs => readFrom false 0 none false cs

/-! ## Reading text with a power of ten -/

/-- The decimal with the given number of places, the digits beyond them rounded away. -/
def shorten (d : Decimal) (scale : Nat) : Decimal where
  negative := d.negative
  coefficient := Numeric.dropDigitsHalfUp d.coefficient (d.scale - scale)
  scale := min d.scale scale
  coefficient_lt := Nat.lt_of_le_of_lt (Numeric.dropDigitsHalfUp_le _ _) d.coefficient_lt
  scale_le := Nat.le_trans (Nat.min_le_left _ _) d.scale_le

/-- Divides by a power of ten. Digits that would come after the last place are rounded away
first. -/
def shiftDown? (d : Decimal) (exponent : Nat) : Option Decimal :=
  if h : exponent ≤ 28 then
    let e := d.shorten (28 - exponent)
    some { e with
      scale := e.scale + exponent
      scale_le := by
        have : e.scale ≤ 28 - exponent := Nat.min_le_right _ _
        omega }
  else none

/-- Multiplies by a power of ten. Places are used up first; then the coefficient grows and must
still fit. -/
def shiftUp? (d : Decimal) (exponent : Nat) : Option Decimal :=
  if exponent ≤ d.scale then
    some { d with scale := d.scale - exponent, scale_le := Nat.le_trans (Nat.sub_le _ _) d.scale_le }
  else if 28 < exponent then none
  else ofParts? d.negative (d.coefficient * 10 ^ (exponent - d.scale)) 0

/-- The mark between a plain decimal and the power of ten. -/
def isExponentMark (c : Char) : Bool :=
  c = 'e' || c = 'E'

/-- Reads a plain decimal followed by a power of ten. -/
def ofScientific? (cs : List Char) : Option Decimal := do
  let base ← ofPlain? (cs.takeWhile fun c => !isExponentMark c)
  match (cs.dropWhile fun c => !isExponentMark c).drop 1 with
  | '-' :: exponent => base.shiftDown? (← unsigned? exponent)
  | exponent => base.shiftUp? (← unsigned? exponent)

/-- Reads a decimal. Blank characters around it and commas anywhere in it do not count. -/
def ofChars? (cs : List Char) : Option Decimal :=
  let cs := (trim cs).filter (· != ',')
  (ofPlain? cs).or (ofScientific? cs)

end Verdict.Decimal
