import Verdict.Numeric.Power

/-!
# Decimal digits

Numbers written with the ten ASCII digits: reading a run of digits, reading an integer with an
optional sign, and writing a number with at least a given count of digits.
-/

namespace Verdict.Text

/-- The value of a decimal digit. -/
def digit? (c : Char) : Option Nat :=
  if c.isDigit then some (c.toNat - '0'.toNat) else none

/-- The number that a text of decimal digits writes; there is at least one digit. -/
def natural? (cs : List Char) : Option Nat :=
  if cs.isEmpty || !cs.all Char.isDigit then none else some (Nat.ofDigitChars 10 cs 0)

/-- A natural number that may carry a plus sign. -/
def unsigned? : List Char → Option Nat
  | '+' :: cs => natural? cs
  | cs => natural? cs

/-- A natural number that may carry a plus or a minus sign. -/
def integer? : List Char → Option Int
  | '-' :: cs => (natural? cs).map fun n => -(n : Int)
  | cs => (unsigned? cs).map fun n => (n : Int)

/-- The decimal digits of a number. -/
def digits (n : Nat) : List Char :=
  Nat.toDigits 10 n

/-- The decimal digits of a number, with zeros in front up to the given width. -/
def padded (width n : Nat) : List Char :=
  (digits n).leftpad width '0'

theorem isDigit_of_mem_digits {c : Char} {n : Nat} (h : c ∈ digits n) : c.isDigit = true :=
  Nat.isDigit_of_mem_toDigits (by decide) (by decide) h

theorem digits_ne_nil (n : Nat) : digits n ≠ [] :=
  Nat.toDigits_ne_nil

/-- Reading the digits of a number gives the number back. -/
@[simp] theorem natural?_digits (n : Nat) : natural? (digits n) = some n := by
  have hall : ∀ c ∈ Nat.toDigits 10 n, c.isDigit = true := fun _ hc => isDigit_of_mem_digits hc
  simpa [natural?, digits] using hall

end Verdict.Text
