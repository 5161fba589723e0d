import Verdict.Text.Blank
import Verdict.Text.Digits

/-!
# Calendar dates

Days of the Gregorian calendar, extended to all years from -9999 to 9999. A date has a day number,
which counts days without a gap, and a text of the form year, month, day.
-/

namespace Verdict

/-- Every fourth year is a leap year, but of the full centuries only every fourth one. -/
def isLeapYear (year : Int) : Bool :=
  year % 4 = 0 && (year % 100 ≠ 0 || year % 400 = 0)

/-- The days of a month; no month outside 1 to 12 has any. -/
def daysInMonth (year : Int) (month : Nat) : Nat :=
  if month = 2 then if isLeapYear year then 29 else 28
  else if month ∈ [4, 6, 9, 11] then 30
  else if 1 ≤ month ∧ month ≤ 12 then 31
  else 0

/-- A day of the calendar. -/
structure Date where
  year : Int
  month : Nat
  day : Nat
  le_year : -9999 ≤ year
  year_le : year ≤ 9999
  one_le_day : 1 ≤ day
  day_le : day ≤ daysInMonth year month
deriving DecidableEq

namespace Date

/-- The day with the given year, month and day of the month, if there is one. -/
def of? (year : Int) (month day : Nat) : Option Date :=
  if h : (-9999 ≤ year ∧ year ≤ 9999) ∧ 1 ≤ day ∧ day ≤ daysInMonth year month then
    some ⟨year, month, day, h.1.1, h.1.2, h.2.1, h.2.2⟩
  else none

/-- Days from the first day of year 1 to the first day of the given year. -/
def daysBeforeYear (year : Int) : Int :=
  let y := year - 1
  365 * y + y / 4 - y / 100 + y / 400

/-- Days from the first day of the year to the first day of the given month. -/
def daysBeforeMonth (year : Int) (month : Nat) : Nat :=
  (List.range' 1 (month - 1)).foldl (fun days m => days + daysInMonth year m) 0

/-- The Julian day number; the first day of year 1 has number 1721426. -/
def julianDay (d : Date) : Int :=
  1721426 + daysBeforeYear d.year + daysBeforeMonth d.year d.month + (d.day - 1)

/-- Days from one date to another, negative when the other comes first. -/
def daysUntil (start finish : Date) : Int :=
  finish.julianDay - start.julianDay

/-- The order of the calendar: by year, then by month, then by day. -/
def order (a b : Date) : Ordering :=
  ((compare a.year b.year).then (compare a.month b.month)).then (compare a.day b.day)

/-- The characters of a date. The year has four digits and, before year 0, a minus sign. -/
def chars (d : Date) : List Char :=
  (if d.year < 0 then ['-'] else []) ++ Text.padded 4 d.year.natAbs ++
    '-' :: Text.padded 2 d.month ++ '-' :: Text.padded 2 d.day

/-- The text of a date. -/
def text (d : Date) : String :=
  String.ofList d.chars

/-- Reads a year of four digits, a month of two and a day of two. -/
def ofUnsignedChars? (negative : Bool) : List Char → Option Date
  | [y₁, y₂, y₃, y₄, '-', m₁, m₂, '-', d₁, d₂] => do
    let year ← Text.natural? [y₁, y₂, y₃, y₄]
    let month ← Text.natural? [m₁, m₂]
    let day ← Text.natural? [d₁, d₂]
    of? (if negative then -(year : Int) else year) month day
  | _ => none

/-- Reads a date; the year may carry a sign, and blank characters around the date do not count. -/
def ofChars? (cs : List Char) : Option Date :=
  match Text.trim cs with
  | '-' :: cs => ofUnsignedChars? true cs
  | '+' :: cs => ofUnsignedChars? false cs
  | cs => ofUnsignedChars? false cs

example : (ofChars? "2025-05-01".toList).map julianDay = some 2460797 := by cbv

end Date

end Verdict
