import Mathlib.Data.List.Basic
import Verdict.Date
import Verdict.Proofs.Digits

/-!
# Reading a written date

The text of a date is read as the same date. Year, month and day of the month are small enough for
their four and two digits.
-/

namespace Verdict

/-- Only the twelve months have days, and no more than 31 of them. -/
theorem month_of_daysInMonth {year : Int} {month day : Nat} (hone : 1 ≤ day)
    (hday : day ≤ daysInMonth year month) : 1 ≤ month ∧ month ≤ 12 ∧ day ≤ 31 := by
  unfold daysInMonth at hday
  split at hday
  · split at hday <;> omega
  · split at hday
    · rename_i h
      simp only [List.mem_cons, List.not_mem_nil, or_false] at h
      omega
    · split at hday <;> omega

namespace Date

open Text

theorem month_mem (d : Date) : 1 ≤ d.month ∧ d.month ≤ 12 ∧ d.day ≤ 31 :=
  month_of_daysInMonth d.one_le_day d.day_le

/-- The day of a date is the day with its year, month and day of the month. -/
@[simp] theorem of?_self (d : Date) : of? d.year d.month d.day = some d :=
  dif_pos ⟨⟨d.le_year, d.year_le⟩, d.one_le_day, d.day_le⟩

/-- The text of a date after its sign. -/
def unsignedChars (d : Date) : List Char :=
  padded 4 d.year.natAbs ++ '-' :: padded 2 d.month ++ '-' :: padded 2 d.day

theorem chars_eq (d : Date) :
    d.chars = (if d.year < 0 then ['-'] else []) ++ d.unsignedChars := by
  simp only [chars, unsignedChars, List.append_assoc]

theorem ofUnsignedChars?_unsignedChars (d : Date) (negative : Bool)
    (hsign : (if negative then -(d.year.natAbs : Int) else d.year.natAbs) = d.year) :
    ofUnsignedChars? negative d.unsignedChars = some d := by
  obtain ⟨hmonth, hmonth', hday⟩ := d.month_mem
  have hyear := d.le_year
  have hyear' := d.year_le
  obtain ⟨y₁, y₂, y₃, y₄, hy⟩ : ∃ y₁ y₂ y₃ y₄, padded 4 d.year.natAbs = [y₁, y₂, y₃, y₄] := by
    have hlen : (padded 4 d.year.natAbs).length = 4 :=
      length_padded_of_lt (by decide) (by omega)
    match padded 4 d.year.natAbs, hlen with
    | [y₁, y₂, y₃, y₄], _ => exact ⟨y₁, y₂, y₃, y₄, rfl⟩
  obtain ⟨m₁, m₂, hm⟩ : ∃ m₁ m₂, padded 2 d.month = [m₁, m₂] :=
    List.length_eq_two.mp (length_padded_of_lt (by decide) (by omega))
  obtain ⟨d₁, d₂, hd⟩ : ∃ d₁ d₂, padded 2 d.day = [d₁, d₂] :=
    List.length_eq_two.mp (length_padded_of_lt (by decide) (by omega))
  have hchars : d.unsignedChars = [y₁, y₂, y₃, y₄, '-', m₁, m₂, '-', d₁, d₂] := by
    rw [unsignedChars, hy, hm, hd]
    rfl
  rw [hchars, ofUnsignedChars?, ← hy, ← hm, ← hd]
  simp only [natural?_padded, Option.bind_eq_bind, Option.bind_some, hsign, of?_self]

/-- A date is written with digits and dashes. -/
theorem isDigit_of_mem_chars {d : Date} {c : Char} (h : c ∈ d.chars) :
    c = '-' ∨ c.isDigit = true := by
  rw [chars_eq, unsignedChars] at h
  simp only [List.mem_append, List.mem_cons] at h
  rcases h with h | (h | h | h) | h | h
  · split at h
    · exact Or.inl (List.mem_singleton.mp h)
    · exact absurd h List.not_mem_nil
  · exact Or.inr (isDigit_of_mem_padded h)
  · exact Or.inl h
  · exact Or.inr (isDigit_of_mem_padded h)
  · exact Or.inl h
  · exact Or.inr (isDigit_of_mem_padded h)

/-- The characters of a date are not blank. -/
theorem isBlank_of_mem_chars {d : Date} {c : Char} (h : c ∈ d.chars) : isBlank c = false := by
  rcases isDigit_of_mem_chars h with rfl | hdigit
  · decide
  · exact isBlank_of_isDigit hdigit

/-- A written date is read as itself. -/
@[simp] theorem ofChars?_chars (d : Date) : ofChars? d.chars = some d := by
  rw [ofChars?, trim_eq_self fun c => isBlank_of_mem_chars]
  by_cases hyear : d.year < 0
  · rw [chars_eq, if_pos hyear]
    exact ofUnsignedChars?_unsignedChars d true (by rw [if_pos rfl]; omega)
  · obtain ⟨c, rest, hcons⟩ := List.exists_cons_of_ne_nil (padded_ne_nil 4 d.year.natAbs)
    have hmem : c ∈ padded 4 d.year.natAbs := by
      rw [hcons]
      exact List.mem_cons_self
    have hc : c.isDigit = true := isDigit_of_mem_padded hmem
    have hchars : d.chars = c :: (rest ++ '-' :: padded 2 d.month ++ '-' :: padded 2 d.day) := by
      rw [chars_eq, if_neg hyear, unsignedChars, hcons]
      rfl
    have hread : ofUnsignedChars? false d.chars = some d := by
      rw [chars_eq, if_neg hyear]
      exact ofUnsignedChars?_unsignedChars d false (by rw [if_neg Bool.false_ne_true]; omega)
    rw [hchars] at hread ⊢
    split
    · rename_i heq
      cases heq
      exact absurd hc (by decide)
    · rename_i heq
      cases heq
      exact absurd hc (by decide)
    · exact hread

end Date

end Verdict
