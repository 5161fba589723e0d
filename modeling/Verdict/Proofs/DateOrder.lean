import Verdict.Proofs.DateText
import Verdict.Proofs.DecimalValue

/-!
# The order of dates

The day number counts the days of the calendar without a gap: a month ends before the next one
begins, and so does a year. So dates are in the order of their day numbers.
-/

namespace Verdict

namespace Date

theorem daysBeforeYear_succ (year : Int) :
    daysBeforeYear (year + 1) = daysBeforeYear year + if isLeapYear year then 366 else 365 := by
  have hleap : isLeapYear year = true ↔ year % 4 = 0 ∧ (year % 100 ≠ 0 ∨ year % 400 = 0) := by
    simp [isLeapYear]
  by_cases h : isLeapYear year = true
  · have hyear := hleap.mp h
    simp only [daysBeforeYear, if_pos h]
    omega
  · have hyear := mt hleap.mpr h
    simp only [daysBeforeYear, if_neg h]
    omega

theorem daysBeforeYear_mono {year year' : Int} (h : year ≤ year') :
    daysBeforeYear year ≤ daysBeforeYear year' := by
  simp only [daysBeforeYear]
  omega

theorem daysBeforeMonth_succ (year : Int) {month : Nat} (h : 1 ≤ month) :
    daysBeforeMonth year (month + 1) = daysBeforeMonth year month + daysInMonth year month := by
  obtain ⟨m, rfl⟩ : ∃ m, month = m + 1 := ⟨month - 1, by omega⟩
  simp [daysBeforeMonth, List.range'_concat, Nat.add_comm]

theorem daysBeforeMonth_mono (year : Int) {month month' : Nat} (h : 1 ≤ month)
    (hle : month ≤ month') : daysBeforeMonth year month ≤ daysBeforeMonth year month' := by
  induction month', hle using Nat.le_induction with
  | base => exact Nat.le_refl _
  | succ m hm ih =>
    rw [daysBeforeMonth_succ year (by omega)]
    omega

/-- The months of a year have 365 days, or 366 in a leap year. -/
theorem daysBeforeMonth_thirteen (year : Int) :
    daysBeforeMonth year 13 = if isLeapYear year then 366 else 365 := by
  cases hleap : isLeapYear year <;> simp [daysBeforeMonth, List.range', daysInMonth, hleap]

/-- A day of a month comes before the first day of each later month of the year. -/
theorem day_le_daysBeforeMonth (d : Date) {month : Nat} (h : d.month < month) :
    daysBeforeMonth d.year d.month + d.day ≤ daysBeforeMonth d.year month := by
  have hmonth := d.month_mem.1
  calc daysBeforeMonth d.year d.month + d.day
      ≤ daysBeforeMonth d.year d.month + daysInMonth d.year d.month :=
        Nat.add_le_add_left d.day_le _
    _ = daysBeforeMonth d.year (d.month + 1) := (daysBeforeMonth_succ d.year hmonth).symm
    _ ≤ daysBeforeMonth d.year month := daysBeforeMonth_mono d.year (by omega) h

/-- A day of a year comes before the first day of each later year. -/
theorem day_le_daysBeforeYear (d : Date) {year : Int} (h : d.year < year) :
    daysBeforeYear d.year + (daysBeforeMonth d.year d.month + d.day : Nat) ≤
      daysBeforeYear year := by
  have hmonth : d.month < 13 := by have := d.month_mem.2.1; omega
  have hday := d.day_le_daysBeforeMonth hmonth
  have hyear : daysBeforeYear (d.year + 1) ≤ daysBeforeYear year := daysBeforeYear_mono h
  rw [daysBeforeMonth_thirteen] at hday
  rw [daysBeforeYear_succ] at hyear
  by_cases hleap : isLeapYear d.year = true
  · rw [if_pos hleap] at hday hyear
    omega
  · rw [if_neg hleap] at hday hyear
    omega

theorem julianDay_lt_of_year {a b : Date} (h : a.year < b.year) : a.julianDay < b.julianDay := by
  have hday := a.day_le_daysBeforeYear h
  have hone := b.one_le_day
  simp only [julianDay]
  omega

theorem julianDay_lt_of_month {a b : Date} (hyear : a.year = b.year) (h : a.month < b.month) :
    a.julianDay < b.julianDay := by
  have hday := a.day_le_daysBeforeMonth h
  have hone := b.one_le_day
  simp only [julianDay, hyear] at hday ⊢
  omega

/-- Dates are in the order of their day numbers. -/
theorem order_eq (a b : Date) : a.order b = compare a.julianDay b.julianDay := by
  rw [order]
  rcases lt_trichotomy a.year b.year with hyear | hyear | hyear
  · rw [compare_lt_iff_lt.mpr hyear, compare_lt_iff_lt.mpr (julianDay_lt_of_year hyear)]
    rfl
  · rw [compare_eq_iff_eq.mpr hyear]
    rcases lt_trichotomy a.month b.month with hmonth | hmonth | hmonth
    · rw [compare_lt_iff_lt.mpr hmonth, compare_lt_iff_lt.mpr (julianDay_lt_of_month hyear hmonth)]
      rfl
    · have hdays : a.julianDay - a.day = b.julianDay - b.day := by
        simp only [julianDay, hyear, hmonth]
        omega
      rw [compare_eq_iff_eq.mpr hmonth]
      rcases lt_trichotomy a.day b.day with hday | hday | hday
      · rw [compare_lt_iff_lt.mpr hday, compare_lt_iff_lt.mpr (by omega)]
        rfl
      · rw [compare_eq_iff_eq.mpr hday, compare_eq_iff_eq.mpr (by omega)]
        rfl
      · rw [compare_gt_iff_gt.mpr hday, compare_gt_iff_gt.mpr (by omega)]
        rfl
    · rw [compare_gt_iff_gt.mpr hmonth,
        compare_gt_iff_gt.mpr (julianDay_lt_of_month hyear.symm hmonth)]
      rfl
  · rw [compare_gt_iff_gt.mpr hyear, compare_gt_iff_gt.mpr (julianDay_lt_of_year hyear)]
    rfl

theorem holds_order (c : Comparison) (a b : Date) :
    c.holds (a.order b) = c.relates a.julianDay b.julianDay := by
  rw [order_eq, Comparison.holds_compare]

/-- A date is known by its day number. -/
theorem julianDay_inj {a b : Date} : a.julianDay = b.julianDay ↔ a = b := by
  rw [← compare_eq_iff_eq, ← order_eq, order, Ordering.then_eq_eq, Ordering.then_eq_eq]
  simp only [compare_eq_iff_eq, and_assoc]
  constructor
  · rintro ⟨hyear, hmonth, hday⟩
    cases a
    cases b
    simp_all
  · rintro rfl
    exact ⟨rfl, rfl, rfl⟩

end Date

end Verdict
