import Verdict.Proofs.DayCount

/-!
# Counting days in the calendar

From each day the calendar goes on to one next day: the next day of the month, or the first day of
the next month, or the first day of the next year. The difference of two day numbers is the number
of these steps between the two days, through all months, leap years and full centuries.
-/

namespace Verdict.Date

/-- The second day is the day after the first one. -/
inductive IsNext (a b : Date) : Prop where
  | sameMonth (hyear : b.year = a.year) (hmonth : b.month = a.month) (hday : b.day = a.day + 1)
  | nextMonth (hlast : a.day = daysInMonth a.year a.month) (hyear : b.year = a.year)
    (hmonth : b.month = a.month + 1) (hday : b.day = 1)
  | nextYear (hdecember : a.month = 12) (hlast : a.day = 31) (hyear : b.year = a.year + 1)
    (hmonth : b.month = 1) (hday : b.day = 1)

/-- The second day is the given number of days after the first one. -/
inductive DaysAfter : ℕ → Date → Date → Prop where
  | refl (a : Date) : DaysAfter 0 a a
  | step {n : ℕ} {a b c : Date} (h : IsNext a b) (hrest : DaysAfter n b c) : DaysAfter (n + 1) a c

/-- The calendar days from one date to another, negative when the other comes first. -/
inductive Elapsed (a b : Date) : ℤ → Prop where
  | forward {n : ℕ} (h : DaysAfter n a b) : Elapsed a b n
  | backward {n : ℕ} (h : DaysAfter n b a) : Elapsed a b (-n)

variable {a b : Date}

/-! ## One day -/

/-- The next day has the next day number. -/
theorem IsNext.julianDay_eq (h : IsNext a b) : b.julianDay = a.julianDay + 1 := by
  have hone := a.one_le_day
  cases h with
  | sameMonth hyear hmonth hday =>
    rw [julianDay, julianDay, hyear, hmonth, hday]
    push_cast
    ring
  | nextMonth hlast hyear hmonth hday =>
    rw [julianDay, julianDay, hyear, hmonth, hday, daysBeforeMonth_succ a.year a.month_mem.1,
      ← hlast]
    push_cast
    ring
  | nextYear hdecember hlast hyear hmonth hday =>
    have hmonths : daysBeforeMonth a.year 12 + 31 = if isLeapYear a.year then 366 else 365 := by
      rw [← daysBeforeMonth_thirteen, daysBeforeMonth_succ a.year (by decide)]
      rfl
    have hfirst : daysBeforeMonth (a.year + 1) 1 = 0 := rfl
    rw [julianDay, julianDay, hyear, hmonth, hday, hdecember, hlast, daysBeforeYear_succ, hfirst]
    by_cases hleap : isLeapYear a.year = true
    · rw [if_pos hleap] at hmonths ⊢
      omega
    · rw [if_neg hleap] at hmonths ⊢
      omega

theorem one_le_daysInMonth (year : ℤ) {month : ℕ} (h : 1 ≤ month) (hle : month ≤ 12) :
    1 ≤ daysInMonth year month := by
  rw [daysInMonth]
  split
  · split <;> decide
  · split
    · decide
    · rw [if_pos ⟨h, hle⟩]
      decide

/-- Every day that is not the last one of the calendar has a next one. -/
theorem exists_isNext (h : a.julianDay < b.julianDay) : ∃ next, IsNext a next := by
  by_cases hday : a.day < daysInMonth a.year a.month
  · exact ⟨{ a with day := a.day + 1, one_le_day := by omega, day_le := hday },
      .sameMonth rfl rfl rfl⟩
  have hlast : a.day = daysInMonth a.year a.month := le_antisymm a.day_le (not_lt.mp hday)
  by_cases hmonth : a.month < 12
  · exact ⟨⟨a.year, a.month + 1, 1, a.le_year, a.year_le, le_rfl,
      one_le_daysInMonth a.year (by omega) hmonth⟩, .nextMonth hlast rfl rfl rfl⟩
  have hdecember : a.month = 12 := by have := a.month_mem.2.1; omega
  have hthirtyFirst : a.day = 31 := by rw [hlast, hdecember]; rfl
  by_cases hyear : a.year < 9999
  · exact ⟨⟨a.year + 1, 1, 1, by have := a.le_year; omega, hyear, le_rfl,
      one_le_daysInMonth (a.year + 1) le_rfl (by decide)⟩,
      .nextYear hdecember hthirtyFirst rfl rfl rfl⟩
  -- The last day of the calendar has the largest day number, so no day is later.
  have hend : a.year = 9999 := le_antisymm a.year_le (not_lt.mp hyear)
  have hnumber : a.julianDay = 5373484 := by
    rw [julianDay, hend, hdecember, hthirtyFirst]
    decide
  have hbound := b.julianDay_bounds.2
  omega

/-! ## Any number of days -/

theorem DaysAfter.julianDay_eq {n : ℕ} (h : DaysAfter n a b) : b.julianDay = a.julianDay + n := by
  induction h with
  | refl a => exact (add_zero _).symm
  | step hnext _ ih =>
    rw [ih, hnext.julianDay_eq]
    push_cast
    ring

/-- The calendar goes on for as many days as there are to a later day. -/
theorem exists_daysAfter {n : ℕ} (h : a.julianDay + n ≤ b.julianDay) : ∃ c, DaysAfter n a c := by
  induction n generalizing a with
  | zero => exact ⟨a, .refl a⟩
  | succ n ih =>
    obtain ⟨next, hnext⟩ := exists_isNext (a := a) (b := b) (by omega)
    have hnumber := hnext.julianDay_eq
    obtain ⟨c, hc⟩ := ih (a := next) (by omega)
    exact ⟨c, .step hnext hc⟩

theorem daysAfter_iff {n : ℕ} : DaysAfter n a b ↔ b.julianDay = a.julianDay + n := by
  constructor
  · exact DaysAfter.julianDay_eq
  · intro h
    obtain ⟨c, hc⟩ := exists_daysAfter h.ge
    obtain rfl : c = b := julianDay_inj.mp (hc.julianDay_eq.trans h.symm)
    exact hc

/-- Day numbers count the days of the calendar in both directions. -/
theorem elapsed_iff {days : ℤ} : Elapsed a b days ↔ days = b.julianDay - a.julianDay := by
  constructor
  · rintro (h | h)
    · rw [h.julianDay_eq]
      ring
    · rw [h.julianDay_eq]
      ring
  · intro h
    obtain ⟨n, rfl | rfl⟩ := days.eq_nat_or_neg
    · exact .forward (daysAfter_iff.mpr (by omega))
    · exact .backward (daysAfter_iff.mpr (by omega))

/-- A day is later than a number of days after another one if more days have elapsed. Days after the
end of the calendar are none. -/
theorem exists_daysAfter_lt_iff {n : ℕ} :
    (∃ limit, DaysAfter n a limit ∧ limit.order b = .lt) ↔ n < b.julianDay - a.julianDay := by
  simp only [order_eq, compare_lt_iff_lt]
  constructor
  · rintro ⟨limit, hlimit, hlt⟩
    rw [hlimit.julianDay_eq] at hlt
    omega
  · intro h
    obtain ⟨limit, hlimit⟩ := exists_daysAfter (a := a) (b := b) (n := n) (by omega)
    refine ⟨limit, hlimit, ?_⟩
    rw [hlimit.julianDay_eq]
    omega

end Verdict.Date
