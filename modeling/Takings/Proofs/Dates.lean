import Mathlib.Data.Int.Order.Basic
import Mathlib.Order.Compare
import Mathlib.Tactic.IntervalCases
import Takings.Calendar.Date

/-!
# Day numbers

The days of the calendar are numbered in their order, and those of a year or of a month one after
the other.
-/
namespace Takings

namespace Calendar

/-! ### Months -/

variable {year year' : Int} {month month' : Nat}

theorem daysIn_mem (year : Int) (h : 1 ≤ month ∧ month ≤ 12) :
    28 ≤ daysIn year month ∧ daysIn year month ≤ 31 := by
  obtain ⟨h1, h12⟩ := h
  cases hl : isLeap year <;> interval_cases month <;> simp [daysIn, hl]

/-- Only the months 1 to 12 have days. -/
theorem month_mem (h : 0 < daysIn year month) : 1 ≤ month ∧ month ≤ 12 := by
  rw [daysIn.eq_def] at h
  split at h <;> omega

theorem daysBeforeMonth_mono (year : Int) (h : month ≤ month') :
    daysBeforeMonth year month ≤ daysBeforeMonth year month' := by
  induction h with
  | refl => exact Nat.le_refl _
  | step _ ih => exact Nat.le_trans ih (Nat.le_add_right _ _)

/-- A month is over before a later one begins. -/
theorem daysBeforeMonth_add_daysIn_le (year : Int) (h : month < month') :
    daysBeforeMonth year month + daysIn year month ≤ daysBeforeMonth year month' :=
  daysBeforeMonth_mono year (Nat.succ_le_of_lt h)

/-! ### Years -/

/-- The months make up the year. -/
theorem daysBeforeYear_succ (year : Int) :
    daysBeforeYear (year + 1) = daysBeforeYear year + daysBeforeMonth year 13 := by
  have hmonths : daysBeforeMonth year 13 = 337 + daysIn year 2 := by
    simp only [daysBeforeMonth, daysIn]
    omega
  rw [hmonths]
  cases hl : isLeap year
  all_goals
    simp only [daysBeforeYear, daysIn, hl, if_true, Bool.false_eq_true, if_false]
    simp [isLeap] at hl
    omega

theorem daysBeforeYear_mono (h : year ≤ year') : daysBeforeYear year ≤ daysBeforeYear year' := by
  simp only [daysBeforeYear]
  omega

/-- A year is over before a later one begins. -/
theorem daysBeforeYear_succ_le (h : year < year') :
    daysBeforeYear (year + 1) ≤ daysBeforeYear year' :=
  daysBeforeYear_mono (Int.add_one_le_of_lt h)

end Calendar

namespace Date

open Calendar

variable {a b : Date}

theorem month_mem (d : Date) : 1 ≤ d.month ∧ d.month ≤ 12 :=
  Calendar.month_mem (Nat.lt_of_lt_of_le d.day_mem.1 d.day_mem.2)

theorem month_lt (d : Date) : d.month < 13 :=
  Nat.lt_succ_of_le d.month_mem.2

/-- A day is within its year. -/
theorem dayNumber_mem (d : Date) : daysBeforeYear d.year - 719528 ≤ d.dayNumber ∧
    d.dayNumber < daysBeforeYear (d.year + 1) - 719528 := by
  have hday := d.day_mem
  have hmonth := daysBeforeMonth_add_daysIn_le d.year d.month_lt
  rw [daysBeforeYear_succ, dayNumber]
  omega

theorem dayNumber_lt_of_year_lt (h : a.year < b.year) : a.dayNumber < b.dayNumber := by
  have ha := a.dayNumber_mem
  have hb := b.dayNumber_mem
  have hy := daysBeforeYear_succ_le h
  omega

theorem dayNumber_lt_of_month_lt (hy : a.year = b.year) (h : a.month < b.month) :
    a.dayNumber < b.dayNumber := by
  have ha := a.day_mem
  have hb := b.day_mem
  have hm := daysBeforeMonth_add_daysIn_le b.year h
  rw [hy] at ha
  rw [dayNumber, dayNumber, hy]
  omega

/-- Days are in the order of their numbers. -/
theorem compare_eq (a b : Date) : a.compare b = Ord.compare a.dayNumber b.dayNumber := by
  rw [compare]
  rcases lt_trichotomy a.year b.year with hy | hy | hy
  · rw [compare_lt_iff_lt.mpr hy, compare_lt_iff_lt.mpr (dayNumber_lt_of_year_lt hy)]
    rfl
  · rw [compare_eq_iff_eq.mpr hy]
    rcases lt_trichotomy a.month b.month with hm | hm | hm
    · rw [compare_lt_iff_lt.mpr hm, compare_lt_iff_lt.mpr (dayNumber_lt_of_month_lt hy hm)]
      rfl
    · have hd : a.dayNumber - b.dayNumber = (a.day : Int) - b.day := by
        rw [dayNumber, dayNumber, hy, hm]
        omega
      rw [compare_eq_iff_eq.mpr hm]
      show Ord.compare a.day b.day = _
      rcases lt_trichotomy a.day b.day with h | h | h
      · rw [compare_lt_iff_lt.mpr h, compare_lt_iff_lt.mpr (by omega)]
      · rw [compare_eq_iff_eq.mpr h, compare_eq_iff_eq.mpr (by omega)]
      · rw [compare_gt_iff_gt.mpr h, compare_gt_iff_gt.mpr (by omega)]
    · rw [compare_gt_iff_gt.mpr hm, compare_gt_iff_gt.mpr (dayNumber_lt_of_month_lt hy.symm hm)]
      rfl
  · rw [compare_gt_iff_gt.mpr hy, compare_gt_iff_gt.mpr (dayNumber_lt_of_year_lt hy)]
    rfl

theorem eq_of_compare_eq (h : a.compare b = .eq) : a = b := by
  rw [compare, Ordering.then_eq_eq, Ordering.then_eq_eq] at h
  obtain ⟨hy, hm, hd⟩ := h
  cases a
  cases b
  simp only [mk.injEq]
  exact ⟨compare_eq_iff_eq.mp hy, compare_eq_iff_eq.mp hm, compare_eq_iff_eq.mp hd⟩

theorem dayNumber_inj : a.dayNumber = b.dayNumber ↔ a = b := by
  refine ⟨fun h => eq_of_compare_eq ?_, congrArg dayNumber⟩
  rw [compare_eq, compare_eq_iff_eq.mpr h]

end Date

end Takings
