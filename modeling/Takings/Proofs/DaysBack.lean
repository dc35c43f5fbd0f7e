import Takings.Proofs.Dates

/-!
# Going back in the calendar

The day before a day has the number before its number, over the ends of months and years alike. So
many days before a day there is a day unless the calendar has not begun, and the same holds of the
first days of months.
-/
namespace Takings

namespace Calendar

/-- The first day of the calendar. -/
def firstDay : Date :=
  ⟨firstYear, 1, 1, by decide, by decide⟩

end Calendar

namespace Date

open Calendar

variable {d e : Date} {n : Nat}

theorem ofParts?_eq_some {year : Int} {month day : Nat} (hy : firstYear ≤ year ∧ year ≤ lastYear)
    (hd : 1 ≤ day ∧ day ≤ daysIn year month) :
    ofParts? year month day = some ⟨year, month, day, hy, hd⟩ := by
  rw [ofParts?, dif_pos hy, dif_pos hd]

theorem ofParts?_eq_none {year : Int} (hy : ¬ (firstYear ≤ year ∧ year ≤ lastYear))
    (month day : Nat) : ofParts? year month day = none :=
  dif_neg hy

/-! ### Days -/

/-- Days at the start of the first month of a year. -/
theorem dayNumber_of_january (h : d.month = 1) :
    d.dayNumber = daysBeforeYear d.year + d.day - 719529 := by
  simp only [dayNumber, h, daysBeforeMonth, daysIn]
  omega

theorem firstDay_le (d : Date) : firstDay.dayNumber ≤ d.dayNumber := by
  have hd := d.dayNumber_mem.1
  have hy := daysBeforeYear_mono d.year_mem.1
  have hf : firstDay.dayNumber = daysBeforeYear firstYear + 1 - 719529 := rfl
  omega

/-- The days of the first month of the calendar. -/
theorem lt_firstDay_add_iff (hn : n ≤ 31) : d.dayNumber < firstDay.dayNumber + n ↔
    d.year = firstYear ∧ d.month = 1 ∧ d.day ≤ n := by
  have hfirst : firstDay.dayNumber = daysBeforeYear firstYear + 1 - 719529 := rfl
  constructor
  · intro h
    have hyear : d.year = firstYear := by
      rcases Int.lt_or_eq_of_le d.year_mem.1 with hy | hy
      · have hd := d.dayNumber_mem.1
        have hnext := daysBeforeYear_succ_le hy
        have hlength : daysBeforeYear (firstYear + 1) = daysBeforeYear firstYear + 365 := by
          decide
        omega
      · exact hy.symm
    have hmonth : d.month = 1 := by
      rcases Nat.lt_or_eq_of_le d.month_mem.1 with hm | hm
      · have hbefore : daysBeforeMonth d.year 2 ≤ daysBeforeMonth d.year d.month :=
          daysBeforeMonth_mono d.year hm
        have hjanuary : daysBeforeMonth d.year 2 = 31 := rfl
        have hday := d.day_mem.1
        rw [hfirst, dayNumber, hyear] at h
        rw [hyear] at hbefore hjanuary
        omega
      · exact hm.symm
    have hnumber := dayNumber_of_january hmonth
    rw [hyear] at hnumber
    exact ⟨hyear, hmonth, by omega⟩
  · rintro ⟨hyear, hmonth, hday⟩
    rw [dayNumber_of_january hmonth, hyear]
    omega

/-- The day before the first one is outside the calendar. -/
theorem pred?_firstDay : firstDay.pred? = none := by
  decide

/-- The day before any other day. -/
theorem exists_pred (h : firstDay.dayNumber < d.dayNumber) :
    ∃ e, d.pred? = some e ∧ e.dayNumber + 1 = d.dayNumber := by
  have hday := d.day_mem
  have hmonth := d.month_mem
  rw [pred?]
  split
  · refine ⟨_, ofParts?_eq_some d.year_mem (by omega), ?_⟩
    simp only [dayNumber]
    omega
  · split
    · obtain ⟨m, hm⟩ : ∃ m, d.month = m + 1 := ⟨d.month - 1, by omega⟩
      have hdays := daysIn_mem d.year (by omega : 1 ≤ m ∧ m ≤ 12)
      have hpred : d.month - 1 = m := by omega
      rw [hpred]
      refine ⟨_, ofParts?_eq_some d.year_mem ⟨by omega, Nat.le_refl _⟩, ?_⟩
      simp only [dayNumber, hm, daysBeforeMonth]
      omega
    · have hnumber := dayNumber_of_january (d := d) (by omega)
      have hfirst : firstDay.dayNumber = daysBeforeYear firstYear + 1 - 719529 := rfl
      have hyear : firstYear < d.year := by
        rcases Int.lt_or_eq_of_le d.year_mem.1 with hy | hy
        · exact hy
        · rw [← hy] at hnumber
          omega
      have hlast := d.year_mem.2
      have hsucc := daysBeforeYear_succ (d.year - 1)
      rw [Int.sub_add_cancel] at hsucc
      refine ⟨_, ofParts?_eq_some ⟨by omega, by omega⟩ ⟨by decide, Nat.le_refl 31⟩, ?_⟩
      have hdec : daysBeforeMonth (d.year - 1) 13 = daysBeforeMonth (d.year - 1) 12 + 31 := rfl
      rw [hnumber]
      simp only [dayNumber]
      omega

/-- So many days before a day there is a day, if the calendar has begun. -/
theorem exists_daysBack (h : firstDay.dayNumber + n ≤ d.dayNumber) :
    ∃ e, d.daysBack? n = some e ∧ e.dayNumber + n = d.dayNumber := by
  induction n with
  | zero => exact ⟨d, rfl, Int.add_zero _⟩
  | succ n ih =>
    obtain ⟨c, hc, hn⟩ := ih (by omega)
    obtain ⟨e, he, hp⟩ := exists_pred (d := c) (by omega)
    exact ⟨e, by rw [daysBack?, hc, Option.bind_some, he], by omega⟩

theorem daysBack?_eq_none (h : d.dayNumber < firstDay.dayNumber + n) : d.daysBack? n = none := by
  induction n with
  | zero =>
    have hle := d.firstDay_le
    omega
  | succ n ih =>
    rw [daysBack?]
    by_cases hn : firstDay.dayNumber + n ≤ d.dayNumber
    · obtain ⟨c, hc, hnumber⟩ := exists_daysBack hn
      have hfirst : c = firstDay := dayNumber_inj.mp (by omega)
      rw [hc, hfirst, Option.bind_some, pred?_firstDay]
    · rw [ih (by omega), Option.bind_none]

theorem daysBack?_eq_none_iff :
    d.daysBack? n = none ↔ d.dayNumber < firstDay.dayNumber + n := by
  refine ⟨fun h => ?_, daysBack?_eq_none⟩
  by_contra hn
  obtain ⟨e, he, -⟩ := exists_daysBack (n := n) (d := d) (by omega)
  rw [h] at he
  cases he

theorem daysBack?_eq_some_iff : d.daysBack? n = some e ↔ e.dayNumber + n = d.dayNumber := by
  have hle := e.firstDay_le
  constructor
  · intro h
    have hn : ¬ d.daysBack? n = none := by
      rw [h]
      exact Option.some_ne_none _
    rw [daysBack?_eq_none_iff] at hn
    obtain ⟨c, hc, hnumber⟩ := exists_daysBack (n := n) (d := d) (by omega)
    rw [h] at hc
    cases hc
    exact hnumber
  · intro h
    obtain ⟨c, hc, hnumber⟩ := exists_daysBack (n := n) (d := d) (by omega)
    rw [hc, dayNumber_inj.mp (by omega : c.dayNumber = e.dayNumber)]

/-- The days are in the order of their numbers. -/
theorem isLE_compare_iff : (d.compare e).isLE = true ↔ d.dayNumber ≤ e.dayNumber := by
  rw [compare_eq]
  exact Std.LawfulBCmp.isLE_iff_le

theorem compare_eq_lt_iff : d.compare e = .lt ↔ d.dayNumber < e.dayNumber := by
  rw [compare_eq, compare_lt_iff_lt]

/-! ### Months -/

theorem dayNumber_lt_of_monthNumber_lt (h : e.monthNumber < d.monthNumber) :
    e.dayNumber < d.dayNumber := by
  have he := e.month_mem
  have hd := d.month_mem
  simp only [monthNumber] at h
  rcases lt_trichotomy e.year d.year with hy | hy | hy
  · exact dayNumber_lt_of_year_lt hy
  · exact dayNumber_lt_of_month_lt hy (by omega)
  · omega

/-- The first day of a month comes no later than the other days of it and of later months. -/
theorem dayNumber_le_of_monthNumber_le (h1 : e.day = 1) (h : e.monthNumber ≤ d.monthNumber) :
    e.dayNumber ≤ d.dayNumber := by
  rcases Int.lt_or_eq_of_le h with hlt | heq
  · exact Int.le_of_lt (dayNumber_lt_of_monthNumber_lt hlt)
  · have he := e.month_mem
    have hd := d.month_mem
    have hday := d.day_mem.1
    simp only [monthNumber] at heq
    have hy : e.year = d.year := by omega
    have hm : e.month = d.month := by omega
    simp only [dayNumber, hy, hm, h1]
    omega

/-- So many months before the month of a day there is a month, if the calendar has begun. -/
theorem exists_monthStart (h : firstDay.monthNumber + n ≤ d.monthNumber) :
    ∃ e, d.monthStart? n = some e ∧ e.day = 1 ∧ e.monthNumber + n = d.monthNumber := by
  have hyear := d.year_mem
  have hmonth := d.month_mem
  have hfirst : firstDay.monthNumber = 12 * firstYear := rfl
  have hdays := daysIn_mem ((d.monthNumber - n) / 12)
    (by omega : 1 ≤ ((d.monthNumber - n) % 12 + 1).toNat ∧
      ((d.monthNumber - n) % 12 + 1).toNat ≤ 12)
  have hn : d.monthNumber = 12 * d.year + d.month - 1 := rfl
  refine ⟨_, ofParts?_eq_some ⟨by omega, by omega⟩ ⟨Nat.le_refl 1, by omega⟩, rfl, ?_⟩
  simp only [monthNumber] at hn ⊢
  omega

theorem monthStart?_eq_none (h : d.monthNumber < firstDay.monthNumber + n) :
    d.monthStart? n = none := by
  have hfirst : firstDay.monthNumber = 12 * firstYear := rfl
  exact ofParts?_eq_none (by omega) _ _

theorem exists_yearStart (d : Date) :
    ∃ e, d.yearStart? = some e ∧ e.year = d.year ∧ e.month = 1 ∧ e.day = 1 :=
  ⟨_, ofParts?_eq_some d.year_mem ⟨Nat.le_refl 1, Nat.le_of_ble_eq_true rfl⟩, rfl, rfl, rfl⟩

end Date

end Takings
