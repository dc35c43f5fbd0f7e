import Mathlib.Data.List.Nodup
import Takings.Calendar.Period
import Takings.Proofs.DaysBack

/-!
# The windows of periods

Which text names which period, and which days each period covers on a day of the calendar. Only a
window of some number of days can begin before the calendar does, and then there is none; months
that are too early give way to the month of the day.
-/
namespace Takings

open Calendar

namespace Date

/-- One of the first `n` days of the calendar, all of them in its first month. -/
def IsAmongFirst (d : Date) (n : Nat) : Prop :=
  d.year = firstYear ∧ d.month = 1 ∧ d.day ≤ n

/-- The latest of the days before a day. -/
def IsDayBefore (e d : Date) : Prop :=
  e.compare d = .lt ∧ ∀ c : Date, c.compare d = .lt → (c.compare e).isLE = true

/-- The first day of the month so many months before that of a day; of the day's own month if no day
of the calendar is in the earlier one. -/
structure StartsMonth (first day : Date) (monthsBack : Nat) : Prop where
  day_eq : first.day = 1
  month_eq : (∃ d : Date, d.monthNumber + monthsBack = day.monthNumber) →
    first.monthNumber + monthsBack = day.monthNumber
  month_eq_self : (∀ d : Date, d.monthNumber + monthsBack ≠ day.monthNumber) →
    first.monthNumber = day.monthNumber

variable {d e day : Date} {n : Nat}

/-- Within a month, going back ends before the calendar exactly from its first days. -/
theorem daysBack?_eq_none_iff_isAmongFirst (hn : n ≤ 31) :
    d.daysBack? n = none ↔ d.IsAmongFirst n := by
  rw [daysBack?_eq_none_iff, lt_firstDay_add_iff hn, IsAmongFirst]

theorem isDayBefore_of_pred? (h : d.pred? = some e) : e.IsDayBefore d := by
  have hback : d.daysBack? 1 = some e := h
  rw [daysBack?_eq_some_iff] at hback
  constructor
  · rw [compare_eq_lt_iff]
    omega
  · intro c hc
    rw [compare_eq_lt_iff] at hc
    rw [isLE_compare_iff]
    omega

theorem eq_firstDay_of_pred? (h : d.pred? = none) : d = firstDay := by
  have hback : d.daysBack? 1 = none := h
  rw [daysBack?_eq_none_iff] at hback
  have hle := d.firstDay_le
  exact dayNumber_inj.mp (by omega)

/-- The months of the calendar have no gap. -/
theorem exists_monthNumber_iff :
    (∃ e : Date, e.monthNumber + n = d.monthNumber) ↔
      firstDay.monthNumber + n ≤ d.monthNumber := by
  constructor
  · rintro ⟨e, he⟩
    have hfirst : firstDay.monthNumber = 12 * firstYear := rfl
    have hnumber : e.monthNumber = 12 * e.year + e.month - 1 := rfl
    have hyear := e.year_mem.1
    have hmonth := e.month_mem.1
    omega
  · intro h
    obtain ⟨e, -, -, he⟩ := exists_monthStart h
    exact ⟨e, he⟩

theorem startsMonth_getD {own : Date} (hd : own.day = 1) (hm : own.monthNumber = day.monthNumber)
    (n : Nat) : ((day.monthStart? n).getD own).StartsMonth day n := by
  by_cases h : firstDay.monthNumber + n ≤ day.monthNumber
  · obtain ⟨first, hfirst, hday, hmonth⟩ := exists_monthStart h
    rw [hfirst, Option.getD_some]
    exact ⟨hday, fun _ => hmonth, fun hno => absurd hmonth (hno first)⟩
  · rw [monthStart?_eq_none (Int.not_le.mp h), Option.getD_none]
    exact ⟨hd, fun hex => absurd (exists_monthNumber_iff.mp hex) h, fun _ => hm⟩

/-- The month of a day has begun by then. -/
theorem StartsMonth.isLE (h : e.StartsMonth day n) : (e.compare day).isLE = true := by
  rw [isLE_compare_iff]
  refine dayNumber_le_of_monthNumber_le h.day_eq ?_
  by_cases hex : ∃ d : Date, d.monthNumber + n = day.monthNumber
  · have hmonth := h.month_eq hex
    omega
  · exact Int.le_of_eq (h.month_eq_self fun d hd => hex ⟨d, hd⟩)

end Date

namespace Window

def Contains (w : Window) (d : Date) : Prop :=
  (w.first.compare d).isLE = true ∧ (d.compare w.last).isLE = true

/-- A window of so many days. -/
def HasDays (w : Window) (n : Nat) : Prop :=
  ∃ days : List Date, days.Nodup ∧ days.length = n ∧ ∀ d, d ∈ days ↔ w.Contains d

variable {first day : Date} {n : Nat}

theorem contains_iff {w : Window} {d : Date} : w.Contains d ↔
    w.first.dayNumber ≤ d.dayNumber ∧ d.dayNumber ≤ w.last.dayNumber := by
  rw [Contains, Date.isLE_compare_iff, Date.isLE_compare_iff]

/-- From so many days before a day to the day itself there is one day more. -/
theorem hasDays_of_daysBack? (h : day.daysBack? n = some first) :
    HasDays ⟨first, day⟩ (n + 1) := by
  rw [Date.daysBack?_eq_some_iff] at h
  have hfirst := first.firstDay_le
  refine ⟨(List.range (n + 1)).filterMap day.daysBack?, ?_, ?_, ?_⟩
  · refine List.Nodup.filterMap ?_ List.nodup_range
    intro k k' d hk hk'
    rw [Option.mem_def, Date.daysBack?_eq_some_iff] at hk hk'
    omega
  · rw [List.filterMap_length_eq_length.mpr, List.length_range]
    intro k hk
    rw [List.mem_range] at hk
    obtain ⟨d, hd, -⟩ := Date.exists_daysBack (d := day) (n := k) (by omega)
    rw [hd, Option.isSome_some]
  · intro d
    rw [List.mem_filterMap, contains_iff]
    show _ ↔ first.dayNumber ≤ d.dayNumber ∧ d.dayNumber ≤ day.dayNumber
    constructor
    · rintro ⟨k, hk, hd⟩
      rw [List.mem_range] at hk
      rw [Date.daysBack?_eq_some_iff] at hd
      omega
    · rintro ⟨hlow, hhigh⟩
      refine ⟨(day.dayNumber - d.dayNumber).toNat, ?_, ?_⟩
      · rw [List.mem_range]
        omega
      · rw [Date.daysBack?_eq_some_iff]
        omega

theorem HasDays.isLE {w : Window} (h : w.HasDays n) (hn : 0 < n) :
    (w.first.compare w.last).isLE = true := by
  obtain ⟨days, -, hlength, hmem⟩ := h
  obtain ⟨d, hd⟩ := List.exists_mem_of_length_pos (hlength ▸ hn)
  have hc := contains_iff.mp ((hmem d).mp hd)
  rw [Date.isLE_compare_iff]
  omega

end Window

namespace Period

/-! ### Names -/

/-- A period whose name is the text, but for white space around it and the case of ASCII letters. -/
def NamedBy (text : Option String) (p : Period) : Prop :=
  ∃ t ∈ text, ∃ name ∈ p.token?, Text.sameLetters (Text.trim t) name = true

variable {text : Option String} {p q : Period} {day : Date} {w : Window}

theorem mem_all (p : Period) : p ∈ all := by
  cases p <;> decide

/-- No two names differ in the case of letters only. -/
theorem nodup_lowered :
    (all.map fun p => p.token?.map fun name => name.toList.map Char.toLower).Nodup := by
  decide

theorem NamedBy.unique (hp : NamedBy text p) (hq : NamedBy text q) : p = q := by
  obtain ⟨t, ht, name, hname, hsame⟩ := hp
  obtain ⟨t', ht', name', hname', hsame'⟩ := hq
  cases Option.mem_unique ht ht'
  have hp' := beq_iff_eq.mp hsame
  have hq' := beq_iff_eq.mp hsame'
  refine List.inj_on_of_nodup_map nodup_lowered p.mem_all q.mem_all ?_
  show p.token?.map _ = q.token?.map _
  rw [Option.mem_def.mp hname, Option.mem_def.mp hname', Option.map_some, Option.map_some, ← hp', hq']

theorem isNamed_iff {t : String} : p.isNamed t = true ↔ NamedBy (some t) p := by
  rw [isNamed]
  constructor
  · intro h
    split at h
    · rename_i name hname
      exact ⟨t, rfl, name, hname, h⟩
    · cases h
  · rintro ⟨t', ht, name, hname, hsame⟩
    cases Option.some.inj ht
    rw [Option.mem_def.mp hname]
    exact hsame

theorem ofText_of_namedBy (h : NamedBy text p) : ofText text = p := by
  cases text with
  | none =>
    obtain ⟨_, ht, -⟩ := h
    cases ht
  | some t =>
    rw [ofText]
    cases hf : all.find? fun q => q.isNamed t with
    | none =>
      have hp := List.find?_eq_none.mp hf p p.mem_all
      exact absurd (isNamed_iff.mpr h) hp
    | some q =>
      have hq := List.find?_some hf
      exact (isNamed_iff.mp hq).unique h

theorem ofText_of_not_namedBy (h : ∀ p, ¬ NamedBy text p) : ofText text = last30Days := by
  cases text with
  | none => rfl
  | some t =>
    have hf : (all.find? fun q => q.isNamed t) = none := by
      rw [List.find?_eq_none]
      exact fun q _ hq => h q (isNamed_iff.mp hq)
    rw [ofText, hf, Option.getD_none]

theorem not_namedBy_last30Days : ¬ NamedBy text last30Days := by
  rintro ⟨_, _, _, hname, _⟩
  cases hname

theorem ofText_eq_iff (hp : p ≠ last30Days) : ofText text = p ↔ NamedBy text p := by
  refine ⟨fun h => ?_, ofText_of_namedBy⟩
  by_cases hno : ∀ q, ¬ NamedBy text q
  · exact absurd ((ofText_of_not_namedBy hno).symm.trans h).symm hp
  · obtain ⟨q, hq⟩ := not_forall_not.mp hno
    rwa [← h, ofText_of_namedBy hq]

theorem ofText_eq_last30Days_iff : ofText text = last30Days ↔ ∀ p, ¬ NamedBy text p := by
  refine ⟨fun h p hp => ?_, ofText_of_not_namedBy⟩
  rw [ofText_of_namedBy hp] at h
  rw [h] at hp
  exact not_namedBy_last30Days hp

/-! ### Windows -/

/-- The days that a period covers on a day. -/
def IsWindow (p : Period) (day : Date) (w : Window) : Prop :=
  match p with
  | today => w.first = day ∧ w.last = day
  | yesterday =>
    w.first = w.last ∧ (w.last.IsDayBefore day ∨ day = firstDay ∧ w.last = firstDay)
  | last7Days => w.last = day ∧ w.HasDays 7
  | thisMonth => w.last = day ∧ w.first.StartsMonth day 0
  | last3Months => w.last = day ∧ w.first.StartsMonth day 2
  | last6Months => w.last = day ∧ w.first.StartsMonth day 5
  | thisYear => w.last = day ∧ w.first.year = day.year ∧ w.first.month = 1 ∧ w.first.day = 1
  | last30Days => w.last = day ∧ w.HasDays 30

theorem isWindow_yesterday (h : yesterday.window? day = some w) : IsWindow yesterday day w := by
  cases h
  refine ⟨rfl, ?_⟩
  cases hpred : day.pred? with
  | some e => exact .inl (Date.isDayBefore_of_pred? hpred)
  | none =>
    have hfirst := Date.eq_firstDay_of_pred? hpred
    exact .inr ⟨hfirst, hfirst⟩

/-- The month of the day itself is always in the calendar. -/
theorem startsMonth_own (day : Date) : ((day.monthStart? 0).getD day).StartsMonth day 0 := by
  obtain ⟨own, hown, hday, hmonth⟩ :=
    Date.exists_monthStart (Date.exists_monthNumber_iff.mp ⟨day, Int.add_zero _⟩)
  rw [hown, Option.getD_some]
  exact ⟨hday, fun _ => hmonth, fun hno => absurd hmonth (hno own)⟩

theorem isWindow_of_window? (h : p.window? day = some w) : IsWindow p day w := by
  have hown := startsMonth_own day
  have hmonth : ((day.monthStart? 0).getD day).monthNumber = day.monthNumber :=
    (Int.add_zero _).symm.trans (hown.month_eq ⟨day, Int.add_zero _⟩)
  cases p with
  | today =>
    cases h
    exact ⟨rfl, rfl⟩
  | yesterday => exact isWindow_yesterday h
  | last7Days =>
    obtain ⟨first, hfirst, rfl⟩ := Option.map_eq_some_iff.mp h
    exact ⟨rfl, Window.hasDays_of_daysBack? hfirst⟩
  | thisMonth =>
    cases h
    exact ⟨rfl, hown⟩
  | last3Months =>
    cases h
    exact ⟨rfl, Date.startsMonth_getD hown.day_eq hmonth 2⟩
  | last6Months =>
    cases h
    exact ⟨rfl, Date.startsMonth_getD hown.day_eq hmonth 5⟩
  | thisYear =>
    cases h
    obtain ⟨first, hfirst, hstart⟩ := Date.exists_yearStart day
    rw [IsWindow, hfirst, Option.getD_some]
    exact ⟨rfl, hstart⟩
  | last30Days =>
    obtain ⟨first, hfirst, rfl⟩ := Option.map_eq_some_iff.mp h
    exact ⟨rfl, Window.hasDays_of_daysBack? hfirst⟩

theorem window?_eq_none_iff : p.window? day = none ↔
    p = last7Days ∧ day.IsAmongFirst 6 ∨ p = last30Days ∧ day.IsAmongFirst 29 := by
  have h6 := Date.daysBack?_eq_none_iff_isAmongFirst (d := day) (n := 6) (by decide)
  have h29 := Date.daysBack?_eq_none_iff_isAmongFirst (d := day) (n := 29) (by decide)
  cases p <;> simp [window?, h6, h29]

/-- No window ends before it begins. -/
theorem IsWindow.isLE (h : IsWindow p day w) : (w.first.compare w.last).isLE = true := by
  cases p with
  | today =>
    obtain ⟨hfirst, hlast⟩ := h
    rw [Date.isLE_compare_iff, hfirst, hlast]
  | yesterday => rw [Date.isLE_compare_iff, h.1]
  | last7Days => exact h.2.isLE (by decide)
  | thisMonth | last3Months | last6Months =>
    obtain ⟨hlast, hfirst⟩ := h
    rw [hlast]
    exact hfirst.isLE
  | thisYear =>
    obtain ⟨hlast, hyear, hmonth, hday⟩ := h
    have hnumber := day.month_mem.1
    rw [hlast, Date.isLE_compare_iff]
    refine Date.dayNumber_le_of_monthNumber_le hday ?_
    simp only [Date.monthNumber, hyear, hmonth]
    omega
  | last30Days => exact h.2.isLE (by decide)

/-- The period of a request is the one that is named, or the last 30 days; its window is as the
calendar has it, and only windows that would begin before the calendar does are missing. -/
theorem windows_of_periods (text : Option String) (day : Date) :
    (∀ p, p ≠ last30Days → (ofText text = p ↔ NamedBy text p)) ∧
    (ofText text = last30Days ↔ ∀ p, ¬ NamedBy text p) ∧
    ((ofText text).window? day = none ↔
      ofText text = last7Days ∧ day.IsAmongFirst 6 ∨
      ofText text = last30Days ∧ day.IsAmongFirst 29) ∧
    ∀ w, (ofText text).window? day = some w →
      (w.first.compare w.last).isLE = true ∧ IsWindow (ofText text) day w :=
  ⟨fun _ hp => ofText_eq_iff hp, ofText_eq_last30Days_iff, window?_eq_none_iff,
    fun _ hw => ⟨(isWindow_of_window? hw).isLE, isWindow_of_window? hw⟩⟩

/-- On the sixth day of the calendar there is no week to show, and three months are the month. -/
theorem windows_on_sixth_day :
    let sixth : Date := ⟨firstYear, 1, 6, by decide, by decide⟩
    (ofText (some "\tLAST7days ")).window? sixth = none ∧
    ∃ w, (ofText (some "last3months")).window? sixth = some w ∧ w.last = sixth ∧
      w.first.day = 1 ∧ w.first.monthNumber = sixth.monthNumber := by
  intro sixth
  obtain ⟨hweek, -, hnone, -⟩ := windows_of_periods (some "\tLAST7days ") sixth
  obtain ⟨hmonths, -, hsome, hspec⟩ := windows_of_periods (some "last3months") sixth
  have hw : ofText (some "\tLAST7days ") = last7Days :=
    (hweek last7Days (by decide)).mpr ⟨_, rfl, _, rfl, by decide⟩
  have hm : ofText (some "last3months") = last3Months :=
    (hmonths last3Months (by decide)).mpr ⟨_, rfl, _, rfl, by decide⟩
  refine ⟨hnone.mpr (.inl ⟨hw, rfl, rfl, Nat.le_refl 6⟩), ?_⟩
  rw [hm] at hsome hspec ⊢
  cases hwindow : last3Months.window? sixth with
  | none =>
    rcases hsome.mp hwindow with ⟨h, -⟩ | ⟨h, -⟩ <;> cases h
  | some w =>
    obtain ⟨-, hlast, hstart⟩ := hspec w hwindow
    refine ⟨w, rfl, hlast, hstart.day_eq, hstart.month_eq_self fun d hd => ?_⟩
    have hfirst : firstDay.monthNumber + 2 ≤ sixth.monthNumber :=
      Date.exists_monthNumber_iff.mp ⟨d, hd⟩
    exact absurd hfirst (by decide)

end Period

end Takings
