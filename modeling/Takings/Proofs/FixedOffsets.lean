import Takings.Proofs.ClockTimes
import Takings.Proofs.DaysBack
import Takings.Proofs.Outcomes

/-!
# Clocks with a fixed offset

Days are counted one by one from 1970-01-01, backwards as well as forwards. A clock that is a fixed
number of seconds ahead of Greenwich shows each second of the calendar that many seconds later, and
the second 60 of a minute is the first one of the next minute.
-/
namespace Takings

namespace Calendar

/-- The day from which days are counted. -/
def epoch : Date :=
  ⟨1970, 1, 1, by decide, by decide⟩

/-- The last day of the calendar. -/
def lastDay : Date :=
  ⟨lastYear, 12, 31, by decide, by decide⟩

end Calendar

namespace Date

open Calendar

variable {d : Date} {days : Int}

/-- A day is so many days after 1970-01-01, or before it if there are less than none, where each
day before is taken off the calendar. -/
def IsDay (d : Date) (days : Int) : Prop :=
  (∃ n : Nat, days = n ∧ d.daysBack? n = some epoch) ∨
    ∃ n : Nat, days = -n ∧ epoch.daysBack? n = some d

theorem dayNumber_epoch : epoch.dayNumber = 0 := by
  decide

theorem isDay_iff : d.IsDay days ↔ d.dayNumber = days := by
  simp only [IsDay, daysBack?_eq_some_iff, dayNumber_epoch]
  constructor
  · rintro (⟨n, hn, hd⟩ | ⟨n, hn, hd⟩) <;> omega
  · rintro rfl
    rcases Int.le_total 0 d.dayNumber with h | h
    · exact .inl ⟨d.dayNumber.toNat, by omega, by omega⟩
    · exact .inr ⟨(-d.dayNumber).toNat, by omega, by omega⟩

theorem le_lastDay (d : Date) : d.dayNumber ≤ lastDay.dayNumber := by
  have hd := d.dayNumber_mem.2
  have hy := daysBeforeYear_mono (Int.add_le_add_right d.year_mem.2 1)
  have hlast : lastDay.dayNumber = daysBeforeYear (lastYear + 1) - 719529 := by
    decide
  omega

/-- The calendar has all days from its first one to its last one. -/
theorem exists_dayNumber_eq (hf : firstDay.dayNumber ≤ days) (hl : days ≤ lastDay.dayNumber) :
    ∃ d : Date, d.dayNumber = days := by
  obtain ⟨d, -, hd⟩ := exists_daysBack (d := lastDay) (n := (lastDay.dayNumber - days).toNat)
    (by omega)
  exact ⟨d, by omega⟩

end Date

namespace LocalTime

open Calendar

/-- A second, counted from 1970-01-01 00:00:00, is within a day of the calendar. -/
def IsSecond (second : Int) : Prop :=
  ∃ (d : Date) (days : Int) (s : Nat), d.IsDay days ∧ s < 86400 ∧ second = 86400 * days + s

theorem inCalendar_iff {second : Int} : inCalendar second = true ↔ IsSecond second := by
  have hfirst : firstDay.dayNumber = daysBeforeYear firstYear - 719528 := by
    decide
  have hlast : lastDay.dayNumber + 1 = daysBeforeYear (lastYear + 1) - 719528 := by
    decide
  rw [inCalendar, Bool.and_eq_true, decide_eq_true_iff, decide_eq_true_iff, ← hfirst, ← hlast]
  constructor
  · rintro ⟨hf, hl⟩
    -- The day is the quotient, rounded down, so that seconds before 1970 fall on the right day.
    have hday : firstDay.dayNumber ≤ second / 86400 := by omega
    obtain ⟨d, hd⟩ := Date.exists_dayNumber_eq hday (by omega)
    exact ⟨d, second / 86400, (second % 86400).toNat, Date.isDay_iff.mpr hd, by omega, by omega⟩
  · rintro ⟨d, days, s, hd, hs, rfl⟩
    have hnumber := Date.isDay_iff.mp hd
    have hf := d.firstDay_le
    have hl := d.le_lastDay
    omega

end LocalTime

namespace TimeOfDay

open Calendar

variable {t : TimeOfDay} {hour minute second nano : Nat}

theorem ofParts?_eq_some_iff : ofParts? hour minute second nano = some t ↔
    (hour < 24 ∧ minute < 60 ∧ second ≤ 60 ∧ nano < 1000000000) ∧
      t.second = 3600 * hour + 60 * minute + min second 59 ∧
      t.nano = nano + (second - 59) * 1000000000 := by
  rw [ofParts?]
  split
  · rename_i h
    obtain ⟨s, n, hs, hn⟩ := t
    simp only [Option.some.injEq, mk.injEq, h, and_self, true_and]
    exact and_congr eq_comm eq_comm
  · rename_i h
    exact iff_of_false (fun hn => nomatch hn) fun hp => h hp.1

/-- A time that is read has an hour, a minute, a second and a fraction of it. -/
theorem exists_ofParts_of_read {cs : List Char} (h : read cs = .ok t) :
    ∃ hour minute second nano, ofParts? hour minute second nano = some t := by
  obtain ⟨⟨hour, r⟩, -, h⟩ := bind_eq_ok_iff.mp h
  obtain ⟨r', -, h⟩ := bind_eq_ok_iff.mp h
  obtain ⟨⟨minute, r''⟩, -, h⟩ := bind_eq_ok_iff.mp h
  dsimp only at h
  obtain ⟨⟨⟩, -, h⟩ := bind_eq_ok_iff.mp h
  split at h
  · rename_i t' ht
    cases h
    exact ⟨hour, minute, _, _, ht⟩
  · cases h

end TimeOfDay

/-- The clocks of a zone are the same number of seconds ahead of Greenwich at all times. -/
def Zone.HasOffset (z : Zone) (o : Offset) : Prop :=
  ∀ t, z.offsets t = [o.east]

theorem Zone.hasOffset_fixed (o : Offset) : (Zone.fixed o).HasOffset o :=
  fun _ => rfl

namespace LocalTime

variable {z : Zone} {o : Offset} {t : LocalTime}

theorem instant?_offset (second : Int) (o : Offset) : instant? second o.east =
    if inCalendar (second - o.east) then some (second - o.east) else none := by
  have ho : Offset.ofSeconds? o.east = some o := dif_pos o.inDay
  rw [instant?, ho]

theorem epochSecond_of_isSecond (hz : z.HasOffset o) (h : IsSecond (t.clock.second - o.east)) :
    t.epochSecond z = t.clock.second - o.east := by
  rw [epochSecond, hz, List.mapM_cons, instant?_offset, if_pos (inCalendar_iff.mpr h)]
  rfl

theorem epochSecond_of_not_isSecond (hz : z.HasOffset o)
    (h : ¬ IsSecond (t.clock.second - o.east)) : t.epochSecond z = t.clock.second := by
  rw [epochSecond, hz, List.mapM_cons, instant?_offset, if_neg (h ∘ inCalendar_iff.mp)]
  rfl

/-- The instant of a day and a time in a zone with an offset, to whole milliseconds. A time that
belongs to no second of the calendar is read as Greenwich time. -/
theorem epochMillis_of_parts {days : Int} {hour minute second nano : Nat} (hz : z.HasOffset o)
    (hd : t.date.IsDay days) (hp : TimeOfDay.ofParts? hour minute second nano = some t.time) :
    (IsSecond (86400 * days + (3600 * hour + 60 * minute + min second 59) - o.east) →
      t.epochMillis z =
        (86400 * days + (3600 * hour + 60 * minute + second) - o.east) * 1000 +
          nano / 1000000) ∧
    (¬ IsSecond (86400 * days + (3600 * hour + 60 * minute + min second 59) - o.east) →
      t.epochMillis z =
        (86400 * days + (3600 * hour + 60 * minute + second)) * 1000 + nano / 1000000) := by
  obtain ⟨⟨-, -, hsecond, -⟩, hs, hn⟩ := TimeOfDay.ofParts?_eq_some_iff.mp hp
  have hclock : t.clock.second = 86400 * days + (3600 * hour + 60 * minute + min second 59) := by
    simp only [clock, Date.isDay_iff.mp hd, hs]
    omega
  rw [← hclock]
  constructor
  · intro h
    rw [epochMillis, epochSecond_of_isSecond hz h, hclock, hn]
    omega
  · intro h
    rw [epochMillis, epochSecond_of_not_isSecond hz h, hclock, hn]
    omega

end LocalTime

end Takings
