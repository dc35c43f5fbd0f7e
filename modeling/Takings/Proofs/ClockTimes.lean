import Mathlib.Tactic.SplitIfs
import Takings.Calendar.Zone
import Takings.Proofs.Dates

/-!
# Clocks that are changed

Clocks are put forward in one month of every year and back in another one. Later clock times then
belong to later instants, save for those that are left out where the clocks are put forward. A
clock time that is passed twice counts as the later of its two instants.
-/
namespace Takings

open Calendar

/-! ### The changes of a year -/

/-- The second at which a year begins on a clock. -/
def Calendar.startOfYear (year : Int) : Int :=
  86400 * (daysBeforeYear year - 719528)

theorem Calendar.startOfYear_succ_le {year year' : Int} (h : year < year') :
    startOfYear (year + 1) ≤ startOfYear year' := by
  have hy := daysBeforeYear_succ_le h
  simp only [startOfYear]
  omega

/-- The second at which a month begins on a clock. -/
def Calendar.startOfMonth (year : Int) (month : Nat) : Int :=
  startOfYear year + 86400 * daysBeforeMonth year month

namespace Changeover

variable {c : Changeover} {month : Nat}

/-- A change on a weekday of a month, at the latest at the end of that day. -/
structure InMonth (c : Changeover) (month : Nat) : Prop where
  month_mem : 1 ≤ month ∧ month ≤ 12
  rule : ∃ week weekday, (1 ≤ week ∧ week ≤ 5) ∧ c.day = .weekday month week weekday
  second_mem : 0 ≤ c.second ∧ c.second ≤ 86400

theorem InMonth.month_eq (h : c.InMonth month) (year : Int) : c.day.month year = month := by
  obtain ⟨week, weekday, -, hday⟩ := h.rule
  rw [hday]
  rfl

theorem InMonth.dayNumber_mem (h : c.InMonth month) (year : Int) :
    daysBeforeYear year - 719528 + daysBeforeMonth year month ≤ c.day.dayNumber year ∧
      c.day.dayNumber year <
        daysBeforeYear year - 719528 + daysBeforeMonth year month + daysIn year month := by
  obtain ⟨week, weekday, hweek, hday⟩ := h.rule
  have hdays := daysIn_mem year h.month_mem
  rw [hday]
  simp only [YearDay.dayNumber]
  split <;> omega

theorem InMonth.clockSecond_mem (h : c.InMonth month) (year : Int) :
    startOfMonth year month ≤ c.clockSecond year ∧
      c.clockSecond year ≤ startOfMonth year month + 86400 * daysIn year month := by
  have hday := h.dayNumber_mem year
  have hsecond := h.second_mem
  simp only [startOfMonth, startOfYear, clockSecond]
  omega

end Changeover

/-! ### Summer and winter -/

/-- Clocks that are `low` seconds ahead of Greenwich or `high`, which is more. -/
structure Seasons where
  low : Int
  high : Int
  forward : Changeover
  back : Changeover

namespace Seasons

variable {c : Seasons} {t t' : ClockTime}

def step (c : Seasons) : Int :=
  c.high - c.low

/-- Clocks that are put forward and back in two months of every year. The time that is left out does
not reach into the next year. -/
structure IsRegular (c : Seasons) (there again : Nat) : Prop where
  forward : c.forward.InMonth there
  back : c.back.InMonth again
  apart : there ≠ again
  step_pos : 0 < c.step
  ends : ∀ year, c.forward.clockSecond year + c.step ≤ startOfYear (year + 1)

/-- The clock time is left out where the clocks are put forward. -/
def Skips (c : Seasons) (t : ClockTime) : Prop :=
  c.forward.clockSecond t.year ≤ t.second ∧ t.second < c.forward.clockSecond t.year + c.step

instance (c : Seasons) (t : ClockTime) : Decidable (c.Skips t) :=
  inferInstanceAs (Decidable (_ ∧ _))

/-- The seconds that clocks are ahead of Greenwich, where summer time begins and ends within a
year. A time that is passed twice counts as the later one. -/
def offsetWithin (c : Seasons) (t : ClockTime) : Int :=
  if c.forward.clockSecond t.year + c.step ≤ t.second ∧
      t.second < c.back.clockSecond t.year - c.step then c.high
  else c.low

/-- The seconds that clocks are ahead of Greenwich, where summer time lasts over the new year. -/
def offsetAcross (c : Seasons) (t : ClockTime) : Int :=
  if c.back.clockSecond t.year - c.step ≤ t.second ∧ t.second < c.forward.clockSecond t.year then
    c.low
  else c.high

/-- The seconds that clocks are ahead of Greenwich. -/
def offset (c : Seasons) (there again : Nat) (t : ClockTime) : Int :=
  if there < again then c.offsetWithin t else c.offsetAcross t

/-- No more than a day is left out, and none of it after the year. -/
theorem ends_of_inMonth {month : Nat} (h : c.forward.InMonth month) (hstep : c.step ≤ 86400)
    (hlast : month = 12 → c.forward.second + c.step ≤ 86400) (year : Int) :
    c.forward.clockSecond year + c.step ≤ startOfYear (year + 1) := by
  have hyear := daysBeforeYear_succ year
  rcases Nat.lt_or_eq_of_le h.month_mem.2 with hlt | heq
  · -- December is left
    have hf := (h.clockSecond_mem year).2
    have hbefore := daysBeforeMonth_add_daysIn_le year hlt
    have hafter := daysBeforeMonth_add_daysIn_le year (by decide : 12 < 13)
    have hdays := daysIn_mem year (by decide : 1 ≤ 12 ∧ 12 ≤ 12)
    simp only [startOfMonth, startOfYear] at hf ⊢
    omega
  · have hday := h.dayNumber_mem year
    have hend := hlast heq
    have hafter := daysBeforeMonth_add_daysIn_le year (by omega : month < 13)
    simp only [Changeover.clockSecond, startOfYear]
    omega

namespace IsRegular

variable {there again : Nat}

theorem startOfYear_le_forward (h : c.IsRegular there again) (year : Int) :
    startOfYear year ≤ c.forward.clockSecond year := by
  have hf := (h.forward.clockSecond_mem year).1
  simp only [startOfMonth] at hf
  omega

theorem back_le_forward (h : c.IsRegular there again) (hlt : again < there) (year : Int) :
    c.back.clockSecond year ≤ c.forward.clockSecond year := by
  have hb := (h.back.clockSecond_mem year).2
  have hf := (h.forward.clockSecond_mem year).1
  have hm := daysBeforeMonth_add_daysIn_le year hlt
  simp only [startOfMonth] at hb hf
  omega

/-- Later clock times belong to later instants, unless they are left out. -/
theorem sub_offset_lt (h : c.IsRegular there again) (ht : startOfYear t.year ≤ t.second ∧
      t.second < startOfYear (t.year + 1))
    (ht' : startOfYear t'.year ≤ t'.second ∧ t'.second < startOfYear (t'.year + 1))
    (hs : ¬ c.Skips t) (hs' : ¬ c.Skips t') (hlt : t.second < t'.second) :
    t.second - c.offset there again t < t'.second - c.offset there again t' := by
  have hstep := h.step_pos
  have hf := h.startOfYear_le_forward t'.year
  have hends := h.ends t.year
  have hyears : t.year = t'.year ∨ startOfYear (t.year + 1) ≤ startOfYear t'.year := by
    rcases lt_trichotomy t.year t'.year with hy | hy | hy
    · exact .inr (startOfYear_succ_le hy)
    · exact .inl hy
    · have := startOfYear_succ_le hy
      omega
  have hhigh : c.high - c.low = c.step := rfl
  rw [Skips] at hs hs'
  -- only a change from `low` to `high` takes time away, as much as is left out there
  by_cases hm : there < again
  · simp only [offset, hm, if_true, offsetWithin]
    rcases hyears with hy | hy
    · rw [hy] at hs ⊢
      split_ifs <;> omega
    · split_ifs <;> omega
  · have hb := h.back_le_forward (by have := h.apart; omega) t.year
    simp only [offset, hm, if_false, offsetAcross]
    rcases hyears with hy | hy
    · rw [hy] at hs hb ⊢
      split_ifs <;> omega
    · split_ifs <;> omega

end IsRegular

end Seasons

namespace Zone

/-- The seasons of a zone, unless its clocks are never changed. -/
def seasons? : Zone → Option Seasons
  | fixed _ => none
  | changing standard summer start stop =>
    if standard.east < summer then some ⟨standard.east, summer, start, stop⟩
    else if summer < standard.east then some ⟨summer, standard.east, stop, start⟩
    else none

variable {z : Zone} {c : Seasons} {there again : Nat}

theorem offsets_of_seasons (h : z.seasons? = some c) (hr : c.IsRegular there again)
    (t : ClockTime) : z.offsets t =
      if there < again then
        offsetsWithin c.low c.high (c.forward.clockSecond t.year) (c.back.clockSecond t.year)
          t.second
      else
        offsetsAcross c.low c.high (c.forward.clockSecond t.year) (c.back.clockSecond t.year)
          t.second := by
  cases z with
  | fixed _ => cases h
  | changing standard summer start stop =>
    have hforward := hr.forward.month_eq t.year
    have hback := hr.back.month_eq t.year
    have hapart := hr.apart
    rw [seasons?] at h
    split at h
    · rename_i hlt
      cases h
      simp only [offsets, hlt, if_true, hforward, hback, decide_eq_true_eq]
    · rename_i hlt
      split at h
      · rename_i hgt
        cases h
        simp only [offsets, hlt, hgt, if_true, if_false, hforward, hback, decide_eq_true_eq]
        by_cases hm : there < again
        · rw [if_pos hm, if_neg (by omega)]
        · rw [if_neg hm, if_pos (by omega)]
      · cases h

theorem offsets_of_no_seasons (h : z.seasons? = none) : ∃ o, ∀ t, z.offsets t = [o] := by
  cases z with
  | fixed o => exact ⟨o.east, fun _ => rfl⟩
  | changing standard summer start stop =>
    rw [seasons?] at h
    split at h
    · cases h
    · rename_i hlt
      split at h
      · cases h
      · rename_i hgt
        refine ⟨standard.east, fun t => ?_⟩
        simp only [offsets, hlt, hgt, if_false]

/-- Of two offsets the first counts. -/
theorem head?_offsets (h : z.seasons? = some c) (hr : c.IsRegular there again) {t : ClockTime}
    (hs : ¬ c.Skips t) : (z.offsets t).head? = some (c.offset there again t) := by
  have hstep := hr.step_pos
  have hhigh : c.high - c.low = c.step := rfl
  rw [offsets_of_seasons h hr, Seasons.offset]
  rw [Seasons.Skips] at hs
  by_cases hm : there < again
  · simp only [hm, if_true, offsetsWithin, Seasons.offsetWithin, hhigh]
    split_ifs <;> first | rfl | omega
  · have hb := hr.back_le_forward (by have := hr.apart; omega) t.year
    simp only [hm, if_false, offsetsAcross, Seasons.offsetAcross, hhigh]
    split_ifs <;> first | rfl | omega

/-- A zone whose clocks are never changed, or by a rule. -/
def IsRegular (z : Zone) : Prop :=
  ∀ c, z.seasons? = some c → ∃ there again, c.IsRegular there again

/-- Clocks that are put forward for summer time, by no more than a day. -/
theorem isRegular_changing {standard : Offset} {summer : Int} {start stop : Changeover}
    (hstart : start.InMonth there) (hstop : stop.InMonth again) (hapart : there ≠ again)
    (hlt : standard.east < summer) (hstep : summer - standard.east ≤ 86400)
    (hlast : there = 12 → start.second + (summer - standard.east) ≤ 86400) :
    (changing standard summer start stop).IsRegular := by
  intro c hc
  rw [seasons?, if_pos hlt] at hc
  cases hc
  exact ⟨there, again, hstart, hstop, hapart, Int.sub_pos_of_lt hlt,
    Seasons.ends_of_inMonth hstart hstep hlast⟩

/-- The clock time is left out where the clocks of the zone are put forward. -/
def Skips (z : Zone) (t : ClockTime) : Prop :=
  ∃ c ∈ z.seasons?, c.Skips t

instance (z : Zone) (t : ClockTime) : Decidable (z.Skips t) :=
  inferInstanceAs (Decidable (∃ c ∈ z.seasons?, c.Skips t))

end Zone

namespace LocalTime

variable {z : Zone} {t t' : LocalTime}

theorem clock_mem (t : LocalTime) : startOfYear t.clock.year ≤ t.clock.second ∧
    t.clock.second < startOfYear (t.clock.year + 1) := by
  have hd := t.date.dayNumber_mem
  have hs := t.time.second_lt
  simp only [clock, startOfYear]
  omega

/-- A clock time that is not left out, all of whose instants are within the calendar, and that is
not in a leap second. -/
structure IsShown (z : Zone) (t : LocalTime) : Prop where
  kept : ¬ z.Skips t.clock
  dated : ∀ east ∈ z.offsets t.clock, (instant? t.clock.second east).isSome = true
  nano_lt : t.time.nano < 1000000000

instance (z : Zone) (t : LocalTime) : Decidable (t.IsShown z) :=
  decidable_of_iff (¬ z.Skips t.clock ∧
      (∀ east ∈ z.offsets t.clock, (instant? t.clock.second east).isSome = true) ∧
      t.time.nano < 1000000000)
    ⟨fun h => ⟨h.1, h.2.1, h.2.2⟩, fun h => ⟨h.kept, h.dated, h.nano_lt⟩⟩

theorem instant?_eq {second east : Int} (h : (instant? second east).isSome = true) :
    instant? second east = some (second - east) := by
  rw [instant?] at h ⊢
  cases ho : Offset.ofSeconds? east with
  | none =>
    rw [ho] at h
    cases h
  | some o =>
    have heast : o.east = east := by
      rw [Offset.ofSeconds?] at ho
      split at ho <;> cases ho
      rfl
    rw [ho] at h
    simp only [heast] at h ⊢
    split at h
    · rename_i hin
      rw [if_pos hin]
    · cases h

theorem mapM_instant? {second : Int} {offsets : List Int}
    (h : ∀ east ∈ offsets, (instant? second east).isSome = true) :
    offsets.mapM (instant? second) = some (offsets.map fun east => second - east) := by
  induction offsets with
  | nil => rfl
  | cons east offsets ih =>
    rw [List.forall_mem_cons] at h
    rw [List.mapM_cons, instant?_eq h.1, ih h.2]
    rfl

theorem epochSecond_eq {east : Int} (h : t.IsShown z) (ho : (z.offsets t.clock).head? = some east) :
    t.epochSecond z = t.clock.second - east := by
  obtain ⟨rest, hrest⟩ := List.head?_eq_some_iff.mp ho
  rw [epochSecond, mapM_instant? h.dated, hrest]
  rfl

/-- Later clock times belong to later instants. -/
theorem epochSecond_lt (hz : z.IsRegular) (h : t.IsShown z) (h' : t'.IsShown z)
    (hlt : t.clock.second < t'.clock.second) : t.epochSecond z < t'.epochSecond z := by
  cases hc : z.seasons? with
  | none =>
    obtain ⟨east, ho⟩ := z.offsets_of_no_seasons hc
    rw [epochSecond_eq h (by rw [ho]; rfl), epochSecond_eq h' (by rw [ho]; rfl)]
    omega
  | some c =>
    obtain ⟨there, again, hr⟩ := hz c hc
    have hs : ¬ c.Skips t.clock := fun hs => h.kept ⟨c, hc, hs⟩
    have hs' : ¬ c.Skips t'.clock := fun hs => h'.kept ⟨c, hc, hs⟩
    rw [epochSecond_eq h (Zone.head?_offsets hc hr hs),
      epochSecond_eq h' (Zone.head?_offsets hc hr hs')]
    exact hr.sub_offset_lt t.clock_mem t'.clock_mem hs hs' hlt

/-- Chronological order on a clock. -/
def compare (a b : LocalTime) : Ordering :=
  (a.date.compare b.date).then
    ((Ord.compare a.time.second b.time.second).then (Ord.compare a.time.nano b.time.nano))

theorem of_isLE_compare (h : (t.compare t').isLE = true) :
    t.clock.second < t'.clock.second ∨ t.clock = t'.clock ∧ t.time.nano ≤ t'.time.nano := by
  have hs := t.time.second_lt
  have hs' := t'.time.second_lt
  rw [compare, Date.compare_eq] at h
  rcases lt_trichotomy t.date.dayNumber t'.date.dayNumber with hd | hd | hd
  · refine .inl ?_
    simp only [clock]
    omega
  · rw [compare_eq_iff_eq.mpr hd] at h
    rcases lt_trichotomy t.time.second t'.time.second with ht | ht | ht
    · refine .inl ?_
      simp only [clock]
      omega
    · rw [compare_eq_iff_eq.mpr ht] at h
      refine .inr ⟨?_, Nat.isLE_compare.mp h⟩
      rw [clock, clock, Date.dayNumber_inj.mp hd, ht]
    · rw [compare_gt_iff_gt.mpr ht] at h
      cases h
  · rw [compare_gt_iff_gt.mpr hd] at h
    cases h

/-- The timestamps of clock times are in their order. -/
theorem epochMillis_le (hz : z.IsRegular) (h : t.IsShown z) (h' : t'.IsShown z)
    (hle : (t.compare t').isLE = true) : t.epochMillis z ≤ t'.epochMillis z := by
  have hnano := h.nano_lt
  rcases of_isLE_compare hle with hlt | ⟨heq, hle⟩
  · have hs := epochSecond_lt hz h h' hlt
    simp only [epochMillis]
    omega
  · have hs : t.epochSecond z = t'.epochSecond z := by
      rw [epochSecond, epochSecond, heq]
    simp only [epochMillis, hs]
    omega

end LocalTime

end Takings
