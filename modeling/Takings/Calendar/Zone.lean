import Takings.Calendar.Date
import Takings.Calendar.TimeOfDay

/-!
# Time zones

Zones with a fixed offset, and zones whose clocks are changed on two days of every year, to
summer time and back. A clock time that is left out at a change belongs to no instant; one that
is passed twice belongs to two of them.
-/
namespace Takings

/-- The seconds that a clock is ahead of Greenwich, less than a day either way. -/
structure Offset where
  east : Int
  inDay : -86400 < east ∧ east < 86400
  deriving DecidableEq, Repr

namespace Offset

def zero : Offset :=
  ⟨0, by decide⟩

def ofSeconds? (east : Int) : Option Offset :=
  if h : -86400 < east ∧ east < 86400 then some ⟨east, h⟩ else none

end Offset

/-- A day in every year. -/
inductive YearDay where
  /-- A weekday of a month, where Sunday is 0; the fifth one stands for the last. -/
  | weekday (month week weekday : Nat)
  /-- A day counted from 1, where the leap day is left out of the count. -/
  | plain (day : Nat)
  /-- A day counted from 0, the leap day with the others. -/
  | counted (day : Nat)
  deriving DecidableEq, Repr

namespace YearDay

/-- The month that a day of a year falls in, for days counted from 0. -/
def monthOf (year : Int) (day : Nat) : Nat :=
  ((List.range 12).filter fun m => Calendar.daysBeforeMonth year (m + 1) ≤ day).length

def month (d : YearDay) (year : Int) : Nat :=
  match d with
  | .weekday m _ _ => m
  | .plain day => monthOf 1 (day - 1)
  | .counted day => monthOf year day

/-- Days since 1970-01-01. -/
def dayNumber (d : YearDay) (year : Int) : Int :=
  let start := Calendar.daysBeforeYear year - 719528
  match d with
  | .weekday m week w =>
    let monthStart := start + Calendar.daysBeforeMonth year m
    let first := (w - (monthStart + 4) % 7) % 7
    let day := first + 7 * (week - 1)
    monthStart + if Calendar.daysIn year m ≤ day then day - 7 else day
  | .plain day => start + (day - 1) + if Calendar.isLeap year ∧ 60 ≤ day then 1 else 0
  | .counted day => start + day

end YearDay

/-- The day and the second of it at which the clocks are changed. -/
structure Changeover where
  day : YearDay
  second : Int
  deriving DecidableEq, Repr

/-- The second of the change in a year, on the clock before the change. -/
def Changeover.clockSecond (c : Changeover) (year : Int) : Int :=
  86400 * c.day.dayNumber year + c.second

inductive Zone where
  | fixed (offset : Offset)
  /-- The offset of standard time, the seconds that clocks are ahead of Greenwich in summer time,
  which may be a day or more, and the changes to summer time and back. -/
  | changing (standard : Offset) (summer : Int) (start stop : Changeover)
  deriving DecidableEq, Repr

/-- A clock time as seconds from 1970-01-01 00:00 on that clock, with its year. -/
structure ClockTime where
  year : Int
  second : Int
  deriving DecidableEq, Repr

namespace Zone

def utc : Zone :=
  .fixed .zero

/-- The offsets of clocks that are put forward and later back in a year, from `low` to `high` and
again to `low`. Such clocks are put forward at `s` and back at `e`, each on the clock before. -/
def offsetsWithin (low high s e t : Int) : List Int :=
  let step := high - low
  if t ≤ s then [low]
  else if t < s + step then []
  else if t < e - step then [high]
  else if t ≤ e then [low, high]
  else [low]

/-- The offsets of clocks that are put back and later forward in a year, from `high` to `low` and
again to `high`. Such clocks are put back at `e` and forward at `s`, each on the clock before. -/
def offsetsAcross (low high s e t : Int) : List Int :=
  let step := high - low
  if t < e - step then [high]
  else if t ≤ e then [low, high]
  else if t < s then [low]
  else if t < s + step then []
  else [high]

/-- The offsets in which clocks can show a time, in seconds: none for a time that is left out and
two for a time that is passed twice. -/
def offsets (z : Zone) (t : ClockTime) : List Int :=
  match z with
  | .fixed offset => [offset.east]
  | .changing standard summer start stop =>
    let s := start.clockSecond t.year
    let e := stop.clockSecond t.year
    let inOrder : Bool := start.day.month t.year < stop.day.month t.year
    if standard.east < summer then
      if inOrder then offsetsWithin standard.east summer s e t.second
      else offsetsAcross standard.east summer s e t.second
    else if summer < standard.east then
      if inOrder then offsetsAcross summer standard.east e s t.second
      else offsetsWithin summer standard.east e s t.second
    else [standard.east]

end Zone

/-- A date and a time of the day on a local clock. -/
structure LocalTime where
  date : Date
  time : TimeOfDay
  deriving DecidableEq, Repr

namespace LocalTime

def clock (t : LocalTime) : ClockTime :=
  ⟨t.date.year, 86400 * t.date.dayNumber + t.time.second⟩

/-- Whether a second since 1970-01-01 is within the calendar. -/
def inCalendar (second : Int) : Bool :=
  86400 * (Calendar.daysBeforeYear Calendar.firstYear - 719528) ≤ second &&
    second < 86400 * (Calendar.daysBeforeYear (Calendar.lastYear + 1) - 719528)

/-- The second in Greenwich at which a clock with an offset shows a second, if the offset is less
than a day and the calendar has that second. -/
def instant? (second east : Int) : Option Int :=
  match Offset.ofSeconds? east with
  | none => none
  | some o => if inCalendar (second - o.east) then some (second - o.east) else none

/-- The second in Greenwich that a clock time is read as: of two instants the first, provided
that there are both. A clock time that is no instant is read as Greenwich time. -/
def epochSecond (z : Zone) (t : LocalTime) : Int :=
  match (z.offsets t.clock).mapM (instant? t.clock.second) with
  | some (second :: _) => second
  | _ => t.clock.second

/-- Milliseconds since 1970-01-01 in Greenwich. -/
def epochMillis (z : Zone) (t : LocalTime) : Int :=
  1000 * t.epochSecond z + t.time.nano / 1000000

end LocalTime

end Takings
