/-!
# Dates

The days of the proleptic Gregorian calendar with a year zero, within a fixed range of years.
The day number counts days from 1970-01-01; one day earlier is one less.
-/
namespace Takings

namespace Calendar

def firstYear : Int := -262143

def lastYear : Int := 262142

def isLeap (year : Int) : Bool :=
  year % 4 = 0 && (year % 100 ≠ 0 || year % 400 = 0)

/-- The length of a month; no month but 1 to 12 has a day. -/
def daysIn (year : Int) : Nat → Nat
  | 1 | 3 | 5 | 7 | 8 | 10 | 12 => 31
  | 4 | 6 | 9 | 11 => 30
  | 2 => if isLeap year then 29 else 28
  | _ => 0

/-- The days from the start of year zero to the start of a year. -/
def daysBeforeYear (year : Int) : Int :=
  365 * year + (year + 3) / 4 - (year + 99) / 100 + (year + 399) / 400

/-- The days from the start of a year to the start of a month. -/
def daysBeforeMonth (year : Int) : Nat → Nat
  | 0 => 0
  | month + 1 => daysBeforeMonth year month + daysIn year month

end Calendar

/-- A day of the calendar. -/
structure Date where
  year : Int
  month : Nat
  day : Nat
  year_mem : Calendar.firstYear ≤ year ∧ year ≤ Calendar.lastYear
  day_mem : 1 ≤ day ∧ day ≤ Calendar.daysIn year month
  deriving DecidableEq, Repr

namespace Date

/-- The day of that year, month and day of the month, if there is one. -/
def ofParts? (year : Int) (month day : Nat) : Option Date :=
  if hy : Calendar.firstYear ≤ year ∧ year ≤ Calendar.lastYear then
    if hd : 1 ≤ day ∧ day ≤ Calendar.daysIn year month then
      some ⟨year, month, day, hy, hd⟩
    else none
  else none

/-- Days since 1970-01-01. -/
def dayNumber (d : Date) : Int :=
  Calendar.daysBeforeYear d.year + Calendar.daysBeforeMonth d.year d.month + d.day - 719529

/-- Chronological order, decided by year, month and day of the month. -/
def compare (a b : Date) : Ordering :=
  (Ord.compare a.year b.year).then ((Ord.compare a.month b.month).then (Ord.compare a.day b.day))

/-- The day before, unless it is outside the calendar. -/
def pred? (d : Date) : Option Date :=
  if 1 < d.day then ofParts? d.year d.month (d.day - 1)
  else if 1 < d.month then
    ofParts? d.year (d.month - 1) (Calendar.daysIn d.year (d.month - 1))
  else ofParts? (d.year - 1) 12 31

/-- The day so many days earlier, unless it is outside the calendar. -/
def daysBack? (d : Date) : Nat → Option Date
  | 0 => some d
  | n + 1 => (daysBack? d n).bind pred?

/-- Months since the start of year zero. -/
def monthNumber (d : Date) : Int :=
  12 * d.year + d.month - 1

/-- The first day of the month so many months earlier, unless it is outside the calendar. -/
def monthStart? (d : Date) (monthsBack : Nat) : Option Date :=
  let m := d.monthNumber - monthsBack
  ofParts? (m / 12) (m % 12 + 1).toNat 1

/-- The first day of the year. -/
def yearStart? (d : Date) : Option Date :=
  ofParts? d.year 1 1

end Date

end Takings
