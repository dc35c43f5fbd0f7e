import Takings.Calendar.Date
import Takings.Text.Ascii
import Takings.Text.Blank

/-!
# Reporting periods

The periods that a report can cover and the window of days that each is on a given day. Every
window ends on that day, apart from yesterday's.
-/
namespace Takings

inductive Period where
  | today
  | yesterday
  | last7Days
  | thisMonth
  | last3Months
  | last6Months
  | thisYear
  | last30Days
  deriving DecidableEq, Repr

/-- The days from `first` to `last`, both included. -/
structure Window where
  first : Date
  last : Date
  deriving DecidableEq, Repr

namespace Period

def all : List Period :=
  [today, yesterday, last7Days, thisMonth, last3Months, last6Months, thisYear, last30Days]

/-- The name of a period in a request; the last 30 days have none. -/
def token? : Period → Option String
  | today => some "today"
  | yesterday => some "yesterday"
  | last7Days => some "last7days"
  | thisMonth => some "thisMonth"
  | last3Months => some "last3Months"
  | last6Months => some "last6Months"
  | thisYear => some "thisYear"
  | last30Days => none

/-- Whether a text names a period, up to white space around it and the case of letters. -/
def isNamed (p : Period) (text : String) : Bool :=
  match p.token? with
  | some token => Text.sameLetters (Text.trim text) token
  | none => false

/-- The period that a text names; the last 30 days if it names none. -/
def ofText (text : Option String) : Period :=
  match text with
  | some text => (all.find? fun p => p.isNamed text).getD last30Days
  | none => last30Days

/-- The window of a period on a day. A month outside the calendar gives way to the month of the
day itself; a window of days that would begin outside the calendar does not exist. -/
def window? (p : Period) (day : Date) : Option Window :=
  let month := (day.monthStart? 0).getD day
  match p with
  | today => some ⟨day, day⟩
  | yesterday =>
    let before := day.pred?.getD day
    some ⟨before, before⟩
  | last7Days => (day.daysBack? 6).map fun first => ⟨first, day⟩
  | thisMonth => some ⟨month, day⟩
  | last3Months => some ⟨(day.monthStart? 2).getD month, day⟩
  | last6Months => some ⟨(day.monthStart? 5).getD month, day⟩
  | thisYear => some ⟨day.yearStart?.getD month, day⟩
  | last30Days => (day.daysBack? 29).map fun first => ⟨first, day⟩

end Period

end Takings
