/-!
# Aborts

Why the program stops altogether instead of answering.
-/
namespace Takings

inductive Abort where
  /-- A window of days would begin before the first day of the calendar. -/
  | beforeCalendar
  /-- An instant would be later than the clock can tell. -/
  | beyondClock
  /-- The wildcard stands in a list of allowed origins. -/
  | wildcardOrigin
  /-- A pool without any connection. -/
  | emptyPool
  deriving DecidableEq, Repr

end Takings
