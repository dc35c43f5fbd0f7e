import Takings.Abort
import Takings.Cache.Basic
import Takings.Options
import Takings.Report.Body
import Takings.Report.Catalogue
import Takings.Settings.Basic

/-!
# The report engine

Runs reports and keeps the filter options for a time. Reports neither read nor change what is
kept.
-/
namespace Takings

/-- When a request is answered: the day on the local calendar and the instant in nanoseconds. -/
structure Moment where
  today : Date
  instant : Nat
  deriving DecidableEq, Repr

structure Engine where
  presentation : Report.Presentation
  cache : Cache Unit Options

namespace Engine

/-- An engine that keeps filter options for so many nanoseconds. -/
def start (presentation : Report.Presentation) (ttl : Nat) : Engine :=
  ⟨presentation, .empty ttl⟩

/-- An engine with the hours and the time of keeping that are set, on the clocks of a zone. -/
def ofSettings (s : Settings) (zone : Zone) : Engine :=
  start ⟨s.hours, zone⟩ s.ttl

/-- Runs the query of a report and makes its body of the rows. -/
def report (e : Engine) (db : Database) (t : Moment) (r : Report) (p : Filter.Params) :
    Except Abort (Run Json) :=
  match r.build? p t.today with
  | none => .error .beforeCalendar
  | some q =>
    .ok do
      let rows ← Run.query db ⟨q.sql, q.binds⟩
      Run.ofOutcome (r.template.body e.presentation rows)

/-- The filter options, and the engine afterwards: those that are kept while they are fresh at an
instant, else newly loaded ones. -/
def optionsUntil (e : Engine) (db : Database) (now ended : Nat) :
    Run Options × Except Abort Engine :=
  let (run, next) := e.cache.getOrRunUntil () now ended (Options.load db)
  (run, next.map fun cache => { e with cache := cache })

/-- The filter options, if loading them takes no time. -/
def options (e : Engine) (db : Database) (t : Moment) : Except Abort (Run Options × Engine) :=
  let (run, next) := e.optionsUntil db t.instant t.instant
  next.map fun e => (run, e)

end Engine

end Takings
