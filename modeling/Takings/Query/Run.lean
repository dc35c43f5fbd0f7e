import Takings.Failure
import Takings.Json.Kind
import Takings.Query.Bind

/-!
# Runs of queries

What comes of putting queries to a database one after the other: the outcome and the calls that
were made on the way. The first failure ends a run.
-/
namespace Takings

/-- A query as it is put to a database. -/
structure Call where
  sql : String
  binds : List Bind
  deriving DecidableEq, Repr

/-- How a database answers a query. -/
abbrev Database := Call → Except Failure (List Json)

/-- An outcome and the calls that led to it, in order. -/
structure Run (α : Type) where
  outcome : Except Failure α
  calls : List Call

namespace Run

def done {α : Type} (a : α) : Run α :=
  ⟨.ok a, []⟩

/-- Goes on with the outcome of a run, if it is a good one. -/
def andThen {α β : Type} (r : Run α) (next : α → Run β) : Run β :=
  match r.outcome with
  | .ok a => ⟨(next a).outcome, r.calls ++ (next a).calls⟩
  | .error e => ⟨.error e, r.calls⟩

instance : Monad Run where
  pure := done
  bind := andThen

/-- An outcome that took no call. -/
def ofOutcome {α : Type} (outcome : Except Failure α) : Run α :=
  ⟨outcome, []⟩

/-- Puts one query. -/
def query (db : Database) (c : Call) : Run (List Json) :=
  ⟨db c, [c]⟩

theorem calls_andThen_of_ok {α β : Type} {r : Run α} {a : α} (h : r.outcome = .ok a)
    (next : α → Run β) : (r.andThen next).calls = r.calls ++ (next a).calls := by
  simp [andThen, h]

theorem calls_andThen_of_error {α β : Type} {r : Run α} {e : Failure}
    (h : r.outcome = .error e) (next : α → Run β) : (r.andThen next).calls = r.calls := by
  simp [andThen, h]

end Run

/-- Reads all rows; the first one that is not of the shape decides the failure. -/
def readRows {α : Type} (what : String) (read : Json → Except Json.DecodeError α)
    (rows : List Json) : Except Failure (List α) :=
  rows.mapM fun row =>
    (read row).mapError fun e => .query ("unexpected " ++ what ++ ": " ++ e.message)

end Takings
