import Takings.Engine
import Takings.Http.Message

/-!
# Sessions

Requests that an engine serves one after the other. Between two of them any time may pass, and the
database may answer every one of them in another way.
-/
namespace Takings

/-- What a request asks for. -/
inductive Demand where
  | report (r : Report) (p : Filter.Params)
  | options
  deriving DecidableEq, Repr

/-- A request, what the database answers while it is served, and when that begins and ends. -/
structure Visit where
  demand : Demand
  db : Database
  today : Date
  began : Nat
  ended : Nat

/-- What comes of a request: a body or a failure, unless the program stops, and the calls that were
made. -/
structure Answer where
  outcome : Except Abort (Except Failure Json)
  calls : List Call

/-- The response over the network, unless the program stops. -/
def Answer.response? (a : Answer) : Option Http.Response :=
  match a.outcome with
  | .ok outcome => some (.ofOutcome outcome)
  | .error _ => none

namespace Engine

/-- Serves a request. A request that stops the program leaves the engine as it was. -/
def serve (e : Engine) (v : Visit) : Answer × Engine :=
  match v.demand with
  | .report r p =>
    match e.report v.db ⟨v.today, v.began⟩ r p with
    | .ok run => (⟨.ok run.outcome, run.calls⟩, e)
    | .error a => (⟨.error a, []⟩, e)
  | .options =>
    match e.optionsUntil v.db v.began v.ended with
    | (run, .ok next) => (⟨.ok (run.outcome.map Options.toJson), run.calls⟩, next)
    | (run, .error a) => (⟨.error a, run.calls⟩, e)

/-- The engine after requests. -/
def run (e : Engine) (visits : List Visit) : Engine :=
  visits.foldl (fun e v => (e.serve v).2) e

/-- Requests with what came of them. -/
def transcript (e : Engine) : List Visit → List (Visit × Answer)
  | [] => []
  | v :: visits => (v, (e.serve v).1) :: (e.serve v).2.transcript visits

end Engine

/-- Requests that come one at a time from an instant on. -/
def Chronological (now : Nat) : List Visit → Prop
  | [] => True
  | v :: visits => now ≤ v.began ∧ v.began ≤ v.ended ∧ Chronological v.ended visits

end Takings
