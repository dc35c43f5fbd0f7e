import Takings.Engine
import Takings.Http.Cors
import Takings.Http.Form

/-!
# Routes

The paths of the service and the responses to requests for them. Every response carries the
headers of cross-origin access.
-/
namespace Takings.Http

inductive Route where
  | health
  | options
  | report (r : Report)
  deriving DecidableEq, Repr

namespace Route

def path : Route → String
  | health => "/healthz"
  | options => "/api/mock-data"
  | report r => r.path

def all : List Route :=
  health :: options :: Report.all.map report

def ofPath? (path : String) : Option Route :=
  all.find? fun r => r.path = path

end Route

/-- A response, the calls that it took and the engine after it. -/
structure Reply where
  response : Response
  calls : List Call
  engine : Engine

/-- Answers without a query. -/
def Reply.ofResponse (e : Engine) (r : Response) : Reply :=
  ⟨r, [], e⟩

/-- Answers a request for a report. Parameters that are given twice are refused. -/
def getReport (e : Engine) (db : Database) (t : Moment) (r : Report) (query : String) :
    Except Abort Reply :=
  match Filter.Params.ofPairs (Form.pairs query) with
  | .error cause =>
    .ok (.ofResponse e
      (.plain 400 ("Failed to deserialize query string: " ++ cause.message)))
  | .ok p =>
    (e.report db t r p).map fun run => ⟨.ofOutcome run.outcome, run.calls, e⟩

def getOptions (e : Engine) (db : Database) (t : Moment) : Except Abort Reply :=
  (e.options db t).map fun (run, e) =>
    ⟨.ofOutcome (run.outcome.map Options.toJson), run.calls, e⟩

def get (e : Engine) (db : Database) (t : Moment) (route : Route) (query : String) :
    Except Abort Reply :=
  match route with
  | .health => .ok (.ofResponse e (.json 200 (.object [("status", .str "ok")])))
  | .options => getOptions e db t
  | .report r => getReport e db t r query

/-- Answers a request before cross-origin access is looked at. -/
def dispatch (e : Engine) (db : Database) (t : Moment) (r : Request) : Except Abort Reply :=
  let allow := [("allow", "GET,HEAD")]
  match Route.ofPath? r.path with
  | none => .ok (.ofResponse e (.empty (if r.method = "OPTIONS" then 200 else 404)))
  | some route =>
    if r.method = "GET" then get e db t route r.query
    else if r.method = "HEAD" then
      (get e db t route r.query).map fun reply =>
        { reply with response := { reply.response with body := "" } }
    else
      let status := if r.method = "OPTIONS" then 200 else 405
      .ok (.ofResponse e ((Response.empty status).withHeaders allow))

/-- Answers a request. -/
def handle (c : Cors) (e : Engine) (db : Database) (t : Moment) (r : Request) :
    Except Abort Reply :=
  (dispatch e db t r).map fun reply =>
    { reply with response := reply.response.withHeaders (c.headers r) }

end Takings.Http
