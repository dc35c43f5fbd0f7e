import Takings.Http.Router
import Takings.Proofs.ParameterNames
import Takings.Proofs.Sessions

/-!
# Responses

What a request for a report or for the filter options can come to: a parameter that is given again
is refused, all else is left to the engine. Its bodies go out with status 200, and any failure
becomes one and the same response with status 500.
-/
namespace Takings.Http

open Takings.Filter

/-- The response to a request in which the parameter of a name is given again. -/
def Response.givenAgain (name : String) : Response :=
  .plain 400 ("Failed to deserialize query string: " ++ ("duplicate field `" ++ name ++ "`"))

/-- What a request for a route asks an engine for, if its parameters can be read. -/
inductive Asks (query : String) : Route → Demand → Prop
  | options : Asks query .options .options
  | report (r : Report) (p : Params) (h : Params.ofPairs (Form.pairs query) = .ok p) :
    Asks query (.report r) (.report r p)

/-- A request for a report gives a parameter again. -/
def GivesAgain (route : Route) (query : String) : Prop :=
  route ≠ .options ∧ ¬ (Parameters.given (Form.pairs query)).Nodup

/-- What an engine answers within an instant. -/
def served (e : Engine) (db : Database) (t : Moment) (demand : Demand) : Answer × Engine :=
  e.serve ⟨demand, db, t.today, t.instant, t.instant⟩

theorem get_of_asks {route : Route} {query : String} {demand : Demand}
    (h : Asks query route demand) (e : Engine) (db : Database) (t : Moment) :
    get e db t route query = (served e db t demand).1.outcome.map fun outcome =>
      ⟨.ofOutcome outcome, (served e db t demand).1.calls, (served e db t demand).2⟩ := by
  cases h with
  | options =>
    simp only [get, getOptions, Engine.options, served, Engine.serve]
    rcases e.optionsUntil db t.instant t.instant with ⟨run, next | next⟩ <;> rfl
  | report r p hp =>
    simp only [get, getReport, hp, served, Engine.serve]
    cases e.report db t r p <;> rfl

/-- The engine is asked, unless a parameter is given again. -/
theorem get_cases {route : Route} {query : String} (hr : route ≠ .health) :
    (¬ GivesAgain route query ∧ ∃ demand, Asks query route demand) ∨
      GivesAgain route query ∧ ∃ name, Parameters.FirstAgain (Form.pairs query) name ∧
        ∀ e db t, get e db t route query = .ok (.ofResponse e (.givenAgain name)) := by
  cases route with
  | health => exact absurd rfl hr
  | options => exact .inl ⟨fun h => h.1 rfl, _, .options⟩
  | report r =>
    rcases Parameters.ofPairs_cases (Form.pairs query) with ⟨hn, p, hp⟩ | ⟨hn, name, ha, hp⟩
    · exact .inl ⟨fun h => h.2 hn, _, .report r p hp⟩
    · refine .inr ⟨⟨by simp, hn⟩, name, ha, ?_⟩
      intro e db t
      rw [get, getReport, hp]
      rfl

section Handle

variable {c : Cors} {r : Request} {route : Route}

theorem handle_of_get (hm : r.method = "GET") (hp : Route.ofPath? r.path = some route)
    (e : Engine) (db : Database) (t : Moment) :
    handle c e db t r = (get e db t route r.query).map fun reply =>
      { reply with response := reply.response.withHeaders (c.headers r) } := by
  simp only [handle, dispatch, hp, hm, if_true]

theorem handle_of_asks {demand : Demand} (hm : r.method = "GET")
    (hp : Route.ofPath? r.path = some route) (h : Asks r.query route demand) (e : Engine)
    (db : Database) (t : Moment) :
    handle c e db t r = (served e db t demand).1.outcome.map fun outcome =>
      ⟨(Response.ofOutcome outcome).withHeaders (c.headers r), (served e db t demand).1.calls,
        (served e db t demand).2⟩ := by
  rw [handle_of_get hm hp, get_of_asks h]
  cases (served e db t demand).1.outcome <;> rfl

/-- An answer of the engine goes out with its body, or as the response to all failures. -/
theorem response_of_asks {demand : Demand} (hm : r.method = "GET")
    (hp : Route.ofPath? r.path = some route) (ha : Asks r.query route demand) {e : Engine}
    {db : Database} {t : Moment} {reply : Reply} (h : handle c e db t r = .ok reply) :
    (∃ v, reply.response = (Response.json 200 v).withHeaders (c.headers r)) ∨
      reply.response = Response.failed.withHeaders (c.headers r) := by
  rw [handle_of_asks hm hp ha] at h
  cases ho : (served e db t demand).1.outcome with
  | error stop =>
    rw [ho] at h
    cases h
  | ok outcome =>
    rw [ho] at h
    cases h
    cases outcome with
    | ok v => exact .inl ⟨v, rfl⟩
    | error f => exact .inr rfl

/-- The response to a request for a report or for the options has status 200, or it is the one
response for all failures, or it has status 400; that is exactly if a parameter is given again, and
names the first such one. So failures cannot be told apart. Else the engine decides: what it answers
goes out unless the program stops. -/
theorem statuses_of_get (hm : r.method = "GET") (hp : Route.ofPath? r.path = some route)
    (hr : route ≠ .health) :
    (∀ e db t reply, handle c e db t r = .ok reply →
      (reply.response.status = 400 ↔ GivesAgain route r.query) ∧
      (reply.response.status = 200 ∨
        reply.response = Response.failed.withHeaders (c.headers r) ∧
          reply.response.status = 500 ∧
          reply.response.body = "\x7b\"error\":\"Internal server error\"\x7d" ∨
        ∃ name, Parameters.FirstAgain (Form.pairs r.query) name ∧
          reply.response = (Response.givenAgain name).withHeaders (c.headers r))) ∧
    (∀ e db t reply e' db' t' reply', handle c e db t r = .ok reply →
      handle c e' db' t' r = .ok reply' → reply.response.status ≠ 200 →
        reply'.response.status ≠ 200 → reply'.response = reply.response) ∧
    (¬ GivesAgain route r.query → ∃ demand, Asks r.query route demand ∧ ∀ e db t,
      match (served e db t demand).1.outcome with
      | .ok (.ok v) => ∃ reply, handle c e db t r = .ok reply ∧
          reply.response = (Response.json 200 v).withHeaders (c.headers r) ∧
          ∀ call ∈ reply.calls, ∃ rows, db call = .ok rows
      | .ok (.error _) => ∃ reply, handle c e db t r = .ok reply ∧ reply.response.status = 500
      | .error stop => handle c e db t r = .error stop ∧
          ((∃ report p, demand = .report report p ∧ report.build? p t.today = none) ∨
            demand = .options ∧ endOfTime ≤ t.instant + e.cache.ttl)) := by
  have hbody : Response.failed.body = "\x7b\"error\":\"Internal server error\"\x7d" := by
    decide +kernel
  rcases get_cases hr with ⟨hn, demand, ha⟩ | ⟨hg, name, hf, hget⟩
  · refine ⟨?_, ?_, fun _ => ⟨demand, ha, ?_⟩⟩
    · intro e db t reply h
      rcases response_of_asks hm hp ha h with ⟨v, hv⟩ | hv
      · rw [hv]
        exact ⟨iff_of_false (by simp [Response.withHeaders, Response.json]) hn, .inl rfl⟩
      · rw [hv]
        exact ⟨iff_of_false (by simp [Response.withHeaders, Response.failed, Response.json]) hn,
          .inr (.inl ⟨rfl, rfl, hbody⟩)⟩
    · intro e db t reply e' db' t' reply' h h' hs hs'
      rcases response_of_asks hm hp ha h with ⟨v, hv⟩ | hv
      · rw [hv] at hs
        exact absurd rfl hs
      · rcases response_of_asks hm hp ha h' with ⟨v, hv'⟩ | hv'
        · rw [hv'] at hs'
          exact absurd rfl hs'
        · rw [hv, hv']
    · intro e db t
      have hh := handle_of_asks (c := c) hm hp ha e db t
      rw [hh]
      rcases ho : (served e db t demand).1.outcome with stop | f | v
      · exact ⟨rfl, (e.serves _).of_stop ho⟩
      · exact ⟨_, rfl, rfl⟩
      · exact ⟨_, rfl, rfl, (e.serves _).answered ho⟩
  · have hh (e : Engine) (db : Database) (t : Moment) : handle c e db t r =
        .ok (.ofResponse e ((Response.givenAgain name).withHeaders (c.headers r))) := by
      rw [handle_of_get hm hp, hget]
      rfl
    refine ⟨?_, ?_, fun hn => absurd hg hn⟩
    · intro e db t reply h
      rw [hh] at h
      cases h
      exact ⟨iff_of_true rfl hg, .inr (.inr ⟨name, hf, rfl⟩)⟩
    · intro e db t reply e' db' t' reply' h h' _ _
      rw [hh] at h h'
      cases h
      cases h'
      rfl

end Handle

/-- A database that is down and one whose rows make no sense: the responses are the same. -/
theorem failures_look_alike :
    let e := Engine.start ⟨.wholeDay, .utc⟩ 10
    let t : Moment := ⟨⟨2025, 6, 1, by decide, by decide⟩, 0⟩
    let r : Request := ⟨"GET", "/api/sales/summary?pod=A&unknown=1&unknown=2", []⟩
    ∃ reply reply', handle .everyone e (fun _ => .error (.internal "down")) t r = .ok reply ∧
      handle .everyone e (fun _ => .ok [.int 3]) t r = .ok reply' ∧
      reply.response.status = 500 ∧ reply'.response = reply.response := by
  intro e t r
  have hp : Route.ofPath? r.path = some (.report .summary) := by decide +kernel
  have hq : Form.pairs r.query = [("pod", "A"), ("unknown", "1"), ("unknown", "2")] := by
    decide +kernel
  have ha : Asks r.query (.report .summary) (.report .summary { Params.none with pod := some "A" }) :=
    .report _ _ (by rw [hq]; rfl)
  have hfails (db : Database) (f : Failure)
      (h : (served e db t (.report .summary { Params.none with pod := some "A" })).1.outcome =
        .ok (.error f)) :
      ∃ reply, handle .everyone e db t r = .ok reply ∧ reply.response.status = 500 := by
    rw [handle_of_asks rfl hp ha, h]
    exact ⟨_, rfl, rfl⟩
  obtain ⟨reply, h, hs⟩ := hfails (fun _ => .error (.internal "down")) _ rfl
  obtain ⟨reply', h', hs'⟩ := hfails (fun _ => .ok [.int 3]) _ rfl
  have hsame := (statuses_of_get rfl hp (by simp)).2.1 _ _ _ _ _ _ _ _ h h'
  refine ⟨reply, reply', h, h', hs, hsame ?_ ?_⟩
  · rw [hs]
    decide
  · rw [hs']
    decide

/-- A pod that is given twice is answered with status 400. -/
theorem pod_given_again :
    let e := Engine.start ⟨.wholeDay, .utc⟩ 10
    let t : Moment := ⟨⟨2025, 6, 1, by decide, by decide⟩, 0⟩
    let r : Request := ⟨"GET", "/api/sales?pod=A&pod=B", []⟩
    ∃ reply, handle .everyone e (fun _ => .error (.query "x")) t r = .ok reply ∧
      reply.response.status = 400 ∧
      reply.response.body = "Failed to deserialize query string: duplicate field `pod`" := by
  intro e t r
  have hp : Route.ofPath? r.path = some (.report .sales) := by decide +kernel
  have hq : Form.pairs r.query = [("pod", "A"), ("pod", "B")] := by decide +kernel
  have ho : Params.ofPairs (Form.pairs r.query) = .error (.duplicateField "pod") := by
    rw [hq]
    rfl
  refine ⟨.ofResponse e ((Response.givenAgain "pod").withHeaders (Cors.everyone.headers r)), ?_, rfl,
    by decide +kernel⟩
  rw [handle_of_get rfl hp, get, getReport, ho]
  rfl

end Takings.Http
