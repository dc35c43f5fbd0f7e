import Mathlib.Data.List.TakeWhile
import Takings.Proofs.ParameterValues
import Takings.Proofs.Responses
import Takings.Proofs.WrittenForms
import Takings.Settings.Basic

/-!
# Requests for reports

A request for a report comes to the one query of that report for the parameters that are written
into it, in whatever order and whatever way they are written.
-/
namespace Takings

open Takings.Filter

/-! ### What an engine shows -/

section Presentation

variable {e e' : Engine} {v : Visit} {a : Answer}

theorem Serves.presentation_eq (h : Serves e v a e') : e'.presentation = e.presentation := by
  cases h <;> rfl

/-- The presentation of an engine is what it was at the start. -/
theorem Engine.presentation_run (e : Engine) (visits : List Visit) :
    (e.run visits).presentation = e.presentation := by
  induction visits generalizing e with
  | nil => rfl
  | cons v visits ih =>
    rw [run, List.foldl_cons]
    exact (ih _).trans (e.serves v).presentation_eq

end Presentation

namespace Http

/-! ### Targets -/

/-- The targets with a path and a query. An empty query need not be marked. -/
inductive Targets (path query : String) : String → Prop
  | marked : Targets path query (path ++ "?" ++ query)
  | bare (h : query = "") : Targets path query path

/-- A path from the root, in which neither a query nor a fragment begins. -/
structure IsPath (path : String) : Prop where
  rooted : path.toList.head? = some '/'
  unmarked : '?' ∉ path.toList
  unbroken : '#' ∉ path.toList

namespace Request

variable {method path query target : String} {headers : List (String × String)}

theorem toList_marked (path query : String) :
    (path ++ "?" ++ query).toList = path.toList ++ '?' :: query.toList := by
  simp

/-- A target that begins with a slash has no scheme. -/
theorem resource_eq (h : target.toList.head? = some '/') (hf : '#' ∉ target.toList) :
    (⟨method, target, headers⟩ : Request).resource = target.toList := by
  have htake : target.toList.takeWhile (· != '#') = target.toList := by
    refine List.takeWhile_eq_self_iff.mpr ?_
    intro c hc
    simpa using fun h : c = '#' => hf (h ▸ hc)
  have hscheme : afterScheme? target.toList = none := by
    obtain ⟨cs, hcs⟩ := List.head?_eq_some_iff.mp h
    rw [hcs, afterScheme?, List.dropWhile_cons_of_neg (by decide)]
    rfl
  rw [resource]
  simp only [htake, hscheme]

theorem resource_of_targets (hp : IsPath path) (hq : '#' ∉ query.toList)
    (h : Targets path query target) : (⟨method, target, headers⟩ : Request).resource =
      target.toList := by
  cases h with
  | bare => exact resource_eq hp.rooted hp.unbroken
  | marked =>
    apply resource_eq
    · rw [toList_marked, List.head?_append, hp.rooted]
      rfl
    · rw [toList_marked]
      simp [hp.unbroken, hq]

theorem path_of_targets (hp : IsPath path) (hq : '#' ∉ query.toList)
    (h : Targets path query target) : (⟨method, target, headers⟩ : Request).path = path := by
  have hall : ∀ c ∈ path.toList, (c != '?') = true := by
    intro c hc
    simpa using fun h : c = '?' => hp.unmarked (h ▸ hc)
  rw [Request.path, resource_of_targets hp hq h]
  cases h with
  | bare => rw [List.takeWhile_eq_self_iff.mpr hall, String.ofList_toList]
  | marked =>
    rw [toList_marked, List.takeWhile_append_of_pos hall, List.takeWhile_cons_of_neg (by decide),
      List.append_nil, String.ofList_toList]

theorem query_of_targets (hp : IsPath path) (hq : '#' ∉ query.toList)
    (h : Targets path query target) : (⟨method, target, headers⟩ : Request).query = query := by
  rw [Request.query, resource_of_targets hp hq h]
  cases h with
  | bare hempty => rw [Text.cutFirst?_eq_none hp.unmarked, hempty]
  | marked =>
    rw [toList_marked, Text.cutFirst?_append hp.unmarked]
    exact String.ofList_toList

end Request

/-! ### Reports -/

theorem isPath_report (r : Report) : IsPath r.path := by
  cases r <;> exact ⟨by decide, by decide, by decide⟩

theorem ofPath?_report (r : Report) : Route.ofPath? r.path = some (.report r) := by
  cases r <;> rfl

namespace Form

theorem sharp_notMem_of_writes {q : List Char} {pairs : List (String × String)}
    (h : Writes q pairs) : '#' ∉ q := by
  induction h with
  | nil => exact List.not_mem_nil
  | skip _ ih => simp [ih]
  | last hp => exact (notMem_of_spellsPair hp).2
  | cons hp _ ih => simp [(notMem_of_spellsPair hp).2, ih]

end Form

section Reports

variable {p : Params} {pairs : List (String × String)} {q target : String}

theorem asks_report (hf : p.Filled) (hg : p.GivenBy pairs) (hw : Form.Writes q.toList pairs)
    (r : Report) : Asks q (.report r) (.report r p) := by
  refine .report r p ?_
  rw [Form.pairs, Form.pairs_of_writes hw]
  exact Parameters.ofPairs_of_givenBy hf hg

/-- What an engine answers to the parameters of a report. -/
theorem served_report (e : Engine) (db : Database) (t : Moment) (r : Report) (p : Params) :
    served e db t (.report r p) =
      match r.build? p t.today with
      | none => (⟨.error .beforeCalendar, []⟩, e)
      | some query =>
        (⟨.ok (db ⟨query.sql, query.binds⟩ >>= r.template.body e.presentation),
          [⟨query.sql, query.binds⟩]⟩, e) := by
  rw [served]
  simp only [Engine.serve, Engine.report]
  cases r.build? p t.today with
  | none => rfl
  | some query =>
    cases hrows : db ⟨query.sql, query.binds⟩ with
    | error f => simp [bind, Run.andThen, Run.query, hrows, Except.bind]
    | ok rows => simp [bind, Run.andThen, Run.query, Run.ofOutcome, hrows, Except.bind]

/-- The response to rows that are made into a body, if they can be. -/
theorem ofOutcome_bind (answer : Except Failure (List Json))
    (body : List Json → Except Failure Json) :
    (∀ rows v, answer = .ok rows → body rows = .ok v →
      Response.ofOutcome (answer >>= body) = .json 200 v) ∧
    ((¬ ∃ rows v, answer = .ok rows ∧ body rows = .ok v) →
      Response.ofOutcome (answer >>= body) = .failed) := by
  cases answer with
  | error f => exact ⟨fun _ _ h => (nomatch h), fun _ => rfl⟩
  | ok rows =>
    have hbind : (Except.ok rows >>= body) = body rows := rfl
    rw [hbind]
    constructor
    · intro _ v hrows hv
      cases hrows
      rw [hv]
      rfl
    · intro hno
      cases hv : body rows with
      | error f => rfl
      | ok v => exact absurd ⟨rows, v, rfl, hv⟩ hno

/-- A request for a report, with its parameters written in any order, in any way and among others,
makes the one call of that report's query and returns the text of the body of the rows, as JSON and
with success, or the response to all failures. Which requests came before, and whether they were
answered, does not matter. -/
theorem get_report (hf : p.Filled) (hg : p.GivenBy pairs) (hw : Form.Writes q.toList pairs)
    {r : Report} (ht : Targets r.path q target) (s : Settings) (zone : Zone) (before : List Visit)
    (c : Cors) (db : Database) (t : Moment) (headers : List (String × String)) :
    let view : Report.Presentation := ⟨s.hours, zone⟩
    let e := (Engine.start view s.ttl).run before
    let req : Request := ⟨"GET", target, headers⟩
    match r.build? p t.today with
    | none => handle c e db t req = .error .beforeCalendar
    | some query =>
      let call : Call := ⟨query.sql, query.binds⟩
      ∃ reply, handle c e db t req = .ok reply ∧ reply.calls = [call] ∧ reply.engine = e ∧
        (∀ rows v, db call = .ok rows → r.template.body view rows = .ok v →
          reply.response = (Response.json 200 v).withHeaders (c.headers req) ∧
            reply.response.status = 200 ∧
            reply.response.headers = ("content-type", "application/json") :: c.headers req ∧
            reply.response.body = v.text) ∧
        ((¬ ∃ rows v, db call = .ok rows ∧ r.template.body view rows = .ok v) →
          reply.response = Response.failed.withHeaders (c.headers req) ∧
            reply.response.status = 500) := by
  intro view e req
  have hq := Form.sharp_notMem_of_writes hw
  have hpath : Route.ofPath? req.path = some (.report r) := by
    rw [Request.path_of_targets (isPath_report r) hq ht, ofPath?_report]
  have hasks : Asks req.query (.report r) (.report r p) := by
    rw [Request.query_of_targets (isPath_report r) hq ht]
    exact asks_report hf hg hw r
  have hview : e.presentation = view := Engine.presentation_run _ before
  have hh := handle_of_asks (c := c) rfl hpath hasks e db t
  rw [hh, served_report, hview]
  cases r.build? p t.today with
  | none => rfl
  | some query =>
    obtain ⟨hok, hfail⟩ := ofOutcome_bind (db ⟨query.sql, query.binds⟩) (r.template.body view)
    refine ⟨_, rfl, rfl, rfl, ?_, ?_⟩
    · intro rows v hrows hv
      have hresponse := congrArg (Response.withHeaders · (c.headers req)) (hok rows v hrows hv)
      exact ⟨hresponse, congrArg Response.status hresponse, congrArg Response.headers hresponse,
        congrArg Response.body hresponse⟩
    · intro hno
      have hresponse := congrArg (Response.withHeaders · (c.headers req)) (hfail hno)
      exact ⟨hresponse, congrArg Response.status hresponse⟩

/-- Texts with a quotation mark, reserved characters and letters outside ASCII, in an order of
their own and with a pair that is no parameter's. -/
theorem spelled_report_request :
    let store := "\x7b\"level\":\"city\",\"value\":\"São & Co\"\x7d"
    let p : Params := { Params.none with
      timePeriod := some "today", pod := some "É +1%=#&", store := some store }
    let pairs := [("store", store), ("utm", "x"), ("pod", "É +1%=#&"), ("timePeriod", "today")]
    let q := String.ofList (Form.writePairs pairs)
    let e := Engine.start ⟨⟨6, 23⟩, .utc⟩ (Settings.embedded "").ttl
    let t : Moment := ⟨⟨2025, 6, 1, by decide, by decide⟩, 0⟩
    p.Filled ∧ p.GivenBy pairs ∧ Form.Writes q.toList pairs ∧
      ∃ reply, handle .everyone e (fun _ => .ok []) t ⟨"GET", "/api/sales/hourly-trend?" ++ q, []⟩ =
          .ok reply ∧ reply.response.status = 200 := by
  intro store p pairs q e t
  have hf : p.Filled := by decide +kernel
  have hg : p.GivenBy pairs := by decide +kernel
  have hw : Form.Writes q.toList pairs := by
    rw [String.toList_ofList]
    exact Form.writes_writePairs pairs
  have h := get_report hf hg hw (r := .hourlyTrend) .marked (Settings.embedded "") .utc []
    .everyone (fun _ => .ok []) t []
  have hbuilt : (Report.hourlyTrend.build? p t.today).isSome := by decide +kernel
  obtain ⟨query, hquery⟩ := Option.isSome_iff_exists.mp hbuilt
  simp only [hquery] at h
  obtain ⟨reply, hreply, -, -, hok, -⟩ := h
  refine ⟨hf, hg, hw, reply, hreply, ?_⟩
  exact (hok [] _ rfl rfl).2.1

end Reports

end Http

end Takings
