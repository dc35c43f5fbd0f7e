import Takings.Proofs.AllowedOrigins
import Takings.Proofs.TextBytes

/-!
# Granted origins

Which pages may read a response, whatever its path and its status are. If no origins are listed,
all of them may; otherwise a response names the origin of its request if that origin is listed,
byte for byte, and else none. So a list without an entry that can be a header value grants nothing,
although such a list is empty in the end like one that was never set.
-/
namespace Takings.Http

open Takings.Filter Text

variable {c : Cors} {e : Engine} {db : Database} {t : Moment} {r : Request} {reply : Reply}

/-! ### Headers of responses -/

/-- The origins that headers grant access to. -/
def grants (headers : List (String × String)) : List String :=
  (headers.filter fun header => header.1 = "access-control-allow-origin").map Prod.snd

@[simp] theorem grants_nil : grants [] = [] := rfl

@[simp] theorem grants_cons (name value : String) (headers : List (String × String)) :
    grants ((name, value) :: headers) =
      if name = "access-control-allow-origin" then value :: grants headers else grants headers := by
  by_cases hn : name = "access-control-allow-origin" <;> simp [grants, hn]

@[simp] theorem grants_append (headers headers' : List (String × String)) :
    grants (headers ++ headers') = grants headers ++ grants headers' := by
  rw [grants, List.filter_append, List.map_append]
  rfl

@[simp] theorem grants_json (status : Nat) (v : Json) :
    grants (Response.json status v).headers = [] := by
  simp [Response.json]

theorem grants_ofOutcome (outcome : Except Failure Json) :
    grants (Response.ofOutcome outcome).headers = [] := by
  cases outcome with
  | ok v => exact grants_json 200 v
  | error f => exact grants_json 500 _

theorem grants_of_get {route : Route} {query : String} (h : get e db t route query = .ok reply) :
    grants reply.response.headers = [] := by
  cases route with
  | health =>
    cases h
    exact grants_json 200 _
  | options =>
    obtain ⟨⟨run, next⟩, -, rfl⟩ := map_eq_ok_iff.mp h
    exact grants_ofOutcome _
  | report report =>
    rw [get, getReport] at h
    split at h
    · cases h
      simp [Reply.ofResponse, Response.plain]
    · obtain ⟨run, -, rfl⟩ := map_eq_ok_iff.mp h
      exact grants_ofOutcome _

/-- No route has a say in who may read its responses. -/
theorem grants_of_dispatch (h : dispatch e db t r = .ok reply) :
    grants reply.response.headers = [] := by
  simp only [dispatch] at h
  split at h
  · cases h
    rfl
  · by_cases hget : r.method = "GET"
    · rw [if_pos hget] at h
      exact grants_of_get h
    rw [if_neg hget] at h
    by_cases hhead : r.method = "HEAD"
    · rw [if_pos hhead] at h
      obtain ⟨full, hfull, rfl⟩ := map_eq_ok_iff.mp h
      exact (grants_of_get hfull :)
    · rw [if_neg hhead] at h
      cases h
      simp [Reply.ofResponse, Response.empty, Response.withHeaders]

theorem grants_headers (c : Cors) (r : Request) : grants (c.headers r) = (c.allowed? r).toList := by
  have hrest : grants (if r.method = "OPTIONS" then c.preflight else c.exposed) = [] := by
    cases c <;> split <;> simp [Cors.preflight, Cors.exposed]
  rw [Cors.headers, grants_append, hrest]
  cases c.allowed? r <;> simp

/-- What a response grants depends on its request alone, and not on what is answered. -/
theorem grants_of_handle (h : handle c e db t r = .ok reply) :
    grants reply.response.headers = (c.allowed? r).toList := by
  obtain ⟨answer, hanswer, rfl⟩ := map_eq_ok_iff.mp h
  rw [← grants_headers]
  exact (grants_append _ _).trans (by rw [grants_of_dispatch hanswer, List.nil_append])

/-! ### Listed origins -/

theorem Cors.allowed?_listed_eq_some_iff {origins : List String} {x : String} :
    (listed origins).allowed? r = some x ↔
      x ∈ origins ∧ r.header? "origin" = some (Utf8.encode x.toList) := by
  rw [allowed?, Option.bind_eq_some_iff]
  constructor
  · rintro ⟨o, ho, hx⟩
    have hbytes : Utf8.encode x.toList = o := by simpa using List.find?_some hx
    exact ⟨List.mem_of_find?_eq_some hx, hbytes ▸ ho⟩
  · rintro ⟨hx, ho⟩
    refine ⟨_, ho, ?_⟩
    simp only [Utf8.encode_toList_inj]
    obtain ⟨x', hx'⟩ : ∃ x', origins.find? (fun x' => decide (x' = x)) = some x' :=
      Option.isSome_iff_exists.mp (List.find?_isSome.mpr ⟨x, hx, by simp⟩)
    have heq : x' = x := by simpa using List.find?_some hx'
    rw [hx', heq]

/-- With listed origins a response grants access to the origin of its request or to none. -/
theorem grants_of_listed {origins : List String} {o : List UInt8}
    (h : handle (.listed origins) e db t r = .ok reply) (ho : r.header? "origin" = some o) :
    (grants reply.response.headers ≠ [] ↔ ∃ x ∈ origins, Utf8.encode x.toList = o) ∧
      ∀ x ∈ grants reply.response.headers,
        grants reply.response.headers = [x] ∧ Utf8.encode x.toList = o := by
  rw [grants_of_handle h]
  cases hallowed : (Cors.listed origins).allowed? r with
  | none =>
    refine ⟨iff_of_false (fun hne => hne rfl) ?_, by simp⟩
    rintro ⟨x, hx, rfl⟩
    have hsome := Cors.allowed?_listed_eq_some_iff.mpr ⟨hx, ho⟩
    rw [hallowed] at hsome
    cases hsome
  | some x =>
    obtain ⟨hx, hbytes⟩ := Cors.allowed?_listed_eq_some_iff.mp hallowed
    rw [ho, Option.some_inj] at hbytes
    refine ⟨iff_of_true (List.cons_ne_nil _ _) ⟨x, hx, hbytes.symm⟩, ?_⟩
    intro x' hx'
    obtain rfl := List.mem_singleton.mp hx'
    exact ⟨rfl, hbytes.symm⟩

/-! ### Requests without a response -/

/-- A request stops the program only on a route: for a window before the calendar or a time of
keeping beyond the clock. -/
theorem route_of_stop {stop : Abort} (hm : r.method = "GET")
    (h : handle c e db t r = .error stop) :
    (∃ report p, Route.ofPath? r.path = some (.report report) ∧
      Params.ofPairs (Form.pairs r.query) = .ok p ∧ report.build? p t.today = none) ∨
    Route.ofPath? r.path = some .options ∧ endOfTime ≤ t.instant + e.cache.ttl := by
  cases hp : Route.ofPath? r.path with
  | none =>
    simp only [handle, dispatch, hp] at h
    cases h
  | some route =>
    by_cases hr : route = .health
    · subst hr
      rw [handle_of_get hm hp] at h
      cases h
    · rcases @get_cases route r.query hr with ⟨-, demand, ha⟩ | ⟨-, name, -, hget⟩
      · rw [handle_of_asks hm hp ha] at h
        cases ho : (served e db t demand).1.outcome with
        | ok outcome =>
          rw [ho] at h
          cases h
        | error stop =>
          rcases (e.serves _).of_stop ho with ⟨report, p, hd, hb⟩ | ⟨hd, ht⟩
          · cases hd
            cases ha with
            | report _ _ hparams => exact .inl ⟨report, p, rfl, hparams, hb⟩
          · cases hd
            cases ha with
            | options => exact .inr ⟨rfl, ht⟩
      · rw [handle_of_get hm hp, hget] at h
        cases h

/-- A path that leads nowhere is answered, too. -/
theorem exists_reply_nowhere (hm : r.method = "GET") (hp : Route.ofPath? r.path = none)
    (c : Cors) (e : Engine) (db : Database) (t : Moment) :
    ∃ reply, handle c e db t r = .ok reply ∧ reply.response.status = 404 := by
  have hoptions : r.method ≠ "OPTIONS" := by
    rw [hm]
    decide
  simp only [handle, dispatch, hp, if_neg hoptions]
  exact ⟨_, rfl, rfl⟩

/-! ### Access -/

/-- In an environment that lists origins, none of them the wildcard, the service grants access to
exactly those that can be header values: it answers them with their own bytes and all others without
a word about origins, whatever path is asked for. Without listed origins it grants access to all. -/
theorem access_is_granted_to_listed_origins {entries : List (String × String)} {s : Settings}
    {resolve : Settings.Resolver} (h : Settings.ofEnvironment entries resolve = .ok s)
    (hw : "*" ∉ Settings.originsOf entries) :
    ∃ c, Cors.ofOrigins s.allowedOrigins = .ok c ∧
      ∀ (e : Engine) (db : Database) (t : Moment) (r : Request) (o : List UInt8),
        r.header? "origin" = some o →
        (∀ reply, handle c e db t r = .ok reply →
          let granted := grants reply.response.headers
          (Settings.originsOf entries = [] → granted = ["*"]) ∧
          (Settings.originsOf entries ≠ [] →
            (granted ≠ [] ↔ ∃ x ∈ Settings.originsOf entries,
              FreeOfControls x ∧ Utf8.encode x.toList = o) ∧
            ∀ x ∈ granted, granted = [x] ∧ Utf8.encode x.toList = o)) ∧
        (r.method = "GET" → ∀ stop, handle c e db t r = .error stop →
          (∃ report p, Route.ofPath? r.path = some (.report report) ∧
            Params.ofPairs (Form.pairs r.query) = .ok p ∧ report.build? p t.today = none) ∨
          Route.ofPath? r.path = some .options ∧ endOfTime ≤ t.instant + e.cache.ttl) := by
  have hpolicy := Cors.ofOrigins_of_ofEnvironment h
  rw [if_neg hw] at hpolicy
  by_cases hnone : Settings.originsOf entries = []
  · rw [if_pos hnone] at hpolicy
    refine ⟨.everyone, hpolicy, fun e db t r o ho => ⟨?_, fun hm _ => route_of_stop hm⟩⟩
    intro reply hreply
    exact ⟨fun _ => grants_of_handle hreply, fun hsome => absurd hnone hsome⟩
  · rw [if_neg hnone] at hpolicy
    refine ⟨.listed _, hpolicy, fun e db t r o ho => ⟨?_, fun hm _ => route_of_stop hm⟩⟩
    intro reply hreply
    obtain ⟨hgranted, honly⟩ := grants_of_listed hreply ho
    refine ⟨fun hempty => absurd hempty hnone, fun _ => ⟨?_, honly⟩⟩
    rw [hgranted]
    simp only [List.mem_filter, decide_eq_true_eq, and_assoc]

/-- A request that a page of an origin makes. -/
def Request.ofPage (target origin : String) : Request :=
  ⟨"GET", target, ([("Origin", origin)] : List (String × String))⟩

theorem Request.header?_ofPage (target origin : String) :
    (ofPage target origin).header? "origin" = some (Utf8.encode origin.toList) :=
  rfl

/-- A page of a listed origin may read that a path leads nowhere and that a report failed. One of an
origin with a letter too few may not. -/
theorem listed_origin_reads_failures :
    let e := Engine.start ⟨.wholeDay, .utc⟩ 10
    let t : Moment := ⟨⟨2025, 6, 1, by decide, by decide⟩, 0⟩
    let db : Database := fun _ => .error (.internal "down")
    ∃ s c, Settings.ofEnvironment [("DATABASE_URL", "db"),
        ("SALES_ALLOWED_ORIGINS", " http://\u00e9 ,http://\x07,")] = .ok s ∧
      Cors.ofOrigins s.allowedOrigins = .ok c ∧
      (∃ reply, handle c e db t (.ofPage "/nowhere" "http://\u00e9") = .ok reply ∧
        reply.response.status = 404 ∧ grants reply.response.headers = ["http://\u00e9"]) ∧
      (∃ reply, handle c e db t (.ofPage "/api/sales" "http://\u00e9") = .ok reply ∧
        reply.response.status = 500 ∧ grants reply.response.headers = ["http://\u00e9"]) ∧
      ∃ reply, handle c e db t (.ofPage "/healthz" "http://") = .ok reply ∧
        reply.response.status = 200 ∧ grants reply.response.headers = [] := by
  intro e t db
  obtain ⟨s, hs⟩ := Settings.exists_settings_of_allowedOrigins " http://\u00e9 ,http://\x07,"
  have horigins : Settings.originsOf [("DATABASE_URL", "db"),
      ("SALES_ALLOWED_ORIGINS", " http://\u00e9 ,http://\x07,")] =
      ["http://\u00e9", "http://\x07"] :=
    rfl
  obtain ⟨c, hc, hgrants⟩ := access_is_granted_to_listed_origins hs (by rw [horigins]; decide)
  rw [horigins] at hgrants
  have hlisted {target : String} {reply : Reply}
      (h : handle c e db t (.ofPage target "http://\u00e9") = .ok reply) :
      grants reply.response.headers = ["http://\u00e9"] := by
    have horigin := Request.header?_ofPage target "http://\u00e9"
    obtain ⟨hiff, honly⟩ := ((hgrants e db t _ _ horigin).1 reply h).2 (by decide)
    obtain ⟨x, hx⟩ := List.exists_mem_of_ne_nil _
      (hiff.mpr ⟨_, List.mem_cons_self, by decide, rfl⟩)
    obtain ⟨hgranted, hbytes⟩ := honly x hx
    rw [hgranted, Utf8.encode_toList_inj.mp hbytes]
  refine ⟨s, c, hs, hc, ?_, ?_, ?_⟩
  · have hpath : Route.ofPath? (Request.ofPage "/nowhere" "http://\u00e9").path = none :=
      rfl
    obtain ⟨reply, hreply, hstatus⟩ := exists_reply_nowhere rfl hpath c e db t
    exact ⟨reply, hreply, hstatus, hlisted hreply⟩
  · have hpath : Route.ofPath? (Request.ofPage "/api/sales" "http://\u00e9").path =
        some (.report .sales) :=
      rfl
    have hquery : Form.pairs (Request.ofPage "/api/sales" "http://\u00e9").query = [] :=
      rfl
    have hparams : Params.ofPairs (Form.pairs (Request.ofPage "/api/sales" "http://\u00e9").query) =
        .ok .none := by
      rw [hquery]
      rfl
    have hfails : (served e db t (.report .sales .none)).1.outcome =
        .ok (.error (.internal "down")) :=
      rfl
    have hreply := handle_of_asks (c := c) rfl hpath (.report .sales .none hparams) e db t
    rw [hfails] at hreply
    exact ⟨_, hreply, rfl, hlisted hreply⟩
  · have hpath : (Request.ofPage "/healthz" "http://").path = "/healthz" :=
      rfl
    obtain ⟨reply, hreply, hstatus⟩ := exists_reply_health rfl hpath c e db t
    have horigin := Request.header?_ofPage "/healthz" "http://"
    obtain ⟨hiff, -⟩ := ((hgrants e db t _ _ horigin).1 reply hreply).2 (by decide)
    refine ⟨reply, hreply, hstatus, ?_⟩
    by_contra hne
    obtain ⟨x, hx, -, hbytes⟩ := hiff.mp hne
    rw [Utf8.encode_toList_inj] at hbytes
    subst hbytes
    exact absurd hx (by decide)

end Takings.Http
