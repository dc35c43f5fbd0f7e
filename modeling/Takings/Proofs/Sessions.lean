import Takings.Proofs.FlightOrder
import Takings.Proofs.Lookups
import Takings.Session

/-!
# The options over a session

A request for filter options makes calls unless options were loaded with success a short while
before; then it is served what was loaded then. Failures leave nothing behind, and reports have
nothing to do with what is kept.
-/
namespace Takings

/-! ### What a request does -/

/-- All that serving a request can be: the answer and the engine afterwards. -/
inductive Serves (e : Engine) (v : Visit) : Answer → Engine → Prop
  | outside {r : Report} {p : Filter.Params} (hd : v.demand = .report r p)
    (hb : r.build? p v.today = none) : Serves e v ⟨.error .beforeCalendar, []⟩ e
  | report {r : Report} {p : Filter.Params} {q : Query} {run : Run Json}
    (hd : v.demand = .report r p) (hb : r.build? p v.today = some q)
    (hr : run = do
      let rows ← Run.query v.db ⟨q.sql, q.binds⟩
      Run.ofOutcome (r.template.body e.presentation rows)) :
    Serves e v ⟨.ok run.outcome, run.calls⟩ e
  | kept {o : Options} (hd : v.demand = .options) (hg : e.cache.get? () v.began = some o) :
    Serves e v ⟨.ok (.ok o.toJson), []⟩ e
  | failed {f : Failure} (hd : v.demand = .options) (hg : e.cache.get? () v.began = none)
    (hf : (Options.load v.db).outcome = .error f) :
    Serves e v ⟨.ok (.error f), (Options.load v.db).calls⟩ e
  | loaded {o : Options} (hd : v.demand = .options) (hg : e.cache.get? () v.began = none)
    (ho : (Options.load v.db).outcome = .ok o) (ht : v.ended + e.cache.ttl < endOfTime) :
    Serves e v ⟨.ok (.ok o.toJson), (Options.load v.db).calls⟩
      { e with cache := e.cache.put () ⟨o, v.ended + e.cache.ttl⟩ }
  | beyond {o : Options} (hd : v.demand = .options) (hg : e.cache.get? () v.began = none)
    (ho : (Options.load v.db).outcome = .ok o) (ht : ¬ v.ended + e.cache.ttl < endOfTime) :
    Serves e v ⟨.error .beyondClock, (Options.load v.db).calls⟩ e

theorem Engine.serves (e : Engine) (v : Visit) : Serves e v (e.serve v).1 (e.serve v).2 := by
  cases hd : v.demand with
  | report r p =>
    cases hb : r.build? p v.today with
    | none =>
      simp only [serve, hd, report, hb]
      exact .outside hd hb
    | some q =>
      simp only [serve, hd, report, hb]
      exact .report hd hb rfl
  | options =>
    cases hg : e.cache.get? () v.began with
    | some o =>
      simp only [serve, hd, optionsUntil, Cache.getOrRunUntil, hg]
      exact .kept hd hg
    | none =>
      cases ho : (Options.load v.db).outcome with
      | error f =>
        simp only [serve, hd, optionsUntil, Cache.getOrRunUntil, hg, ho, Except.map]
        exact .failed hd hg ho
      | ok o =>
        by_cases ht : v.ended + e.cache.ttl < endOfTime
        · simp only [serve, hd, optionsUntil, Cache.getOrRunUntil, hg, ho, later?, ht, if_true,
            Except.map]
          exact .loaded hd hg ho ht
        · simp only [serve, hd, optionsUntil, Cache.getOrRunUntil, hg, ho, later?, ht, if_false]
          exact .beyond hd hg ho ht

/-- A report leaves the engine as it is, and its answer does not depend on what is kept. -/
theorem Engine.serve_report (e : Engine) {v : Visit} (h : v.demand ≠ .options) :
    (e.serve v).2 = e ∧ ∀ cache, ({ e with cache := cache }.serve v).1 = (e.serve v).1 := by
  cases hd : v.demand with
  | options => exact absurd hd h
  | report r p =>
    simp only [serve, hd, report]
    cases r.build? p v.today <;> simp

namespace Serves

variable {e e' : Engine} {v : Visit} {a : Answer}

/-- Fresh options are served as they are. -/
theorem of_fresh {o : Options} (hs : Serves e v a e') (hv : v.demand = .options)
    (h : e.cache.get? () v.began = some o) : a = ⟨.ok (.ok o.toJson), []⟩ ∧ e' = e := by
  cases hs with
  | kept _ hg =>
    rw [h] at hg
    cases hg
    exact ⟨rfl, rfl⟩
  | outside hd _ | report hd _ _ => rw [hv] at hd; cases hd
  | failed _ hg _ | loaded _ hg _ _ | beyond _ hg _ _ => rw [h] at hg; cases hg

/-- Without fresh options all lookups run, and the first one that fails decides. -/
theorem of_stale (hs : Serves e v a e') (hv : v.demand = .options)
    (h : e.cache.get? () v.began = none) :
    a.calls = (Options.load v.db).calls ∧
      (∀ f, Lookup.all.findSome? (fun l => l.failure? v.db) = some f →
        a.outcome = .ok (.error f) ∧ e' = e) ∧
      (Lookup.all.findSome? (fun l => l.failure? v.db) = none →
        ∃ o, Options.LoadedFrom v.db o ∧
          a.outcome = if v.ended + e.cache.ttl < endOfTime then .ok (.ok o.toJson)
            else .error .beyondClock) := by
  cases hs with
  | outside hd _ | report hd _ _ => rw [hv] at hd; cases hd
  | kept _ hg => rw [h] at hg; cases hg
  | failed _ _ ho =>
    rw [Options.outcome_load_eq_error_iff.mp ho]
    refine ⟨rfl, ?_, fun hn => nomatch hn⟩
    intro f hf
    cases hf
    exact ⟨rfl, rfl⟩
  | loaded _ _ ho ht =>
    rw [Options.findSome?_failure?_of_ok ho]
    refine ⟨rfl, fun _ hf => (nomatch hf), ?_⟩
    intro _
    exact ⟨_, Options.loadedFrom_of_ok ho, (if_pos ht).symm⟩
  | beyond _ _ ho ht =>
    rw [Options.findSome?_failure?_of_ok ho]
    refine ⟨rfl, fun _ hf => (nomatch hf), ?_⟩
    intro _
    exact ⟨_, Options.loadedFrom_of_ok ho, (if_neg ht).symm⟩

theorem calls_ne_nil_iff (hs : Serves e v a e') (hv : v.demand = .options) :
    a.calls ≠ [] ↔ e.cache.get? () v.began = none := by
  cases h : e.cache.get? () v.began with
  | some o => simp [(hs.of_fresh hv h).1]
  | none => simp [(hs.of_stale hv h).1, Options.calls_load_ne_nil]

/-- A request stops only for a window before the calendar or a time of keeping beyond the clock. -/
theorem of_stop {stop : Abort} (hs : Serves e v a e') (h : a.outcome = .error stop) :
    (∃ r p, v.demand = .report r p ∧ r.build? p v.today = none) ∨
      v.demand = .options ∧ endOfTime ≤ v.ended + e.cache.ttl := by
  cases hs with
  | outside hd hb => exact .inl ⟨_, _, hd, hb⟩
  | beyond hd _ _ ht => exact .inr ⟨hd, Nat.le_of_not_lt ht⟩
  | report _ _ _ | kept _ _ | failed _ _ _ | loaded _ _ _ _ => cases h

/-- What is answered with a body had every call answered. -/
theorem answered {body : Json} (hs : Serves e v a e') (h : a.outcome = .ok (.ok body)) :
    ∀ call ∈ a.calls, ∃ rows, v.db call = .ok rows := by
  cases hs with
  | report _ _ hr =>
    subst hr
    refine ((Run.answered_query v.db _).bind ?_) body (Except.ok.inj h)
    intro rows
    exact Run.answered_of_calls_nil rfl
  | kept _ _ =>
    intro call hc
    cases hc
  | loaded _ _ ho _ => exact Options.answered_load _ ho
  | outside _ _ | failed _ _ _ | beyond _ _ _ _ => cases h

end Serves

/-! ### What is kept -/

/-- A request of the past that loaded options with success, less than a span before an instant. -/
structure Recent (span now : Nat) (x : Visit × Answer) (o : Json) : Prop where
  demand : x.1.demand = .options
  loaded : x.2.calls ≠ []
  outcome : x.2.outcome = .ok (.ok o)
  recent : now < x.1.ended + span

theorem Recent.mono {span now t : Nat} {x : Visit × Answer} {o : Json} (h : Recent span t x o)
    (hle : now ≤ t) : Recent span now x o :=
  ⟨h.demand, h.loaded, h.outcome, Nat.lt_of_le_of_lt hle h.recent⟩

/-- From an instant on, an engine keeps what a recent request of its past loaded, and only that. -/
structure Keeps (span : Nat) (past : List (Visit × Answer)) (e : Engine) (now : Nat) : Prop where
  ttl : e.cache.ttl = span
  fresh : ∀ t, now ≤ t → ∀ o, (e.cache.get? () t).map Options.toJson = some o ↔
    ∃ x ∈ past, Recent span t x o

namespace Keeps

variable {span now : Nat} {past : List (Visit × Answer)} {e : Engine} {v : Visit}

theorem start (view : Report.Presentation) (span : Nat) :
    Keeps span [] (.start view span) now := by
  constructor
  · rfl
  · intro t _ o
    simp [Engine.start, Cache.empty, Cache.get?, Cache.lookup?]

theorem get?_eq_none_iff (h : Keeps span past e now) {t : Nat} (ht : now ≤ t) :
    e.cache.get? () t = none ↔ ¬ ∃ x ∈ past, ∃ o, Recent span t x o := by
  have hf := h.fresh t ht
  cases hg : e.cache.get? () t with
  | none =>
    simp only [hg, Option.map_none, reduceCtorEq, false_iff] at hf
    simp only [true_iff]
    rintro ⟨x, hx, o, hr⟩
    exact hf o ⟨x, hx, hr⟩
  | some p =>
    rw [hg] at hf
    obtain ⟨x, hx, hr⟩ := (hf p.toJson).mp rfl
    simp only [reduceCtorEq, false_iff]
    exact fun hn => hn ⟨x, hx, _, hr⟩

/-- Requests that load nothing with success change nothing. -/
theorem append {a : Answer} (h : Keeps span past e now) {t : Nat} (ht : now ≤ t)
    (ha : v.demand = .options → a.calls ≠ [] → ∀ o, a.outcome ≠ .ok (.ok o)) :
    Keeps span (past ++ [(v, a)]) e t := by
  refine ⟨h.ttl, ?_⟩
  intro u hu o
  have hn : ¬ Recent span u (v, a) o := by
    intro hr
    exact ha hr.demand hr.loaded o hr.outcome
  simp [h.fresh u (Nat.le_trans ht hu), or_and_right, exists_or, hn]

/-- One request: options that are loaded with success take the place of what was kept. -/
theorem serves {e' : Engine} {a : Answer} (h : Keeps span past e now) (hs : Serves e v a e')
    (hn : now ≤ v.began) (hv : v.began ≤ v.ended) : Keeps span (past ++ [(v, a)]) e' v.ended := by
  have hle : now ≤ v.ended := Nat.le_trans hn hv
  cases hs with
  | outside hd _ | report hd _ _ => exact h.append hle (by simp [hd])
  | kept _ _ | failed _ _ _ | beyond _ _ _ _ => exact h.append hle (by simp)
  | @loaded o hd hg ho ht =>
    refine ⟨h.ttl, ?_⟩
    intro t ht j
    have hold : ¬ ∃ x ∈ past, Recent span t x j := by
      rintro ⟨x, hx, hr⟩
      exact (h.get?_eq_none_iff hn).mp hg ⟨x, hx, j, hr.mono (Nat.le_trans hv ht)⟩
    have hnew : Recent span t (v, ⟨.ok (.ok o.toJson), (Options.load v.db).calls⟩) j ↔
        t < v.ended + span ∧ o.toJson = j := by
      constructor
      · intro hr
        have hj := hr.outcome
        simp only [Except.ok.injEq] at hj
        exact ⟨hr.recent, hj⟩
      · rintro ⟨hr, rfl⟩
        exact ⟨hd, Options.calls_load_ne_nil, rfl, hr⟩
    simp only [List.mem_append, List.mem_singleton, or_and_right, exists_or, exists_eq_left,
      hold, false_or, hnew, Cache.get?_put, h.ttl]
    split <;> simp [*]

end Keeps

/-- A whole session. -/
theorem Keeps.run {span now : Nat} {past : List (Visit × Answer)} {e : Engine}
    {visits rest : List Visit} (h : Keeps span past e now)
    (hc : Chronological now (visits ++ rest)) :
    ∃ t, Keeps span (past ++ e.transcript visits) (e.run visits) t ∧ Chronological t rest := by
  induction visits generalizing past e now with
  | nil => exact ⟨now, by simpa [Engine.transcript, Engine.run] using h, hc⟩
  | cons v visits ih =>
    obtain ⟨hn, hv, hc⟩ := hc
    obtain ⟨t, ht, hr⟩ := ih (h.serves (e.serves v) hn hv) hc
    rw [List.append_assoc] at ht
    exact ⟨t, ht, hr⟩

theorem Chronological.le_began {now : Nat} {visits rest : List Visit} {v : Visit}
    (h : Chronological now (visits ++ v :: rest)) : now ≤ v.began := by
  induction visits generalizing now with
  | nil => exact h.1
  | cons u visits ih =>
    obtain ⟨hn, hu, h⟩ := h
    exact Nat.le_trans hn (Nat.le_trans hu (ih h))

theorem Chronological.le_of_append {now : Nat} {visits rest : List Visit} {u v : Visit}
    (h : Chronological now (visits ++ u :: (rest ++ [v]))) : u.began ≤ v.began := by
  induction visits generalizing now with
  | nil => exact Nat.le_trans h.2.1 h.2.2.le_began
  | cons w visits ih => exact ih h.2.2

theorem Engine.run_of_reports (e : Engine) {visits : List Visit}
    (h : ∀ v ∈ visits, v.demand ≠ .options) : e.run visits = e := by
  induction visits with
  | nil => rfl
  | cons v visits ih =>
    rw [List.forall_mem_cons] at h
    rw [run, List.foldl_cons, (e.serve_report h.1).1]
    exact ih h.2

/-- In a session of requests that come one after the other, a request for options makes calls
exactly if none that came less than the time of keeping before loaded them with success. If one
did, its response is served again, whatever the database answers now. If not, all lookups run: the
first one that fails decides the failure, nothing is kept of it, and the next request for options
runs them again. Reports neither change nor read what is kept. -/
theorem options_kept_while_recent (view : Report.Presentation) (span : Nat) {now : Nat}
    {before : List Visit} {v : Visit} (h : Chronological now (before ++ [v])) :
    let e := (Engine.start view span).run before
    let past := (Engine.start view span).transcript before
    let a := (e.serve v).1
    (v.demand = .options →
      (a.calls ≠ [] ↔ ¬ ∃ x ∈ past, ∃ o, Recent span v.began x o) ∧
      (∀ x ∈ past, ∀ o, Recent span v.began x o →
        e.serve v = (⟨.ok (.ok o), []⟩, e) ∧ a.response? = x.2.response?) ∧
      (a.calls ≠ [] →
        a.calls = (Options.load v.db).calls ∧
        (∀ f, Lookup.all.findSome? (fun l => l.failure? v.db) = some f →
          a.outcome = .ok (.error f) ∧ (e.serve v).2 = e ∧
          ∀ (reports : List Visit) (next : Visit), (∀ r ∈ reports, r.demand ≠ .options) →
            next.demand = .options → Chronological now (before ++ v :: (reports ++ [next])) →
              (((Engine.start view span).run (before ++ v :: reports)).serve next).1.calls ≠ []) ∧
        (Lookup.all.findSome? (fun l => l.failure? v.db) = none →
          ∃ o, Options.LoadedFrom v.db o ∧
            a.outcome = if v.ended + span < endOfTime then .ok (.ok o.toJson)
              else .error .beyondClock))) ∧
    (v.demand ≠ .options →
      (e.serve v).2 = e ∧ ∀ cache, ({ e with cache := cache }.serve v).1 = a) := by
  intro e past a
  obtain ⟨t, hk, hv, -⟩ := (Keeps.start view span).run h
  rw [List.nil_append] at hk
  have hs := e.serves v
  refine ⟨fun hd => ⟨?_, ?_, ?_⟩, e.serve_report⟩
  · rw [← hk.get?_eq_none_iff hv]
    exact hs.calls_ne_nil_iff hd
  · intro x hx o hr
    obtain ⟨p, hp, rfl⟩ := Option.map_eq_some_iff.mp ((hk.fresh _ hv o).mpr ⟨x, hx, hr⟩)
    obtain ⟨ha, he⟩ := hs.of_fresh hd hp
    refine ⟨Prod.ext ha he, ?_⟩
    rw [Answer.response?, Answer.response?, hr.outcome]
    simp only [a, ha]
  · intro hc
    have hg := (hs.calls_ne_nil_iff hd).mp hc
    obtain ⟨hcalls, hfails, hloads⟩ := hs.of_stale hd hg
    refine ⟨hcalls, ?_, ?_⟩
    · intro f hf
      obtain ⟨ha, he⟩ := hfails f hf
      refine ⟨ha, he, ?_⟩
      intro reports next hr hn hc
      have hrun : (Engine.start view span).run (before ++ v :: reports) = e := by
        rw [Engine.run, List.foldl_append, List.foldl_cons]
        exact (congrArg (fun e => e.run reports) he).trans (e.run_of_reports hr)
      rw [hrun, (e.serves next).calls_ne_nil_iff hn]
      exact Cache.get?_eq_none_of_le hc.le_of_append hg
    · rwa [hk.ttl] at hloads

/-- Options that are kept for ten units and were loaded from empty tables until the instant five: at
fourteen they are served though the database is down, at fifteen its failure shows. -/
theorem options_expire_at_boundary :
    let day : Date := ⟨2025, 6, 1, by decide, by decide⟩
    let view : Report.Presentation := ⟨.wholeDay, .utc⟩
    let down : Database := fun _ => .error (.query "down")
    let load : Visit := ⟨.options, fun _ => .ok [], day, 0, 5⟩
    let report : Visit := ⟨.report .summary .none, fun _ => .ok [], day, 6, 7⟩
    let within : Visit := ⟨.options, down, day, 14, 14⟩
    let expired : Visit := ⟨.options, down, day, 15, 16⟩
    Chronological 0 ([load, report] ++ [within]) ∧
      (((Engine.start view 10).run [load, report]).serve within).1.response? =
        ((Engine.start view 10).serve load).1.response? ∧
      (((Engine.start view 10).run [load, report]).serve expired).1.outcome =
        .ok (.error (.query "down")) := by
  intro day view down load report within expired
  have hwithin : Chronological 0 ([load, report] ++ [within]) := by
    simp [Chronological, load, report, within]
  have hexpired : Chronological 0 ([load, report] ++ [expired]) := by
    simp [Chronological, load, report, expired]
  obtain ⟨hcalls, -, hloads⟩ := ((Engine.start view 10).serves load).of_stale rfl rfl
  obtain ⟨o, -, ho⟩ := hloads rfl
  rw [if_pos (by decide)] at ho
  have hrecent : Recent 10 14 (load, ((Engine.start view 10).serve load).1) o.toJson :=
    ⟨rfl, hcalls.symm ▸ Options.calls_load_ne_nil, ho, (by decide : 14 < 5 + 10)⟩
  obtain ⟨-, hserved, -⟩ := (options_kept_while_recent view 10 hwithin).1 rfl
  obtain ⟨hcalls, -, hloads⟩ := (options_kept_while_recent view 10 hexpired).1 rfl
  have hdown : Lookup.all.findSome? (fun l => l.failure? down) = some (.query "down") := rfl
  refine ⟨hwithin, (hserved _ List.mem_cons_self _ hrecent).2, ((hloads ?_).2.1 _ hdown).1⟩
  rw [hcalls]
  rintro ⟨x, hx, j, hr⟩
  rcases List.mem_cons.mp hx with rfl | hx
  · exact absurd hr.recent (by decide)
  · obtain rfl := List.mem_singleton.mp hx
    cases hr.demand

end Takings
