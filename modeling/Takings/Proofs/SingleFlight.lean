import Mathlib.Data.List.Induction
import Takings.Proofs.FlightOrder

/-!
# Single flight

Whatever the order of the steps of the callers, a key is populated by one caller at a time, only
while nothing fresh is stored under it, and what is stored is what the last population to insert
something made.
-/
namespace Takings.Flight

variable {κ ν : Type} [DecidableEq κ]

/-! ### Populations -/

/-- The population of a key by a caller starts with an event. -/
def Starts (f : Flight κ ν) (i : Nat) (k : κ) (e : Event κ ν) : Prop :=
  f.stage i ≠ .populating k ∧ (f.step e).stage i = .populating k

/-- The population of a key by a caller fails with an event: the payload cannot be computed, or
it would expire beyond the clock. -/
def Fails (f : Flight κ ν) (i : Nat) (k : κ) (e : Event κ ν) : Prop :=
  f.stage i = .populating k ∧
    ((∃ x, e = .finish i (.error x)) ∨
      (∃ v, e = .finish i (.ok v)) ∧ later? f.clock f.cache.ttl = none)

/-- A caller is cancelled while it populates a key. -/
def Cancels (f : Flight κ ν) (i : Nat) (k : κ) (e : Event κ ν) : Prop :=
  f.stage i = .populating k ∧ e = .cancel i

/-- A caller inserts an entry under a key with an event. -/
def Inserts (f : Flight κ ν) (i : Nat) (k : κ) (x : Entry ν) (e : Event κ ν) : Prop :=
  f.stage i = .storing k x ∧ e = .store i

/-- Nothing is inserted under a key. -/
def Quiet (k : κ) : Flight κ ν → List (Event κ ν) → Prop
  | _, [] => True
  | f, e :: events => (∀ i x, ¬ f.Inserts i k x e) ∧ Quiet k (f.step e) events

/-- An entry is the last one that a run inserts under a key: a population of the key succeeded
with its payload, it expires the time of the cache after the instant of that success, and nothing
was inserted under the key after it. -/
def LastInserted (f : Flight κ ν) (events : List (Event κ ν)) (k : κ) (x : Entry ν) : Prop :=
  ∃ i before mid after,
    events = before ++ .finish i (.ok x.payload) :: (mid ++ .store i :: after) ∧
    (f.run before).stage i = .populating k ∧
    x.expires = (f.run before).clock + f.cache.ttl ∧
    let g := f.run (before ++ .finish i (.ok x.payload) :: mid)
    g.Inserts i k x (.store i) ∧ Quiet k (g.step (.store i)) after

/-! ### Runs -/

variable {f g : Flight κ ν} {e : Event κ ν} {i : Nat} {k : κ}

theorem run_append (f : Flight κ ν) (before after : List (Event κ ν)) :
    f.run (before ++ after) = (f.run before).run after :=
  List.foldl_append

theorem run_cons (f : Flight κ ν) (e : Event κ ν) (events : List (Event κ ν)) :
    f.run (e :: events) = (f.step e).run events :=
  rfl

theorem quiet_append {before after : List (Event κ ν)} :
    Quiet k f (before ++ after) ↔ Quiet k f before ∧ Quiet k (f.run before) after := by
  induction before generalizing f with
  | nil => simp [Quiet, run]
  | cons e before ih => rw [List.cons_append, Quiet, ih, Quiet, and_assoc, run_cons]

/-! ### The cache -/

theorem cache_move (m : Move f e g) :
    g.cache = f.cache ∨ ∃ i k x, f.Inserts i k x e ∧ g.cache = f.cache.put k x := by
  cases m with
  | @store i k x hs => exact .inr ⟨i, k, x, ⟨hs, rfl⟩, rfl⟩
  | idle _ | pass _ | hit _ _ | miss _ _ | queue _ | hitAgain _ _ _ | missAgain _ _ _
  | populate _ | fail _ | complete _ _ | overrun _ _ | leave _ | cancel _ => exact .inl rfl

theorem clock_le_move (m : Move f e g) : f.clock ≤ g.clock := by
  cases m with
  | pass span => exact Nat.le_add_right _ _
  | idle _ | store _ | hit _ _ | miss _ _ | queue _ | hitAgain _ _ _ | missAgain _ _ _
  | populate _ | fail _ | complete _ _ | overrun _ _ | leave _ | cancel _ => exact Nat.le_refl _

theorem ttl_run (f : Flight κ ν) (events : List (Event κ ν)) :
    (f.run events).cache.ttl = f.cache.ttl := by
  induction events generalizing f with
  | nil => rfl
  | cons e events ih =>
    rw [run_cons, ih]
    obtain h | ⟨i, k, x, -, h⟩ := cache_move (move_step f e)
    · rw [h]
    · rw [h, Cache.put]

theorem Inserts.cache_step {x : Entry ν} (h : f.Inserts i k x e) :
    (f.step e).cache = f.cache.put k x := by
  obtain ⟨hs, rfl⟩ := h
  rw [step, Flight.store, hs]

theorem Inserts.lookup?_step {x : Entry ν} (h : f.Inserts i k x e) :
    (f.step e).cache.lookup? k = some x := by
  rw [h.cache_step, Cache.lookup?_put, if_pos rfl]

theorem lookup?_step_of_not_inserts (h : ∀ i x, ¬ f.Inserts i k x e) :
    (f.step e).cache.lookup? k = f.cache.lookup? k := by
  obtain hc | ⟨i, l, x, hi, hc⟩ := cache_move (move_step f e)
  · rw [hc]
  · have hl : l ≠ k := by
      rintro rfl
      exact h i x hi
    rw [hc, Cache.lookup?_put, if_neg hl]

theorem lookup?_run_of_quiet {events : List (Event κ ν)} (h : Quiet k f events) :
    (f.run events).cache.lookup? k = f.cache.lookup? k := by
  induction events generalizing f with
  | nil => rfl
  | cons e events ih => rw [run_cons, ih h.2, lookup?_step_of_not_inserts h.1]

/-! ### The way of a caller -/

theorem isOver_move (m : Move f e g) (h : (f.stage i).isOver = true) :
    (g.stage i).isOver = true := by
  by_cases hc : e.caller? = some i
  · cases m with
    | idle _ => exact h
    | pass _ => exact h
    | leave _ | cancel _ | overrun _ _ =>
      obtain rfl := Option.some.inj hc
      exact congrArg Stage.isOver (stage_setStage_self f _ _)
    | hit hs _ | miss hs _ | queue hs | hitAgain hs _ _ | missAgain hs _ _ | populate hs | fail hs
    | complete hs _ | store hs =>
      obtain rfl := Option.some.inj hc
      rw [hs] at h
      cases h
  · rw [stage_move m hc]
    exact h

theorem isOver_run (h : (f.stage i).isOver = true) (events : List (Event κ ν)) :
    ((f.run events).stage i).isOver = true := by
  induction events generalizing f with
  | nil => exact h
  | cons e events ih => exact ih (isOver_move (move_step f e) h)

theorem Starts.cleared (h : f.Starts i k e) : f.stage i = .cleared k := by
  obtain ⟨hn, hp⟩ := h
  have m := move_step f e
  generalize f.step e = g at m hp
  by_cases hc : e.caller? = some i
  · cases m with
    | idle _ | pass _ => exact absurd hp hn
    | populate hs =>
      obtain rfl := Option.some.inj hc
      obtain rfl := Stage.populating.inj ((stage_setStage_self f _ _).symm.trans hp)
      exact hs
    | hit hs _ | miss hs _ | queue hs | hitAgain hs _ _ | missAgain hs _ _ | fail hs
    | complete hs _ | store hs | leave _ | cancel _ | overrun _ _ =>
      obtain rfl := Option.some.inj hc
      exact absurd ((stage_setStage_self f _ _).symm.trans hp) (by simp)
  · exact absurd ((stage_move m hc).symm.trans hp) hn

theorem starts_of_cleared (h : f.stage i = .cleared k) : f.Starts i k (.populate i) := by
  constructor
  · rw [h]
    simp
  · rw [step, Flight.populate, h]
    exact stage_setStage_self f i _

/-- A caller is about to insert an entry as long as it has not, once its population made one. -/
theorem storing_move {x : Entry ν} (m : Move f e g) (h : g.stage i = .storing k x) :
    f.stage i = .storing k x ∨
      e = .finish i (.ok x.payload) ∧ f.stage i = .populating k ∧
        later? f.clock f.cache.ttl = some x.expires := by
  by_cases hc : e.caller? = some i
  · cases m with
    | idle _ | pass _ => exact .inl h
    | complete hs hl =>
      obtain rfl := Option.some.inj hc
      obtain ⟨rfl, rfl⟩ := Stage.storing.inj ((stage_setStage_self f _ _).symm.trans h)
      exact .inr ⟨rfl, hs, hl⟩
    | hit hs _ | miss hs _ | queue hs | hitAgain hs _ _ | missAgain hs _ _ | populate _ | fail hs
    | store hs | leave _ | cancel _ | overrun _ _ =>
      obtain rfl := Option.some.inj hc
      exact absurd ((stage_setStage_self f _ _).symm.trans h) (by simp)
  · rw [stage_move m hc] at h
    exact .inl h

theorem storing_step {x : Entry ν} (h : f.stage i = .storing k x) :
    (f.step e).stage i = .storing k x ∨ f.Inserts i k x e := by
  have m := move_step f e
  generalize f.step e = g at m
  by_cases hc : e.caller? = some i
  · cases m with
    | idle _ | pass _ => exact .inl h
    | store hs =>
      obtain rfl := Option.some.inj hc
      exact .inr ⟨h, rfl⟩
    | hit hs _ | miss hs _ | queue hs | hitAgain hs _ _ | missAgain hs _ _ | populate hs | fail hs
    | complete hs _ | leave hs | cancel hs | overrun hs _ =>
      obtain rfl := Option.some.inj hc
      simp [h] at hs
  · rw [stage_move m hc]
    exact .inl h

/-- A population goes on until it fails, is cancelled or makes an entry. -/
theorem populating_step (h : f.stage i = .populating k) :
    (f.step e).stage i = .populating k ∨ (∃ x, (f.step e).stage i = .storing k x) ∨
      f.Fails i k e ∨ f.Cancels i k e := by
  have m := move_step f e
  generalize f.step e = g at m
  by_cases hc : e.caller? = some i
  · cases m with
    | idle _ | pass _ => exact .inl h
    | fail hs =>
      obtain rfl := Option.some.inj hc
      exact .inr (.inr (.inl ⟨h, .inl ⟨_, rfl⟩⟩))
    | overrun hs hl =>
      obtain rfl := Option.some.inj hc
      exact .inr (.inr (.inl ⟨h, .inr ⟨⟨_, rfl⟩, hl⟩⟩))
    | cancel hs =>
      obtain rfl := Option.some.inj hc
      exact .inr (.inr (.inr ⟨h, rfl⟩))
    | complete hs hl =>
      obtain rfl := Option.some.inj hc
      obtain rfl := Stage.populating.inj (h.symm.trans hs)
      exact .inr (.inl ⟨_, stage_setStage_self f _ _⟩)
    | hit hs _ | miss hs _ | queue hs | hitAgain hs _ _ | missAgain hs _ _ | populate hs
    | store hs | leave hs =>
      obtain rfl := Option.some.inj hc
      simp [h] at hs
  · rw [stage_move m hc]
    exact .inl h

/-! ### Histories -/

variable {events : List (Event κ ν)} {x : Entry ν}

theorem eq_add_of_later? {now span t : Nat} (h : later? now span = some t) : t = now + span := by
  rw [later?] at h
  split at h
  · exact (Option.some.inj h).symm
  · cases h

/-- An entry that is about to be inserted was made by a population that succeeded. -/
theorem exists_finish_of_storing (hf : f.stage i ≠ .storing k x)
    (h : (f.run events).stage i = .storing k x) :
    ∃ before mid, events = before ++ .finish i (.ok x.payload) :: mid ∧
      (f.run before).stage i = .populating k ∧
      x.expires = (f.run before).clock + f.cache.ttl := by
  induction events using List.reverseRecOn with
  | nil => exact absurd h hf
  | append_singleton events e ih =>
    rw [run_append] at h
    obtain hs | ⟨rfl, hp, hl⟩ := storing_move (move_step (f.run events) e) h
    · obtain ⟨before, mid, rfl, hp, hx⟩ := ih hs
      exact ⟨before, mid ++ [e], by simp, hp, hx⟩
    · rw [ttl_run] at hl
      exact ⟨events, [], rfl, hp, eq_add_of_later? hl⟩

/-- What is stored is what was inserted last. -/
theorem lookup?_run_iff (hf : ∀ i, f.stage i ≠ .storing k x) (hc : f.cache.lookup? k = none) :
    (f.run events).cache.lookup? k = some x ↔ f.LastInserted events k x := by
  constructor
  · intro h
    induction events using List.reverseRecOn with
    | nil => exact absurd (hc.symm.trans h) (by simp)
    | append_singleton events e ih =>
      rw [run_append] at h
      by_cases hi : ∃ i y, (f.run events).Inserts i k y e
      · obtain ⟨i, y, hi⟩ := hi
        obtain rfl := Option.some.inj (hi.lookup?_step.symm.trans h)
        obtain ⟨hs, rfl⟩ := hi
        obtain ⟨before, mid, rfl, hp, hx⟩ := exists_finish_of_storing (hf i) hs
        exact ⟨i, before, mid, [], by simp, hp, hx, ⟨hs, rfl⟩, trivial⟩
      · have hn : ∀ i y, ¬ (f.run events).Inserts i k y e := fun i y h => hi ⟨i, y, h⟩
        have hl : (f.run events).cache.lookup? k = some x :=
          (lookup?_step_of_not_inserts hn).symm.trans h
        obtain ⟨i, before, mid, after, rfl, hp, hx, hs, hq⟩ := ih hl
        refine ⟨i, before, mid, after ++ [e], by simp, hp, hx, hs, ?_⟩
        rw [quiet_append]
        refine ⟨hq, ?_, trivial⟩
        rw [← run_cons, ← run_append]
        simpa using hn
  · rintro ⟨i, before, mid, after, rfl, -, -, hs, hq⟩
    have hsplit : before ++ .finish i (.ok x.payload) :: (mid ++ .store i :: after) =
        (before ++ .finish i (.ok x.payload) :: mid) ++ .store i :: after := by simp
    rw [hsplit, run_append, run_cons, lookup?_run_of_quiet hq]
    exact hs.lookup?_step

/-- An entry stays until it is stale. -/
theorem stored_or_stale_run (o : Orderly f) (h : f.cache.lookup? k = some x ∨ x.expires ≤ f.clock)
    (events : List (Event κ ν)) :
    (f.run events).cache.lookup? k = some x ∨ x.expires ≤ (f.run events).clock := by
  induction events generalizing f with
  | nil => exact h
  | cons e events ih =>
    have m := move_step f e
    refine ih (o.move m) ?_
    obtain h | h := h
    · by_cases hi : ∃ i y, f.Inserts i k y e
      · obtain ⟨i, y, hs, -⟩ := hi
        have hstale := o.stale i k (by rw [hs]; rfl)
        exact .inr (Nat.le_trans (Cache.get?_eq_none_iff.mp hstale x h) (clock_le_move m))
      · exact .inl ((lookup?_step_of_not_inserts fun i y h => hi ⟨i, y, h⟩).trans h)
    · exact .inr (Nat.le_trans h (clock_le_move m))

/-- A population goes on, or its entry is about to be inserted, or it ended in one of the three
ways. -/
theorem populating_run (h : f.stage i = .populating k) (events : List (Event κ ν)) :
    (f.run events).stage i = .populating k ∨ (∃ x, (f.run events).stage i = .storing k x) ∨
      ∃ before e after, events = before ++ e :: after ∧ ((f.run before).Fails i k e ∨
        (f.run before).Cancels i k e ∨ ∃ x, (f.run before).Inserts i k x e) := by
  induction events using List.reverseRecOn with
  | nil => exact .inl h
  | append_singleton events e ih =>
    rw [run_append]
    obtain hp | ⟨x, hs⟩ | ⟨before, d, after, rfl, hd⟩ := ih
    · obtain hp | hs | hd | hd := populating_step (e := e) hp
      · exact .inl hp
      · exact .inr (.inl hs)
      · exact .inr (.inr ⟨events, e, [], rfl, .inl hd⟩)
      · exact .inr (.inr ⟨events, e, [], rfl, .inr (.inl hd)⟩)
    · obtain hs | hd := storing_step (e := e) hs
      · exact .inr (.inl ⟨x, hs⟩)
      · exact .inr (.inr ⟨events, e, [], rfl, .inr (.inr ⟨x, hd⟩)⟩)
    · exact .inr (.inr ⟨before, d, after ++ [e], by simp, hd⟩)

/-- Before a key is populated again, its last population ended and left nothing that is fresh. -/
theorem exists_end_before_starts {j : Nat} (o : Orderly f) (hp : f.stage i = .populating k)
    (hj : (f.run events).Starts j k e) :
    ∃ before d after, events = before ++ d :: after ∧ ((f.run before).Fails i k d ∨
      (f.run before).Cancels i k d ∨
        ∃ x, (f.run before).Inserts i k x d ∧ x.expires ≤ (f.run events).clock) := by
  have hs := hj.cleared
  have hstale := (o.run events).stale j k (by rw [hs]; rfl)
  have hne : ((f.run events).stage i).turn? = some k → i = j := fun h =>
    (o.run events).eq_of_turn? h (by rw [hs]; rfl)
  obtain hi | ⟨x, hi⟩ | ⟨before, d, after, rfl, hd | hd | ⟨x, hd⟩⟩ := populating_run hp events
  · obtain rfl := hne (by rw [hi]; rfl)
    exact absurd (hi.symm.trans hs) (by simp)
  · obtain rfl := hne (by rw [hi]; rfl)
    exact absurd (hi.symm.trans hs) (by simp)
  · exact ⟨before, d, after, rfl, .inl hd⟩
  · exact ⟨before, d, after, rfl, .inr (.inl hd)⟩
  · refine ⟨before, d, after, rfl, .inr (.inr ⟨x, hd, ?_⟩)⟩
    rw [run_append, run_cons] at hstale ⊢
    have od := (o.run before).move (move_step _ d)
    obtain h | h := stored_or_stale_run od (.inl hd.lookup?_step) after
    · exact Cache.get?_eq_none_iff.mp hstale x h
    · exact h

/-- A caller that has inserted something populates nothing any more. -/
theorem not_populating_of_inserts {l : κ} {before after : List (Event κ ν)}
    (hi : (f.run before).Inserts i l x e) :
    (f.run (before ++ e :: after)).stage i ≠ .populating k := by
  intro h
  have hover : (((f.run before).step e).stage i).isOver = true := by
    obtain ⟨hs, rfl⟩ := hi
    rw [step, Flight.store, hs]
    exact congrArg Stage.isOver (stage_setStage_self _ _ _)
  have := isOver_run hover after
  rw [← run_cons, ← run_append, h] at this
  cases this

/-- A population that fails or is cancelled is the end of its caller. -/
theorem isOver_step_of_fails_or_cancels (h : f.Fails i k e ∨ f.Cancels i k e) :
    ((f.step e).stage i).isOver = true := by
  obtain ⟨hs, ⟨y, rfl⟩ | ⟨⟨v, rfl⟩, hl⟩⟩ | ⟨hs, rfl⟩ := h
  · rw [step, finish, hs]
    exact congrArg Stage.isOver (stage_setStage_self _ _ _)
  · simp only [step, finish, hs, hl]
    exact congrArg Stage.isOver (stage_setStage_self _ _ _)
  · rw [step, Flight.cancel, hs]
    exact congrArg Stage.isOver (stage_setStage_self _ _ _)

theorem cache_step_of_fails_or_cancels (h : f.Fails i k e ∨ f.Cancels i k e) :
    (f.step e).cache = f.cache := by
  obtain hc | ⟨j, l, x, ⟨-, he⟩, -⟩ := cache_move (move_step f e)
  · exact hc
  · obtain ⟨-, ⟨y, rfl⟩ | ⟨⟨v, rfl⟩, -⟩⟩ | ⟨-, rfl⟩ := h <;> cases he

/-- In whatever order callers take their steps and however time passes between them, one caller
at most populates a key, populations start and insert only while nothing fresh is stored, what
is stored is what was inserted last, populations that fail or are cancelled insert nothing, and
a key is populated again only when its population failed, was cancelled or made what is stale. -/
theorem single_flight (ttl clock : Nat) (events : List (Event κ ν)) :
    let f := (start (.empty ttl) clock).run events
    (∀ i j k, f.stage i = .populating k → f.stage j = .populating k → i = j) ∧
    (∀ i k e, f.Starts i k e → f.cache.get? k f.clock = none) ∧
    (∀ i k x e, f.Inserts i k x e → f.cache.get? k f.clock = none) ∧
    (∀ k x, f.cache.lookup? k = some x ↔ (start (.empty ttl) clock).LastInserted events k x) ∧
    (∀ i k e, f.Fails i k e ∨ f.Cancels i k e → (f.step e).cache = f.cache ∧
      (∀ before d after, events = before ++ d :: after →
        ∀ l x, ¬ ((start (.empty ttl) clock).run before).Inserts i l x d) ∧
      ∀ later l x d, ¬ ((f.step e).run later).Inserts i l x d) ∧
    ∀ i j k e d mid, f.Starts i k e → ((f.step e).run mid).Starts j k d →
      ∃ before c after, mid = before ++ c :: after ∧
        (((f.step e).run before).Fails i k c ∨ ((f.step e).run before).Cancels i k c ∨
          ∃ x, ((f.step e).run before).Inserts i k x c ∧
            x.expires ≤ ((f.step e).run mid).clock) := by
  intro f
  have o : Orderly f := (orderly_start _ _).run events
  refine ⟨?_, ?_, ?_, ?_, ?_, ?_⟩
  · intro i j k hi hj
    exact o.eq_of_turn? (by rw [hi]; rfl) (by rw [hj]; rfl)
  · intro i k e hs
    exact o.stale i k (by rw [hs.cleared]; rfl)
  · intro i k x e hs
    exact o.stale i k (by rw [hs.1]; rfl)
  · intro k x
    exact lookup?_run_iff (fun i h => nomatch h) rfl
  · intro i k e h
    refine ⟨cache_step_of_fails_or_cancels h, ?_, ?_⟩
    · rintro before d after rfl l x hi
      exact not_populating_of_inserts hi (h.elim And.left And.left)
    · intro later l x d hi
      have hover := isOver_run (isOver_step_of_fails_or_cancels h) later
      rw [hi.1] at hover
      cases hover
  · intro i j k e d mid hi hj
    exact exists_end_before_starts (o.move (move_step f e)) hi.2 hj

/-- Two callers of a key. The population of the first one can be cancelled or insert its payload,
and the second one populates the key again at the instant at which that payload is stale. -/
theorem population_again_at_expiry :
    let cold := start (.empty 5) 100
    let begun := [.arrive 0 (), .arrive 1 (), .queue 0, .lookAgain 0]
    let made := begun ++ [.populate 0, .finish 0 (.ok 7)]
    let mid := [.finish 0 (.ok 7), .store 0, .leave 0, .pass 5, .queue 1, .lookAgain 1]
    let f := cold.run begun
    let g := f.step (.populate 0)
    f.Starts 0 () (.populate 0) ∧ f.cache.get? () f.clock = none ∧
      (cold.run (begun ++ [.populate 0])).Cancels 0 () (.cancel 0) ∧
      ((cold.run (begun ++ [.populate 0])).step (.cancel 0)).cache.lookup? () = none ∧
      (cold.run made).Inserts 0 () ⟨7, 105⟩ (.store 0) ∧
      (cold.run made).cache.get? () (cold.run made).clock = none ∧
      (g.run mid).Starts 1 () (.populate 1) ∧
      ∃ before c after, mid = before ++ c :: after ∧ ((g.run before).Fails 0 () c ∨
        (g.run before).Cancels 0 () c ∨
          ∃ x, (g.run before).Inserts 0 () x c ∧ x.expires ≤ (g.run mid).clock) := by
  intro cold begun made mid f g
  have hstart : f.Starts 0 () (.populate 0) := starts_of_cleared rfl
  have hcancel : (cold.run (begun ++ [.populate 0])).Cancels 0 () (.cancel 0) := ⟨rfl, rfl⟩
  have hinsert : (cold.run made).Inserts 0 () ⟨7, 105⟩ (.store 0) := ⟨rfl, rfl⟩
  have hturn : (g.run mid).stage 1 = .cleared () := by
    simp [g, f, mid, cold, begun, run, step, start, arrive, enqueue, lookAgain, populate, finish,
      store, leave, setStage, unqueue, holder?, later?, endOfTime, Cache.empty, Cache.put,
      Cache.get?, Cache.lookup?, Entry.isFresh, Option.filter]
  have hagain : (g.run mid).Starts 1 () (.populate 1) := starts_of_cleared hturn
  obtain ⟨-, hstale, -, -, -, hended⟩ := single_flight 5 100 begun
  obtain ⟨-, -, -, -, hkept, -⟩ := single_flight 5 100 (begun ++ [.populate 0])
  obtain ⟨-, -, hreplaced, -, -, -⟩ := single_flight 5 100 made
  refine ⟨hstart, hstale 0 () _ hstart, hcancel, ?_, hinsert, hreplaced 0 () _ _ hinsert, hagain,
    hended 0 1 () _ _ mid hstart hagain⟩
  rw [(hkept 0 () _ (.inr hcancel)).1]
  rfl

end Takings.Flight
