import Takings.Cache.Flight

/-!
# Turns in a flight

What a step of a flight can do, said once as a relation, and the order that every step keeps: a
caller that is past the queue is the first one there for its key, and as long as it is up to that
caller to fill the key, nothing fresh is stored under it.
-/
namespace Takings

variable {κ ν : Type}

/-- The caller that an event is a step of. -/
def Event.caller? : Event κ ν → Option Nat
  | arrive i _ | queue i | lookAgain i | populate i | finish i _ | store i | leave i | cancel i =>
    some i
  | pass _ => none

namespace Stage

/-- The key whose turn a caller has. -/
def turn? : Stage κ ν → Option κ
  | cleared k | populating k | storing k _ | leaving k _ => some k
  | absent | missed _ | queued _ | done _ | gone => none

/-- The key that it is up to a caller to fill. -/
def charge? : Stage κ ν → Option κ
  | cleared k | populating k | storing k _ => some k
  | absent | missed _ | queued _ | leaving _ _ | done _ | gone => none

/-- Whether a caller is past the time at which it could insert something. -/
def isOver : Stage κ ν → Bool
  | leaving _ _ | done _ | gone => true
  | absent | missed _ | queued _ | cleared _ | populating _ | storing _ _ => false

theorem turn?_of_charge? {s : Stage κ ν} {k : κ} (h : s.charge? = some k) : s.turn? = some k := by
  cases s <;> simp_all [charge?, turn?]

end Stage

namespace Cache

variable [DecidableEq κ] {c : Cache κ ν} {k : κ} {now : Nat}

theorem get?_eq_none_iff :
    c.get? k now = none ↔ ∀ x, c.lookup? k = some x → x.expires ≤ now := by
  cases h : c.lookup? k <;> simp [get?, h, Entry.isFresh, Option.filter]

/-- What is stale stays stale. -/
theorem get?_eq_none_of_le {later : Nat} (hle : now ≤ later) (h : c.get? k now = none) :
    c.get? k later = none := by
  rw [get?_eq_none_iff] at h ⊢
  intro x hx
  exact Nat.le_trans (h x hx) hle

theorem get?_put_of_ne {j : κ} {x : Entry ν} (h : j ≠ k) :
    (c.put j x).get? k now = c.get? k now := by
  rw [get?, get?, lookup?_put, if_neg h]

end Cache

namespace Flight

theorem stage_setStage_self (f : Flight κ ν) (i : Nat) (s : Stage κ ν) :
    (f.setStage i s).stage i = s := by
  simp [setStage]

theorem stage_setStage_of_ne (f : Flight κ ν) {i j : Nat} (s : Stage κ ν) (h : j ≠ i) :
    (f.setStage i s).stage j = f.stage j := by
  simp [setStage, h]

variable [DecidableEq κ]

/-! ### What a step can do -/

/-- The ways in which an event changes a flight. -/
inductive Move (f : Flight κ ν) : Event κ ν → Flight κ ν → Prop
  | idle (e : Event κ ν) : Move f e f
  | pass (span : Nat) : Move f (.pass span) { f with clock := f.clock + span }
  | hit {i : Nat} {k : κ} {v : ν} (hs : f.stage i = .absent)
      (hg : f.cache.get? k f.clock = some v) : Move f (.arrive i k) (f.setStage i (.done (.ok v)))
  | miss {i : Nat} {k : κ} (hs : f.stage i = .absent) (hg : f.cache.get? k f.clock = none) :
      Move f (.arrive i k) (f.setStage i (.missed k))
  | queue {i : Nat} {k : κ} (hs : f.stage i = .missed k) :
      Move f (.queue i) { f.setStage i (.queued k) with queue := f.queue ++ [(i, k)] }
  | hitAgain {i : Nat} {k : κ} {v : ν} (hs : f.stage i = .queued k) (ht : f.holder? k = some i)
      (hg : f.cache.get? k f.clock = some v) :
      Move f (.lookAgain i) (f.setStage i (.leaving k (.ok v)))
  | missAgain {i : Nat} {k : κ} (hs : f.stage i = .queued k) (ht : f.holder? k = some i)
      (hg : f.cache.get? k f.clock = none) : Move f (.lookAgain i) (f.setStage i (.cleared k))
  | populate {i : Nat} {k : κ} (hs : f.stage i = .cleared k) :
      Move f (.populate i) { f.setStage i (.populating k) with populations := f.populations + 1 }
  | fail {i : Nat} {k : κ} {e : Failure} (hs : f.stage i = .populating k) :
      Move f (.finish i (.error e)) (f.setStage i (.leaving k (.error e)))
  | complete {i : Nat} {k : κ} {v : ν} {t : Nat} (hs : f.stage i = .populating k)
      (hl : later? f.clock f.cache.ttl = some t) :
      Move f (.finish i (.ok v)) (f.setStage i (.storing k ⟨v, t⟩))
  | overrun {i : Nat} {k : κ} {v : ν} (hs : f.stage i = .populating k)
      (hl : later? f.clock f.cache.ttl = none) :
      Move f (.finish i (.ok v)) ((f.setStage i .gone).unqueue i)
  | store {i : Nat} {k : κ} {x : Entry ν} (hs : f.stage i = .storing k x) :
      Move f (.store i) { f.setStage i (.leaving k (.ok x.payload)) with cache := f.cache.put k x }
  | leave {i : Nat} {k : κ} {r : Except Failure ν} (hs : f.stage i = .leaving k r) :
      Move f (.leave i) ((f.setStage i (.done r)).unqueue i)
  | cancel {i : Nat} {k : κ}
      (hs : f.stage i = .missed k ∨ f.stage i = .queued k ∨ f.stage i = .populating k) :
      Move f (.cancel i) ((f.setStage i .gone).unqueue i)

theorem move_step (f : Flight κ ν) (e : Event κ ν) : Move f e (f.step e) := by
  cases e with
  | arrive i k =>
    simp only [step, arrive]
    split
    · split
      · exact .hit ‹_› ‹_›
      · exact .miss ‹_› ‹_›
    · exact .idle _
  | queue i =>
    simp only [step, enqueue]
    split
    · exact .queue ‹_›
    · exact .idle _
  | lookAgain i =>
    simp only [step, lookAgain]
    split
    · split
      · split
        · exact .hitAgain ‹_› ‹_› ‹_›
        · exact .missAgain ‹_› ‹_› ‹_›
      · exact .idle _
    · exact .idle _
  | populate i =>
    simp only [step, Flight.populate]
    split
    · exact .populate ‹_›
    · exact .idle _
  | finish i r =>
    simp only [step, finish]
    split
    · split
      · exact .fail ‹_›
      · split
        · exact .complete ‹_› ‹_›
        · exact .overrun ‹_› ‹_›
    · exact .idle _
  | store i =>
    simp only [step, Flight.store]
    split
    · exact .store ‹_›
    · exact .idle _
  | leave i =>
    simp only [step, Flight.leave]
    split
    · exact .leave ‹_›
    · exact .idle _
  | cancel i =>
    simp only [step, Flight.cancel]
    split
    · exact .cancel (.inl ‹_›)
    · exact .cancel (.inr (.inl ‹_›))
    · exact .cancel (.inr (.inr ‹_›))
    · exact .idle _
  | pass span => exact .pass span

/-- A step of one caller leaves every other one where it is. -/
theorem stage_move {f g : Flight κ ν} {e : Event κ ν} {i : Nat} (m : Move f e g)
    (h : e.caller? ≠ some i) : g.stage i = f.stage i := by
  have hne : ∀ j, e.caller? = some j → i ≠ j := by
    rintro j hj rfl
    exact h hj
  cases m with
  | idle _ | pass _ => rfl
  | hit _ _ | miss _ _ | queue _ | hitAgain _ _ _ | missAgain _ _ _ | populate _ | fail _
  | complete _ _ | overrun _ _ | store _ | leave _ | cancel _ =>
    exact stage_setStage_of_ne f _ (hne _ rfl)

/-! ### Turns -/

/-- The order of a flight. A caller that is past the queue is the first one of its key there, and
nothing fresh is stored under a key that it is up to a caller to fill. -/
structure Orderly (f : Flight κ ν) : Prop where
  turn : ∀ i k, (f.stage i).turn? = some k → f.holder? k = some i
  stale : ∀ i k, (f.stage i).charge? = some k → f.cache.get? k f.clock = none

variable {f g : Flight κ ν} {e : Event κ ν}

theorem holder?_unqueue {i j : Nat} {k : κ} (h : f.holder? k = some j) (hne : j ≠ i) :
    (f.unqueue i).holder? k = some j := by
  obtain ⟨p, hp, hj⟩ := Option.map_eq_some_iff.mp h
  obtain ⟨hk, before, after, hq, hn⟩ := List.find?_eq_some_iff_append.mp hp
  have hkeep : (f.queue.filter fun p => p.1 ≠ i).find? (fun p => p.2 = k) = some p := by
    rw [List.find?_filter, List.find?_eq_some_iff_append]
    refine ⟨?_, before, after, hq, ?_⟩
    · simpa [hj, hne] using hk
    · intro q hm
      have hqk := hn q hm
      simp_all
  rw [holder?, unqueue, hkeep, Option.map_some, hj]

theorem holder?_append {i j : Nat} {k l : κ} (h : f.holder? k = some j) :
    { f with queue := f.queue ++ [(i, l)] }.holder? k = some j := by
  obtain ⟨p, hp, hj⟩ := Option.map_eq_some_iff.mp h
  rw [holder?, List.find?_append, hp, Option.some_or, Option.map_some, hj]

namespace Orderly

variable {i j : Nat} {k : κ}

theorem eq_of_turn? (o : Orderly f) (hi : (f.stage i).turn? = some k)
    (hj : (f.stage j).turn? = some k) : i = j :=
  Option.some.inj ((o.turn i k hi).symm.trans (o.turn j k hj))

theorem setStage (o : Orderly f) {s : Stage κ ν} (ht : ∀ k, s.turn? = some k → f.holder? k = some i)
    (hc : ∀ k, s.charge? = some k → f.cache.get? k f.clock = none) : Orderly (f.setStage i s) where
  turn j l h := by
    by_cases hj : j = i
    · subst hj
      rw [stage_setStage_self] at h
      exact ht l h
    · rw [stage_setStage_of_ne f s hj] at h
      exact o.turn j l h
  stale j l h := by
    by_cases hj : j = i
    · subst hj
      rw [stage_setStage_self] at h
      exact hc l h
    · rw [stage_setStage_of_ne f s hj] at h
      exact o.stale j l h

/-- A caller may go on to a stage that claims no turn. -/
theorem setStage_of_turn?_none (o : Orderly f) {s : Stage κ ν} (hs : s.turn? = none) :
    Orderly (f.setStage i s) := by
  refine o.setStage (fun k h => ?_) (fun k h => ?_)
  · rw [hs] at h
    cases h
  · have ht := Stage.turn?_of_charge? h
    rw [hs] at ht
    cases ht

/-- A caller whose turn it is may go on as long as it claims no more than it has. -/
theorem setStage_of_turn? (o : Orderly f) {s : Stage κ ν} (hi : (f.stage i).turn? = some k)
    (ht : ∀ l, s.turn? = some l → l = k)
    (hc : ∀ l, s.charge? = some l → (f.stage i).charge? = some l) : Orderly (f.setStage i s) := by
  refine o.setStage (fun l h => ?_) (fun l h => o.stale i l (hc l h))
  rw [ht l h]
  exact o.turn i k hi

theorem unqueue (o : Orderly f) (hi : (f.stage i).turn? = none) : Orderly (f.unqueue i) where
  turn j l h := by
    have hj : j ≠ i := by
      rintro rfl
      exact absurd (hi.symm.trans h) (by simp)
    exact holder?_unqueue (o.turn j l h) hj
  stale := o.stale

/-- A caller may go and leave its place in the queue. -/
theorem quit (o : Orderly f) {s : Stage κ ν} (hs : s.turn? = none) :
    Orderly ((f.setStage i s).unqueue i) := by
  refine (o.setStage_of_turn?_none hs).unqueue ?_
  rw [stage_setStage_self]
  exact hs

/-- Storing under a key changes nothing for the callers of other keys, and no other caller can
be in charge of this one. -/
theorem put (o : Orderly f) {x : Entry ν} (hi : (f.stage i).turn? = some k)
    (hc : (f.stage i).charge? = none) : Orderly { f with cache := f.cache.put k x } where
  turn := o.turn
  stale j l h := by
    have hl : l ≠ k := by
      rintro rfl
      have hj := o.eq_of_turn? (Stage.turn?_of_charge? h) hi
      rw [hj] at h
      exact absurd (hc.symm.trans h) (by simp)
    exact (Cache.get?_put_of_ne hl.symm).trans (o.stale j l h)

theorem move (o : Orderly f) (m : Move f e g) : Orderly g := by
  cases m with
  | idle _ => exact o
  | pass span =>
    exact ⟨o.turn, fun i k h => Cache.get?_eq_none_of_le (Nat.le_add_right _ _) (o.stale i k h)⟩
  | hit _ _ => exact o.setStage_of_turn?_none rfl
  | miss _ _ => exact o.setStage_of_turn?_none rfl
  | @queue i k _ =>
    have h := o.setStage_of_turn?_none (i := i) (show (Stage.queued k).turn? = none from rfl)
    exact ⟨fun j l hj => holder?_append (h.turn j l hj), h.stale⟩
  | hitAgain _ ht _ =>
    refine o.setStage (fun l h => ?_) (fun l h => nomatch h)
    exact Option.some.inj h ▸ ht
  | missAgain _ ht hg =>
    refine o.setStage (fun l h => ?_) (fun l h => ?_)
    · exact Option.some.inj h ▸ ht
    · exact Option.some.inj h ▸ hg
  | @populate i k hs =>
    have h : Orderly (f.setStage i (.populating k)) := by
      refine o.setStage_of_turn? (k := k) (by rw [hs]; rfl) (fun l h => ?_) (fun l h => ?_)
      · exact (Option.some.inj h).symm
      · rw [hs]
        exact h
    exact ⟨h.turn, h.stale⟩
  | fail hs =>
    refine o.setStage_of_turn? (by rw [hs]; rfl) (fun l h => ?_) (fun l h => nomatch h)
    exact (Option.some.inj h).symm
  | complete hs _ =>
    refine o.setStage_of_turn? (by rw [hs]; rfl) (fun l h => ?_) (fun l h => ?_)
    · exact (Option.some.inj h).symm
    · rw [hs]
      exact h
  | overrun _ _ => exact o.quit rfl
  | @store i k x hs =>
    have h : Orderly (f.setStage i (.leaving k (.ok x.payload))) := by
      refine o.setStage_of_turn? (by rw [hs]; rfl) (fun l h => ?_) (fun l h => nomatch h)
      exact (Option.some.inj h).symm
    exact h.put (by rw [stage_setStage_self]; rfl) (by rw [stage_setStage_self]; rfl)
  | leave _ => exact o.quit rfl
  | cancel _ => exact o.quit rfl

theorem run (o : Orderly f) (events : List (Event κ ν)) : Orderly (f.run events) := by
  induction events generalizing f with
  | nil => exact o
  | cons e events ih => exact ih (o.move (move_step f e))

end Orderly

theorem orderly_start (c : Cache κ ν) (clock : Nat) : Orderly (start c clock) where
  turn _ _ h := nomatch h
  stale _ _ h := nomatch h

end Flight
end Takings
