import Takings.Cache.Flight
import Takings.Proofs.EnvironmentNumbers
import Takings.Proofs.Sessions

/-!
# Times of keeping

What is computed with success is kept and returned if the clock can still tell the instant at which
it will be stale. No time of keeping is too long for the settings, but if that instant is beyond the
clock, the program stops, and only after all the work is done.
-/
namespace Takings

open Settings

section Cache

variable {κ ν : Type} [DecidableEq κ] {k : κ} {now ended t : Nat} {v : ν}

theorem later?_of_lt {span : Nat} (h : now + span < endOfTime) :
    later? now span = some (now + span) :=
  if_pos h

theorem later?_of_le {span : Nat} (h : endOfTime ≤ now + span) : later? now span = none :=
  if_neg (Nat.not_lt.mpr h)

namespace Cache

variable {c : Cache κ ν} {r : Run ν}

theorem getOrRunUntil_of_lt (hg : c.get? k now = none) (hr : r.outcome = .ok v)
    (ht : ended + c.ttl < endOfTime) :
    c.getOrRunUntil k now ended r = (r, .ok (c.put k ⟨v, ended + c.ttl⟩)) := by
  simp only [getOrRunUntil, hg, hr, later?_of_lt ht]

theorem getOrRunUntil_of_le (hg : c.get? k now = none) (hr : r.outcome = .ok v)
    (ht : endOfTime ≤ ended + c.ttl) :
    c.getOrRunUntil k now ended r = (r, .error .beyondClock) := by
  simp only [getOrRunUntil, hg, hr, later?_of_le ht]

end Cache

namespace Flight

variable {f : Flight κ ν} {i : Nat}

/-- A population that makes an entry ends in three steps. -/
theorem result?_of_later? (hs : f.stage i = .populating k)
    (ht : later? f.clock f.cache.ttl = some t) :
    let g := f.run [.finish i (.ok v), .store i, .leave i]
    g.result? i = some (.ok v) ∧ g.cache.lookup? k = some ⟨v, t⟩ := by
  simp [run, step, finish, hs, ht, store, leave, setStage, unqueue, result?, Cache.lookup?_put]

theorem gone_of_later? (hs : f.stage i = .populating k) (ht : later? f.clock f.cache.ttl = none) :
    (f.step (.finish i (.ok v))).stage i = .gone ∧
      (f.step (.finish i (.ok v))).cache = f.cache := by
  simp [step, finish, hs, ht, setStage, unqueue]

end Flight

end Cache

/-- A payload is returned and kept for the number of seconds that the environment gives exactly if
the clock can tell when they have passed, for a caller on its own and among others. -/
theorem kept_iff_before_end_of_clock {entries : List (String × String)} {s : Settings}
    {resolve : Resolver} (hs : Settings.ofEnvironment entries resolve = .ok s) :
    ∃ seconds, (∀ n, Gives entries .cacheTtl 300 n ↔ n = seconds) ∧
      ∀ (κ ν : Type) [DecidableEq κ] (k : κ) (v : ν),
        (∀ (c : Cache κ ν) (now ended : Nat) (r : Run ν), c.ttl = s.ttl →
          c.get? k now = none → r.outcome = .ok v →
          (ended + seconds * 1000000000 < endOfTime → ∃ next : Cache κ ν,
            c.getOrRunUntil k now ended r = (r, .ok next) ∧
            next.lookup? k = some ⟨v, ended + seconds * 1000000000⟩) ∧
          (endOfTime ≤ ended + seconds * 1000000000 →
            c.getOrRunUntil k now ended r = (r, .error .beyondClock))) ∧
        ∀ (f : Flight κ ν) (i : Nat), f.cache.ttl = s.ttl → f.stage i = .populating k →
          (f.clock + seconds * 1000000000 < endOfTime →
            let g := f.run [.finish i (.ok v), .store i, .leave i]
            g.result? i = some (.ok v) ∧
            g.cache.lookup? k = some ⟨v, f.clock + seconds * 1000000000⟩) ∧
          (endOfTime ≤ f.clock + seconds * 1000000000 →
            (f.step (.finish i (.ok v))).stage i = .gone ∧
            (f.step (.finish i (.ok v))).cache = f.cache) := by
  refine ⟨s.cacheTtl, fun n => gives_cacheTtl_iff hs, ?_⟩
  intro κ ν _ k v
  have httl : s.ttl = s.cacheTtl * 1000000000 := rfl
  rw [← httl]
  constructor
  · intro c now ended r hc hg hr
    rw [← hc]
    refine ⟨fun ht => ⟨_, Cache.getOrRunUntil_of_lt hg hr ht, ?_⟩, Cache.getOrRunUntil_of_le hg hr⟩
    rw [Cache.lookup?_put, if_pos rfl]
  · intro f i hf hi
    rw [← hf]
    exact ⟨fun ht => Flight.result?_of_later? hi (later?_of_lt ht),
      fun ht => Flight.gone_of_later? hi (later?_of_le ht)⟩

/-- The longest time that the clock can tell is too long from its second second on. -/
theorem kept_until_last_instant :
    let entries := [("DATABASE_URL", "db"), ("SALES_FILTER_CACHE_TTL_SECS", "9223372036854775807")]
    ∃ s, Settings.ofEnvironment entries = .ok s ∧
      let c : Cache Unit Nat := .empty s.ttl
      let f := (Flight.start c 1000000000).run
        [.arrive 0 (), .queue 0, .lookAgain 0, .populate 0]
      (∃ next : Cache Unit Nat, c.getOrRunUntil () 0 999999999 (.done 7) = (.done 7, .ok next) ∧
        next.lookup? () = some ⟨7, 9223372036854775807999999999⟩) ∧
      c.getOrRunUntil () 0 1000000000 (.done 7) = (.done 7, .error .beyondClock) ∧
      (f.step (.finish 0 (.ok 7))).stage 0 = .gone := by
  intro entries
  obtain ⟨s, hs, -⟩ := exists_settings_of_cacheTtl (n := 9223372036854775807) (by decide)
  have hn : Text.natText 9223372036854775807 = "9223372036854775807" := by
    decide +kernel
  rw [hn] at hs
  refine ⟨s, hs, ?_⟩
  intro c f
  obtain ⟨seconds, hseconds, hkept⟩ := kept_iff_before_end_of_clock hs
  have h1 : 9223372036854775807 = seconds :=
    (hseconds _).mp (.named (.tail _ (.head _)) (by decide +kernel) rfl (by decide +kernel))
  subst h1
  obtain ⟨halone, hamong⟩ := hkept Unit Nat () 7
  obtain ⟨hin, -⟩ := halone c 0 999999999 (.done 7) rfl rfl rfl
  obtain ⟨-, hbeyond⟩ := halone c 0 1000000000 (.done 7) rfl rfl rfl
  obtain ⟨-, hgone⟩ := hamong f 0 rfl rfl
  have hclock : f.clock = 1000000000 := rfl
  rw [hclock] at hgone
  exact ⟨hin (by decide), hbeyond (by decide), (hgone (by decide)).1⟩

/-- With the greatest number that can be set, the first request for options stops the program, after
all lookups were answered. -/
theorem longest_keeping_stops :
    let entries := [("DATABASE_URL", "db"), ("SALES_FILTER_CACHE_TTL_SECS", "18446744073709551615")]
    let v : Visit := ⟨.options, fun _ => .ok [], ⟨2025, 6, 1, by decide, by decide⟩, 0, 0⟩
    ∃ s o, Settings.ofEnvironment entries = .ok s ∧ (Options.load v.db).outcome = .ok o ∧
      ((Engine.ofSettings s .utc).serve v).1.outcome = .error .beyondClock ∧
      ((Engine.ofSettings s .utc).serve v).1.calls = (Options.load v.db).calls := by
  intro entries v
  obtain ⟨s, hs, httl⟩ := exists_settings_of_cacheTtl (n := 18446744073709551615) (Nat.le_refl _)
  have hn : Text.natText 18446744073709551615 = "18446744073709551615" := by
    decide +kernel
  rw [hn] at hs
  obtain ⟨o, ho⟩ : ∃ o, (Options.load v.db).outcome = .ok o := by
    refine ⟨⟨[], [], [], [], [], []⟩, ?_⟩
    decide +kernel
  obtain ⟨hcalls, -, hloads⟩ := ((Engine.ofSettings s .utc).serves v).of_stale rfl rfl
  obtain ⟨o', -, houtcome⟩ := hloads (Options.findSome?_failure?_of_ok ho)
  have hbeyond : ¬ v.ended + (Engine.ofSettings s .utc).cache.ttl < endOfTime := by
    show ¬ 0 + s.cacheTtl * 1000000000 < endOfTime
    rw [httl]
    decide
  rw [if_neg hbeyond] at houtcome
  exact ⟨s, o, hs, ho, houtcome, hcalls⟩

end Takings
