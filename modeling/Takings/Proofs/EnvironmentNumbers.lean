import Mathlib.Data.List.Induction
import Takings.Proofs.Outcomes
import Takings.Settings.Basic

/-!
# Numbers in the environment

No variable is named twice in an environment that is read, so what an entry gives it counts,
wherever the entry stands. Settings take it from there, or their default if no entry names it.
-/
namespace Takings.Settings

/-- The number that entries give a variable, or the default if none of them names it. -/
inductive Gives (entries : List (String × String)) (v : Variable) (default : Nat) : Nat → Prop
  | named {name value : String} {bound n : Nat} (hm : (name, value) ∈ entries)
    (hv : Variable.ofName? name = some v) (hb : v.bound? = some bound)
    (hn : Text.readNat bound value = .ok n) : Gives entries v default n
  | unnamed (h : ∀ entry ∈ entries, Variable.ofName? entry.1 ≠ some v) :
    Gives entries v default default

namespace Environment

variable {e e' : Environment} {name value : String} {v w : Variable} {bound n default : Nat}
  {entries : List (String × String)}

/-- All that setting a variable can be. -/
inductive Sets (e : Environment) (name value : String) : Environment → Prop
  | ignored (hn : Variable.ofName? name = none) : Sets e name value e
  | text {v : Variable} (hn : Variable.ofName? name = some v) (hs : e.isSet v = false)
    (hb : v.bound? = none) : Sets e name value { e with texts := (v, value) :: e.texts }
  | number {v : Variable} {bound n : Nat} (hn : Variable.ofName? name = some v)
    (hs : e.isSet v = false) (hb : v.bound? = some bound)
    (hr : Text.readNat bound value = .ok n) :
    Sets e name value { e with numbers := (v, n) :: e.numbers }

theorem sets_of_set (h : e.set name value = .ok e') : Sets e name value e' := by
  rw [set] at h
  split at h
  · rename_i hn
    cases h
    exact .ignored hn
  · rename_i v hn
    split at h
    · cases h
    · rename_i hs
      rw [Bool.not_eq_true] at hs
      split at h
      · rename_i hb
        cases h
        exact .text hn hs hb
      · rename_i bound hb
        split at h
        · rename_i n hr
          cases h
          exact .number hn hs hb hr
        · cases h

theorem number?_eq_none_of_isSet (h : e.isSet v = false) : e.number? v = none := by
  rw [isSet, Bool.or_eq_false_iff] at h
  rw [number?, List.find?_eq_none.mpr fun p hp => ?_, Option.map_none]
  exact List.any_eq_false.mp h.2 p hp

/-- An entry that does not name a variable leaves its number as it is. -/
theorem Sets.number?_of_ne (h : Sets e name value e') (hv : Variable.ofName? name ≠ some v) :
    e'.number? v = e.number? v := by
  cases h with
  | ignored _ | text _ _ _ => rfl
  | @number w _ n hn _ _ _ =>
    have hne : ¬ w = v := by
      rintro rfl
      exact hv hn
    simp [number?, hne]

/-- An entry that names a variable is the first one that gives it a number. -/
theorem Sets.number?_of_eq (h : Sets e name value e') (hv : Variable.ofName? name = some v)
    (hb : v.bound? = some bound) : e.number? v = none ∧
      ∃ n, Text.readNat bound value = .ok n ∧ e'.number? v = some n := by
  cases h with
  | ignored hn =>
    rw [hv] at hn
    cases hn
  | text hn _ hno =>
    rw [hv] at hn
    cases hn
    rw [hb] at hno
    cases hno
  | @number w _ n hn hs hb' hr =>
    rw [hv] at hn
    cases hn
    rw [hb] at hb'
    cases hb'
    exact ⟨number?_eq_none_of_isSet hs, n, hr, by simp [number?]⟩

/-- What entries say of a variable that is a number. -/
structure Found (entries : List (String × String)) (v : Variable) (bound : Nat)
    (number : Option Nat) : Prop where
  named : ∀ entry ∈ entries, Variable.ofName? entry.1 = some v →
    ∃ n, number = some n ∧ Text.readNat bound entry.2 = .ok n
  source : ∀ n, number = some n → ∃ entry ∈ entries, Variable.ofName? entry.1 = some v

/-- One entry more. -/
theorem Found.append (h : Found entries v bound (e.number? v))
    (hs : Sets e name value e') (hb : v.bound? = some bound) :
    Found (entries ++ [(name, value)]) v bound (e'.number? v) := by
  by_cases hv : Variable.ofName? name = some v
  · obtain ⟨hnone, n, hr, hsome⟩ := hs.number?_of_eq hv hb
    rw [hsome]
    constructor
    · intro entry hentry hname
      rcases List.mem_append.mp hentry with hbefore | hlast
      · obtain ⟨m, hm, -⟩ := h.named entry hbefore hname
        rw [hnone] at hm
        cases hm
      · cases List.mem_singleton.mp hlast
        exact ⟨n, rfl, hr⟩
    · intro _ _
      exact ⟨(name, value), List.mem_append_right _ (List.mem_singleton_self _), hv⟩
  · rw [hs.number?_of_ne hv]
    constructor
    · intro entry hentry hname
      rcases List.mem_append.mp hentry with hbefore | hlast
      · exact h.named entry hbefore hname
      · cases List.mem_singleton.mp hlast
        exact absurd hname hv
    · intro n hn
      obtain ⟨entry, hentry, hname⟩ := h.source n hn
      exact ⟨entry, List.mem_append_left _ hentry, hname⟩

/-- The last entry is set in the environment of those before it. -/
theorem exists_of_read_concat {entry : String × String}
    (h : read (entries ++ [entry]) = .ok e) :
    ∃ before, read entries = .ok before ∧ before.set entry.1 entry.2 = .ok e := by
  rw [read, List.foldlM_append] at h
  obtain ⟨before, hbefore, hlast⟩ := bind_eq_ok_iff.mp h
  rw [List.foldlM_cons] at hlast
  obtain ⟨after, hafter, hlast⟩ := bind_eq_ok_iff.mp hlast
  cases hlast
  exact ⟨before, hbefore, hafter⟩

theorem found_of_read (h : read entries = .ok e) (hb : v.bound? = some bound) :
    Found entries v bound (e.number? v) := by
  induction entries using List.reverseRecOn generalizing e with
  | nil =>
    cases h
    exact ⟨fun _ hm => (nomatch hm), fun _ hn => (nomatch hn)⟩
  | append_singleton entries entry ih =>
    obtain ⟨before, hbefore, hset⟩ := exists_of_read_concat h
    exact (ih hbefore).append (sets_of_set hset) hb

theorem gives_iff (h : read entries = .ok e) (hb : v.bound? = some bound) :
    Gives entries v default n ↔ n = (e.number? v).getD default := by
  have hf := found_of_read h hb
  constructor
  · intro hg
    cases hg with
    | named hm hv hb' hn =>
      obtain ⟨m, hm, hr⟩ := hf.named _ hm hv
      rw [hb] at hb'
      cases hb'
      rw [hr] at hn
      cases hn
      rw [hm, Option.getD_some]
    | unnamed hno =>
      cases hnumber : e.number? v with
      | none => rfl
      | some m =>
        obtain ⟨entry, hentry, hname⟩ := hf.source m hnumber
        exact absurd hname (hno entry hentry)
  · rintro rfl
    cases hnumber : e.number? v with
    | none =>
      refine .unnamed fun entry hentry hname => ?_
      obtain ⟨m, hm, -⟩ := hf.named entry hentry hname
      rw [hnumber] at hm
      cases hm
    | some m =>
      obtain ⟨entry, hentry, hname⟩ := hf.source m hnumber
      obtain ⟨m', hm, hr⟩ := hf.named entry hentry hname
      rw [hnumber] at hm
      cases hm
      exact .named hentry hname hb hr

end Environment

variable {s : Settings} {entries : List (String × String)} {resolve : Resolver} {n : Nat}

/-- What settings take from an environment. -/
theorem exists_of_ofEnvironment (h : ofEnvironment entries resolve = .ok s) :
    ∃ e, Environment.read entries = .ok e ∧
      (s.hourlyStart, s.hourlyEnd) =
        clampHours ((e.number? .hourlyStart).getD 6) ((e.number? .hourlyEnd).getD 23) ∧
      s.cacheTtl = (e.number? .cacheTtl).getD 300 ∧
      s.allowedOrigins = (e.text? .allowedOrigins).bind readOrigins := by
  obtain ⟨e, he, h⟩ := bind_eq_ok_iff.mp h
  obtain ⟨listen, -, h⟩ := bind_eq_ok_iff.mp h
  refine ⟨e, mapError_eq_ok_iff.mp he, ?_⟩
  split at h
  · cases h
    exact ⟨rfl, rfl, rfl⟩
  · cases h

theorem gives_cacheTtl_iff (h : ofEnvironment entries resolve = .ok s) :
    Gives entries .cacheTtl 300 n ↔ n = s.cacheTtl := by
  obtain ⟨e, he, -, httl, -⟩ := exists_of_ofEnvironment h
  rw [Environment.gives_iff he rfl, httl]

/-- The hours of settings are the given ones in ascending order, each within the day. -/
theorem exists_hours (h : ofEnvironment entries resolve = .ok s) : ∃ start stop,
    (∀ n, Gives entries .hourlyStart 6 n ↔ n = start) ∧
    (∀ n, Gives entries .hourlyEnd 23 n ↔ n = stop) ∧
    s.hours = ⟨min (min start 23) (min stop 23), max (min start 23) (min stop 23)⟩ := by
  obtain ⟨e, he, hhours, -⟩ := exists_of_ofEnvironment h
  refine ⟨_, _, fun n => Environment.gives_iff he rfl, fun n => Environment.gives_iff he rfl, ?_⟩
  rw [clampHours, Prod.mk.injEq] at hhours
  rw [hours, hhours.1, hhours.2]

/-- An environment with a database and one entry more. -/
theorem Environment.read_database_and {e : Environment} {name value : String}
    (h : set ⟨[(.database, "db")], []⟩ name value = .ok e) :
    Environment.read [("DATABASE_URL", "db"), (name, value)] = .ok e := by
  have hdatabase : Variable.ofName? "DATABASE_URL" = some .database := rfl
  have hfirst : empty.set "DATABASE_URL" "db" = .ok ⟨[(.database, "db")], []⟩ := by
    rw [set, hdatabase]
    rfl
  show (empty.set "DATABASE_URL" "db" >>= fun e => e.set name value >>= pure) = _
  rw [hfirst]
  show (set _ _ _ >>= pure) = _
  rw [h]
  rfl

/-- Without an address, a host and a port every host is listened at, at the usual port. -/
theorem listenAddress_of_none {e : Environment} (ha : e.text? .listenAddress = none)
    (hh : e.text? .listenHost = none) (hp : e.number? .listenPort = none) :
    listenAddress resolve e = .ok ⟨.v4 [0, 0, 0, 0], 0, 3001⟩ := by
  have haddress : Address.readAll resolve ("0.0.0.0" ++ ":" ++ Text.natText 3001) =
      .ok [⟨.v4 [0, 0, 0, 0], 0, 3001⟩] :=
    rfl
  rw [listenAddress, ha, hh, hp]
  simp only [Option.getD_none, haddress]
  rfl

/-- No number of 64 bits is too large for the time of keeping. -/
theorem exists_settings_of_cacheTtl (h : n ≤ 18446744073709551615) :
    ∃ s, ofEnvironment [("DATABASE_URL", "db"), ("SALES_FILTER_CACHE_TTL_SECS", Text.natText n)] =
      .ok s ∧ s.cacheTtl = n := by
  have httl : Variable.ofName? "SALES_FILTER_CACHE_TTL_SECS" = some .cacheTtl := rfl
  have hset : Environment.set ⟨[(.database, "db")], []⟩ "SALES_FILTER_CACHE_TTL_SECS"
      (Text.natText n) = .ok ⟨[(.database, "db")], [(.cacheTtl, n)]⟩ := by
    rw [Environment.set, httl]
    simp only [Variable.bound?, Text.readNat_natText h]
    rfl
  have hlisten : listenAddress .nameless ⟨[(.database, "db")], [(.cacheTtl, n)]⟩ =
      .ok ⟨.v4 [0, 0, 0, 0], 0, 3001⟩ :=
    listenAddress_of_none rfl rfl rfl
  rw [ofEnvironment, Environment.read_database_and hset]
  show ∃ s, (listenAddress _ _ >>= _) = _ ∧ _
  rw [hlisten]
  exact ⟨_, rfl, rfl⟩

end Takings.Settings
