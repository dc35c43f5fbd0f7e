import Takings.Json.Kind
import Takings.Proofs.Outcomes

/-!
# Values that are opened

A value of any kind is read by opening the envelopes inside. An object whose first name is that of
an envelope has to be one: that member alone, with a text that denotes a value. All other objects,
and all arrays and scalars, are read whatever they are, if what is inside them is.
-/
namespace Takings.Json

/-- Every object inside a value that begins with the name of an envelope is one. -/
inductive Opens : Json → Prop
  | null : Opens .null
  | bool (b : Bool) : Opens (.bool b)
  | int (n : Int) : Opens (.int n)
  | float (x : Binary64) (h : x.isFinite = true) : Opens (.float x h)
  | str (s : String) : Opens (.str s)
  | arr {items : List Json} (h : ∀ v ∈ items, Opens v) : Opens (.arr items)
  | obj {members : List (String × Json)} (hn : ∀ m ∈ members.head?, m.1 ≠ envelopeName)
    (h : ∀ m ∈ members, Opens m.2) : Opens (.obj members)
  | envelope {s : String} {v : Json} (h : read s = .ok v) : Opens (.obj [(envelopeName, .str s)])

namespace Kind

variable {v : Json} {members : List (String × Json)}

theorem exists_readItems_iff {items : List Json} :
    (∃ ws, readItems items = .ok ws) ↔ ∀ v ∈ items, ∃ w, readJson v = .ok w := by
  induction items with
  | nil => exact iff_of_true ⟨[], rfl⟩ (by simp)
  | cons v vs ih =>
    rw [List.forall_mem_cons, ← ih]
    constructor
    · rintro ⟨ws, h⟩
      obtain ⟨w, hw, h⟩ := bind_eq_ok_iff.mp h
      obtain ⟨rest, hrest, -⟩ := bind_eq_ok_iff.mp h
      exact ⟨⟨w, hw⟩, rest, hrest⟩
    · rintro ⟨⟨w, hw⟩, rest, hrest⟩
      exact ⟨w :: rest, bind_eq_ok_iff.mpr ⟨w, hw, bind_eq_ok_iff.mpr ⟨rest, hrest, rfl⟩⟩⟩

theorem exists_readMembers_iff :
    (∃ ms, readMembers members = .ok ms) ↔ ∀ m ∈ members, ∃ w, readJson m.2 = .ok w := by
  induction members with
  | nil => exact iff_of_true ⟨[], rfl⟩ (by simp)
  | cons m members ih =>
    rw [List.forall_mem_cons, ← ih]
    constructor
    · rintro ⟨ms, h⟩
      obtain ⟨w, hw, h⟩ := bind_eq_ok_iff.mp h
      obtain ⟨rest, hrest, -⟩ := bind_eq_ok_iff.mp h
      exact ⟨⟨w, hw⟩, rest, hrest⟩
    · rintro ⟨⟨w, hw⟩, rest, hrest⟩
      exact ⟨_, bind_eq_ok_iff.mpr ⟨w, hw, bind_eq_ok_iff.mpr ⟨rest, hrest, rfl⟩⟩⟩

theorem readEnvelope_eq_ok_iff {count : Nat} {w : Json} :
    readEnvelope count v = .ok w ↔ count = 1 ∧ ∃ s, v = .str s ∧ Json.read s = .ok w := by
  cases v with
  | str s =>
    rw [readEnvelope]
    cases hs : Json.read s with
    | error fault => simp [hs]
    | ok w' =>
      dsimp only
      split
      · rename_i hcount
        simp [hcount, hs]
      · rename_i hcount
        simp [hcount]
  | null | bool _ | int _ | float _ _ | arr _ | obj _ => simp [readEnvelope]

theorem readJson_envelope (v : Json) (rest : List (String × Json)) :
    readJson (.obj ((envelopeName, v) :: rest)) = readEnvelope (rest.length + 1) v := by
  rw [readJson]
  exact if_pos rfl

theorem readJson_of_ne {k : String} (hk : k ≠ envelopeName) (rest : List (String × Json)) :
    readJson (.obj ((k, v) :: rest)) = (readMembers ((k, v) :: rest)).map .obj := by
  rw [readJson]
  exact if_neg hk

theorem sizeOf_lt_arr {items : List Json} (h : v ∈ items) : sizeOf v < sizeOf (Json.arr items) := by
  have hlt := List.sizeOf_lt_of_mem h
  rw [arr.sizeOf_spec]
  omega

theorem sizeOf_lt_obj {m : String × Json} (h : m ∈ members) :
    sizeOf m.2 < sizeOf (Json.obj members) := by
  obtain ⟨k, v⟩ := m
  have hlt := List.sizeOf_lt_of_mem h
  rw [Prod.mk.sizeOf_spec] at hlt
  rw [obj.sizeOf_spec]
  show sizeOf v < _
  omega

theorem opens_of_readJson : (v : Json) → (∃ w, readJson v = .ok w) → Opens v
  | .null, _ => .null
  | .bool b, _ => .bool b
  | .int n, _ => .int n
  | .float x hx, _ => .float x hx
  | .str s, _ => .str s
  | .arr items, ⟨_, h⟩ => by
    obtain ⟨ws, hws, -⟩ := map_eq_ok_iff.mp h
    exact .arr fun v hv => opens_of_readJson v (exists_readItems_iff.mp ⟨ws, hws⟩ v hv)
  | .obj [], _ => .obj (by simp) (by simp)
  | .obj ((k, v) :: rest), ⟨w, h⟩ => by
    by_cases hk : k = envelopeName
    · subst hk
      rw [readJson_envelope, readEnvelope_eq_ok_iff] at h
      obtain ⟨hcount, s, rfl, hs⟩ := h
      rw [List.eq_nil_of_length_eq_zero (Nat.succ.inj hcount)]
      exact .envelope hs
    · rw [readJson_of_ne hk] at h
      obtain ⟨ms, hms, -⟩ := map_eq_ok_iff.mp h
      exact .obj (by simpa using hk) fun m hm =>
        opens_of_readJson m.2 (exists_readMembers_iff.mp ⟨ms, hms⟩ m hm)
termination_by v => sizeOf v
decreasing_by
  · exact sizeOf_lt_arr hv
  · exact sizeOf_lt_obj hm

theorem exists_readJson_of_opens (h : Opens v) : ∃ w, readJson v = .ok w := by
  induction h with
  | null | bool | int | float | str => exact ⟨_, rfl⟩
  | arr _ ih =>
    obtain ⟨ws, hws⟩ := exists_readItems_iff.mpr ih
    exact ⟨_, map_eq_ok_iff.mpr ⟨ws, hws, rfl⟩⟩
  | @obj members hn _ ih =>
    cases members with
    | nil => exact ⟨_, rfl⟩
    | cons m rest =>
      obtain ⟨ms, hms⟩ := exists_readMembers_iff.mpr ih
      refine ⟨.obj ms, ?_⟩
      rw [readJson_of_ne (hn m rfl), map_eq_ok_iff]
      exact ⟨ms, hms, rfl⟩
  | @envelope s w hs =>
    refine ⟨w, ?_⟩
    rw [readJson_envelope, readEnvelope_eq_ok_iff]
    exact ⟨rfl, s, rfl, hs⟩

/-- A value of any kind is read exactly if it can be opened. -/
theorem exists_readJson_iff : (∃ w, readJson v = .ok w) ↔ Opens v :=
  ⟨opens_of_readJson v, exists_readJson_of_opens⟩

end Kind

end Takings.Json
