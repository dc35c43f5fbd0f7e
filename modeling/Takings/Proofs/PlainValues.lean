import Takings.Json.Kind
import Takings.Proofs.CompositeValues
import Takings.Proofs.RecordColumns

/-!
# Plain values

A record keeps a member of any kind as it is, unless an envelope is somewhere inside. No text denotes
a value with an envelope inside, since reading the text has opened it already.
-/
namespace Takings.Json

/-- No object inside a value, the value itself included, is an envelope. -/
inductive Plain : Json → Prop
  | null : Plain .null
  | bool (b : Bool) : Plain (.bool b)
  | int (n : Int) : Plain (.int n)
  | float (x : Binary64) (h : x.isFinite = true) : Plain (.float x h)
  | str (s : String) : Plain (.str s)
  | arr {items : List Json} (h : ∀ v ∈ items, Plain v) : Plain (.arr items)
  | obj {members : List (String × Json)} (hne : ∀ v, members ≠ [(envelopeName, v)])
    (h : ∀ m ∈ members, Plain m.2) : Plain (.obj members)

/-! ### Plain values are kept -/

namespace Kind

theorem eq_of_readItems {items ws : List Json}
    (h : ∀ v ∈ items, ∀ w, readJson v = .ok w → w = v) (hr : readItems items = .ok ws) :
    ws = items := by
  induction items generalizing ws with
  | nil =>
    cases hr
    rfl
  | cons v vs ih =>
    obtain ⟨hv, hvs⟩ := List.forall_mem_cons.mp h
    obtain ⟨w, hw, hr⟩ := bind_eq_ok_iff.mp hr
    obtain ⟨rest, hrest, hr⟩ := bind_eq_ok_iff.mp hr
    cases hr
    rw [hv w hw, ih hvs hrest]

theorem eq_of_readMembers {members ms : List (String × Json)}
    (h : ∀ m ∈ members, ∀ w, readJson m.2 = .ok w → w = m.2)
    (hr : readMembers members = .ok ms) : ms = members := by
  induction members generalizing ms with
  | nil =>
    cases hr
    rfl
  | cons m members ih =>
    obtain ⟨hm, hms⟩ := List.forall_mem_cons.mp h
    obtain ⟨w, hw, hr⟩ := bind_eq_ok_iff.mp hr
    obtain ⟨rest, hrest, hr⟩ := bind_eq_ok_iff.mp hr
    cases hr
    rw [hm w hw, ih hms hrest]

/-- Nothing but an envelope alone is read of an object that begins with the name of one. -/
theorem eq_one_of_readEnvelope {count : Nat} {v w : Json} (h : readEnvelope count v = .ok w) :
    count = 1 := by
  cases v with
  | str s =>
    rw [readEnvelope] at h
    split at h
    · cases h
    · split at h
      · assumption
      · cases h
  | null | bool _ | int _ | float _ _ | arr _ | obj _ => cases h

theorem eq_of_readJson {v w : Json} (h : Plain v) (hr : readJson v = .ok w) : w = v := by
  induction h generalizing w with
  | null | bool | int | float | str =>
    cases hr
    rfl
  | arr _ ih =>
    obtain ⟨ws, hws, rfl⟩ := map_eq_ok_iff.mp hr
    rw [eq_of_readItems (fun v hv w => ih v hv) hws]
  | @obj members hne _ ih =>
    rw [readJson] at hr
    split at hr
    · rename_i hnil
      cases hr
      rw [List.head?_eq_none_iff.mp hnil]
    · rename_i k v hhead
      split at hr
      · rename_i hk
        obtain ⟨rest, rfl⟩ := List.head?_eq_some_iff.mp hhead
        have hrest : rest = [] :=
          List.eq_nil_of_length_eq_zero (Nat.succ.inj (eq_one_of_readEnvelope hr))
        exact absurd (by rw [hrest, hk]) (hne v)
      · obtain ⟨ms, hms, rfl⟩ := map_eq_ok_iff.mp hr
        rw [eq_of_readMembers (fun m hm w => ih m hm) hms]

end Kind

/-! ### Texts denote plain values -/

theorem mem_of_mem_insert {name : String} {v : Json} {m : String × Json}
    {members : List (String × Json)} (h : m ∈ insert name v members) :
    m = (name, v) ∨ m ∈ members := by
  induction members with
  | nil => exact .inl (List.mem_singleton.mp h)
  | cons e members ih =>
    obtain ⟨k, w⟩ := e
    rw [insert] at h
    split at h
    · exact List.mem_cons.mp h
    · split at h
      · exact (List.mem_cons.mp h).imp_right (List.mem_cons_of_mem _)
      · rcases List.mem_cons.mp h with rfl | h
        · exact .inr List.mem_cons_self
        · exact (ih h).imp_right (List.mem_cons_of_mem _)

theorem mem_of_mem_foldl_insert {m : String × Json} {members l : List (String × Json)}
    (h : m ∈ members.foldl (fun l (k, v) => insert k v l) l) : m ∈ members ∨ m ∈ l := by
  induction members generalizing l with
  | nil => exact .inr h
  | cons e members ih =>
    rcases ih h with h | h
    · exact .inl (List.mem_cons_of_mem _ h)
    · rcases mem_of_mem_insert h with rfl | h
      · exact .inl List.mem_cons_self
      · exact .inr h

/-- An object with a member of another name is no envelope. -/
theorem plain_object {k : String} {v : Json} {members : List (String × Json)}
    (hk : k ≠ envelopeName) (h : ∀ m ∈ (k, v) :: members, Plain m.2) :
    Plain (object ((k, v) :: members)) := by
  refine .obj (fun w he => ?_) fun m hm => ?_
  · -- The object has a member of that other name, so the one of an envelope is not its only one.
    have hmember := member?_object k ((k, v) :: members)
    rw [object, he, member?, List.find?_singleton, if_neg (by simpa using Ne.symm hk),
      Option.map_none, eq_comm, Option.map_eq_none_iff, List.find?_eq_none] at hmember
    exact hmember (k, v) (by simp) (by simp)
  · rcases mem_of_mem_foldl_insert hm with hm | hm
    · exact h m hm
    · cases hm

theorem Numeral.plain_of_value? {n : Numeral} {v : Json} (h : n.value? = some v) : Plain v := by
  rw [value?] at h
  split at h
  · cases h
    exact .int _
  · split at h
    · cases h
      exact .int _
    · split at h
      · cases h
        exact .float _ _
      · cases h

namespace Reader

open Takings.Json.Tree (skipGap)

variable {inner : List Char → Except Fault Json} {read : Reader Json} {cs rest : List Char}
  {v : Json} {vs : List Json} {ms : List (String × Json)} {n : Nat}

theorem plain_of_scalar (h : scalar cs = .ok (v, rest)) : Plain v := by
  unfold scalar at h
  split at h
  · cases h
  · rw [eq_of_word h]
    exact .null
  · rw [eq_of_word h]
    exact .bool true
  · rw [eq_of_word h]
    exact .bool false
  · obtain ⟨_, -, ⟨⟩⟩ := map_eq_ok_iff.mp h
    exact .str _
  · split at h
    · obtain ⟨n, -, hv⟩ := number_eq_ok_iff.mp h
      exact Numeral.plain_of_value? hv
    · cases h

theorem plain_of_items (hp : ∀ {cs v rest}, read cs = .ok (v, rest) → Plain v)
    (h : items read n cs = .ok (vs, rest)) : ∀ v ∈ vs, Plain v := by
  induction n generalizing cs vs with
  | zero => cases h
  | succ n ih =>
    obtain ⟨⟨v, r⟩, hv, h⟩ := bind_eq_ok_iff.mp h
    dsimp only at h
    split at h
    · cases h
    · cases h
      exact List.forall_mem_singleton.mpr (hp hv)
    · split at h
      · cases h
      · obtain ⟨⟨vs, r⟩, hvs, ⟨⟩⟩ := map_eq_ok_iff.mp h
        exact List.forall_mem_cons.mpr ⟨hp hv, ih hvs⟩
    · cases h

/-- The first of the members has the name that is read first. -/
theorem plain_of_members (hp : ∀ {cs v rest}, read cs = .ok (v, rest) → Plain v)
    (h : members read n cs = .ok (ms, rest)) :
    (∀ m ∈ ms, Plain m.2) ∧ ∃ k r v ms', name cs = .ok (k, r) ∧ ms = (k, v) :: ms' := by
  induction n generalizing cs ms with
  | zero => cases h
  | succ n ih =>
    obtain ⟨⟨k, r⟩, hk, h⟩ := bind_eq_ok_iff.mp h
    obtain ⟨⟨v, r'⟩, hv, h⟩ := bind_eq_ok_iff.mp h
    dsimp only at h
    split at h
    · cases h
    · cases h
      exact ⟨List.forall_mem_singleton.mpr (hp hv), k, r, v, [], hk, rfl⟩
    · split at h
      · cases h
      · obtain ⟨⟨ms, r⟩, hms, ⟨⟩⟩ := map_eq_ok_iff.mp h
        exact ⟨List.forall_mem_cons.mpr ⟨hp hv, (ih hms).1⟩, k, _, v, ms, hk, rfl⟩
    · cases h

theorem plain_of_array (hp : ∀ {cs v rest}, read cs = .ok (v, rest) → Plain v)
    (h : array read cs = .ok (v, rest)) : Plain v := by
  rw [array] at h
  split at h
  · cases h
  · cases h
    exact .arr fun _ hm => absurd hm List.not_mem_nil
  · obtain ⟨⟨vs, r⟩, hvs, ⟨⟩⟩ := map_eq_ok_iff.mp h
    exact .arr (plain_of_items hp hvs)

theorem plain_of_object (hi : ∀ {cs v}, inner cs = .ok v → Plain v)
    (hp : ∀ {cs v rest}, read cs = .ok (v, rest) → Plain v)
    (h : object inner read cs = .ok (v, rest)) : Plain v := by
  rw [object] at h
  split at h
  · cases h
  · cases h
    exact .obj (fun _ he => List.cons_ne_nil _ _ he.symm) fun _ hm => absurd hm List.not_mem_nil
  · obtain ⟨⟨k, afterName⟩, hk, h⟩ := bind_eq_ok_iff.mp h
    dsimp only at h
    split at h
    · obtain ⟨_, _, _, -, -, hv, -⟩ := envelope_eq_ok_iff.mp h
      exact hi hv
    · rename_i hne
      obtain ⟨⟨ms, r⟩, hms, ⟨⟩⟩ := map_eq_ok_iff.mp h
      obtain ⟨hplain, k', r', w, ms', hk', rfl⟩ := plain_of_members hp hms
      rw [hk] at hk'
      cases hk'
      exact plain_object hne hplain

theorem plain_of_value (hi : ∀ {cs v}, inner cs = .ok v → Plain v) {depth : Nat}
    (h : value inner depth cs = .ok (v, rest)) : Plain v := by
  -- Arrays and objects read their parts one level less deep.
  induction depth generalizing cs v rest with
  | zero =>
    rw [value] at h
    split at h
    · cases h
    · cases h
    · exact plain_of_scalar h
  | succ depth ih =>
    rw [value] at h
    split at h
    · exact plain_of_array ih h
    · exact plain_of_object hi ih h
    · exact plain_of_scalar h

theorem plain_of_nested (h : nested n cs = .ok v) : Plain v := by
  induction n generalizing cs v with
  | zero => cases h
  | succ n ih =>
    obtain ⟨r, hv, -⟩ := text_eq_ok_iff.mp h
    exact plain_of_value ih hv

end Reader

/-- What a text denotes is plain. -/
theorem plain_of_read {s : String} {v : Json} (h : read s = .ok v) : Plain v :=
  Reader.plain_of_nested h

/-! ### Columns of plain rows -/

theorem Record.plain_of_column? {r : Record} {v column : Json} {name : String} (h : Plain v)
    (hc : r.column? v name = some column) : Plain column := by
  cases h with
  | null | bool | int | float | str => cases hc
  | arr h =>
    obtain ⟨e, he, rfl⟩ := Option.map_eq_some_iff.mp hc
    exact h e.2 (List.of_mem_zip (List.mem_of_find?_eq_some he)).2
  | obj _ h =>
    obtain ⟨m, hm, rfl⟩ := Option.map_eq_some_iff.mp hc
    exact h m (List.mem_of_find?_eq_some hm)

/-- A required value of any kind is that of its column. -/
theorem Field.eq_of_gets_json {name : String} {column : Option Json} {x : Json}
    (hp : ∀ v ∈ column, Plain v) (h : (required name .json).Gets column x) : column = some x := by
  obtain ⟨v, rfl, hx⟩ := gets_required_iff.mp h
  exact congrArg some (Kind.eq_of_readJson (hp v rfl) hx).symm

/-- A value of any kind is that of its column, or null if there is none. -/
theorem Field.eq_getD_of_gets_json {name : String} {column : Option Json} {x : Json}
    (hp : ∀ v ∈ column, Plain v) (h : (optional name .json .null).Gets column x) :
    x = column.getD .null := by
  obtain ⟨rfl, rfl⟩ | ⟨v, rfl, hx⟩ := gets_optional_iff.mp h
  · rfl
  · exact Kind.eq_of_readJson (hp v rfl) hx

end Takings.Json
