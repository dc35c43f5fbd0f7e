import Mathlib.Data.List.Perm.Basic
import Takings.Proofs.CanonicalPredicate
import Takings.Proofs.CompositeValues

/-!
# Forms of composite filters

A composite filter may be written in any JSON text: as an array of its key and value or as an object
with just one member for each of them, among others. Every such text is read as the same filter.
-/
namespace Takings.Filter

open Json

namespace Composite

/-- A tree holds a key and the tree of a value: an array of the two, or an object of which just one
member has the name of either. The other members are of no account. -/
inductive Holds : Tree → String → Tree → Prop
  | array {ks : Literal} {key : String} {t : Tree} (hk : ks.Denotes key.toList) :
    Holds (.array [.string ks, t]) key t
  | object {members : List (Literal × Tree)} {named others : List (String × Tree)} {ks : Literal}
    {key : String} {t : Tree}
    (hn : List.Forall₂ (fun m e => m.1.Denotes e.1.toList ∧ m.2 = e.2) members named)
    (hp : named.Perm (("type", .string ks) :: ("value", t) :: others))
    (ho : ∀ e ∈ others, e.1 ≠ "type" ∧ e.1 ≠ "value") (hk : ks.Denotes key.toList) :
    Holds (.object members) key t

/-! ### Members -/

theorem single?_eq_some_iff {name : String} {members : List (String × Tree)} {t : Tree} :
    single? name members = some t ↔ members.filter (fun e => e.1 == name) = [(name, t)] := by
  rw [single?]
  constructor
  · intro h
    split at h
    · rename_i k t' hf
      cases h
      have hm : (k, t) ∈ members.filter fun e => e.1 == name := by
        rw [show members.filter (fun e => e.1 == name) = [(k, t)] from hf]
        exact List.mem_singleton_self _
      have hk : k = name := by simpa using (List.mem_filter.mp hm).2
      rw [← hk]
      rw [← hk] at hf
      exact hf
    · cases h
  · intro h
    split
    · rename_i hf
      cases hf.symm.trans h
      rfl
    · rename_i hn
      exact absurd h (hn name t)

/-- Two members of different names stand alone among others exactly if each is all there is of its
name. -/
theorem exists_perm_iff {members : List (String × Tree)} {a b : String} (hab : a ≠ b)
    {x y : Tree} :
    (∃ others, members.Perm ((a, x) :: (b, y) :: others) ∧ ∀ e ∈ others, e.1 ≠ a ∧ e.1 ≠ b) ↔
      members.filter (fun e => e.1 == a) = [(a, x)] ∧
        members.filter (fun e => e.1 == b) = [(b, y)] := by
  constructor
  · rintro ⟨others, hp, ho⟩
    have hnone (name : String) (h : ∀ e ∈ others, e.1 ≠ name) :
        others.filter (fun e => e.1 == name) = [] :=
      List.filter_eq_nil_iff.mpr fun e he => by simp [h e he]
    constructor
    · have h := hp.filter fun e => e.1 == a
      simpa [hab.symm, hnone a fun e he => (ho e he).1] using h
    · have h := hp.filter fun e => e.1 == b
      simpa [hab, hnone b fun e he => (ho e he).2] using h
  · rintro ⟨ha, hb⟩
    refine ⟨(members.filter fun e => !(e.1 == a)).filter fun e => !(e.1 == b), ?_, ?_⟩
    · have hfirst := List.filter_append_perm (fun e : String × Tree => e.1 == a) members
      have hsecond := List.filter_append_perm (fun e : String × Tree => e.1 == b)
        (members.filter fun e => !(e.1 == a))
      have hboth : (members.filter fun e => !(e.1 == a)).filter (fun e => e.1 == b) =
          members.filter fun e => e.1 == b := by
        rw [List.filter_filter]
        apply List.filter_congr
        intro e _
        by_cases he : e.1 = b <;> simp [he, hab.symm]
      rw [hboth, hb] at hsecond
      rw [ha] at hfirst
      exact (hfirst.symm.trans (hsecond.symm.cons _))
    · intro e he
      simp only [List.mem_filter, Bool.not_eq_true', beq_eq_false_iff_ne] at he
      exact ⟨he.1.2, he.2⟩

theorem mapM_eq_some_iff {members : List (Literal × Tree)} {named : List (String × Tree)} :
    (members.mapM fun (k, t) => (Literal.text? k).map fun k => (String.ofList k, t)) =
        some named ↔
      List.Forall₂ (fun m e => m.1.Denotes e.1.toList ∧ m.2 = e.2) members named := by
  induction members generalizing named with
  | nil => cases named <;> simp
  | cons m members ih =>
    obtain ⟨k, t⟩ := m
    simp only [List.mapM_cons, Option.bind_eq_bind, Option.bind_eq_some_iff,
      Option.map_eq_some_iff, Option.pure_def, Option.some.injEq, List.forall₂_cons_left_iff,
      ih, Literal.text?_eq_some_iff]
    constructor
    · rintro ⟨_, ⟨cs, hk, rfl⟩, named, hm, rfl⟩
      exact ⟨_, named, ⟨by rwa [String.toList_ofList], rfl⟩, hm, rfl⟩
    · rintro ⟨e, named, ⟨hk, rfl⟩, hm, rfl⟩
      exact ⟨e, ⟨_, hk, by rw [String.ofList_toList]⟩, named, hm, rfl⟩

/-! ### Keys and values -/

theorem parts?_eq_some_iff {t w : Tree} {key : String} :
    (∃ ks : Literal, parts? t = some (.string ks, w) ∧ ks.Denotes key.toList) ↔ Holds t key w := by
  constructor
  · rintro ⟨ks, hp, hk⟩
    cases t with
    | array items =>
      rcases items with _ | ⟨a, _ | ⟨b, _ | ⟨c, items⟩⟩⟩ <;> cases hp
      exact .array hk
    | object members =>
      simp only [parts?, Option.bind_eq_bind, Option.bind_eq_some_iff, single?_eq_some_iff,
        mapM_eq_some_iff, Option.pure_def, Option.some.injEq] at hp
      obtain ⟨named, hn, _, hkey, _, hvalue, ⟨⟩⟩ := hp
      obtain ⟨others, hperm, ho⟩ := (exists_perm_iff (by decide)).mpr ⟨hkey, hvalue⟩
      exact .object hn hperm ho hk
    | null | bool _ | number _ | string _ => cases hp
  · rintro (hk | ⟨hn, hperm, ho, hk⟩)
    · exact ⟨_, rfl, hk⟩
    · obtain ⟨hkey, hvalue⟩ := (exists_perm_iff (by decide)).mp ⟨_, hperm, ho⟩
      refine ⟨_, ?_, hk⟩
      simp only [parts?, mapM_eq_some_iff.mpr hn, single?_eq_some_iff.mpr hkey,
        single?_eq_some_iff.mpr hvalue, Option.bind_eq_bind, Option.bind_some, Option.pure_def]

theorem read?_of_holds {text key : String} {t w : Tree} (ht : t.IsText text.toList)
    (hh : Holds t key w) : read? text = (valueText? w).map fun value => (key, value) := by
  obtain ⟨ks, hp, hk⟩ := parts?_eq_some_iff.mpr hh
  simp only [read?, Tree.read?_eq_some_iff.mpr ht, hp, Literal.text?_of_denotes hk,
    Option.bind_eq_bind, Option.bind_some, Option.pure_def, String.ofList_toList]
  cases valueText? w <;> rfl

theorem read?_eq_some_iff {text key value : String} :
    read? text = some (key, value) ↔
      ∃ t w, t.IsText text.toList ∧ Holds t key w ∧ Carries w value := by
  constructor
  · intro h
    simp only [read?, Option.bind_eq_bind, Option.bind_eq_some_iff] at h
    obtain ⟨t, ht, ⟨k, w⟩, hp, h⟩ := h
    cases k with
    | string ks =>
      simp only [Option.bind_eq_some_iff] at h
      obtain ⟨cs, hk, v, hv, ⟨⟩⟩ := h
      have hd : ks.Denotes (String.ofList cs).toList := by
        rw [String.toList_ofList]
        exact Literal.denotes_of_text? hk
      exact ⟨t, w, Tree.read?_eq_some_iff.mp ht, parts?_eq_some_iff.mp ⟨ks, hp, hd⟩,
        valueText?_eq_some_iff.mp hv⟩
    | null | bool _ | number _ | array _ | object _ => cases h
  · rintro ⟨t, w, ht, hh, hw⟩
    rw [read?_of_holds ht hh, valueText?_eq_some_iff.mpr hw, Option.map_some]

/-- A text denotes a filter if it is JSON that holds a key of the level and a value that selects
something. -/
def Denotes (text : String) (f : LevelFilter) : Prop :=
  ∃ (t w : Tree) (key value : String), (t.IsText text.toList ∧ Holds t key w) ∧
    key ∈ f.level.keys ∧ Carries w value ∧ Selective value ∧ f.value = Text.trim value

theorem filter?_eq_some_iff {h : Hierarchy} {text : String} {f : LevelFilter} :
    filter? h text = some f ↔ Denotes text f ∧ f.level.hierarchy = h := by
  constructor
  · intro hf
    rw [filter?] at hf
    obtain ⟨_, -, hf⟩ := Option.bind_eq_some_iff.mp hf
    obtain ⟨⟨key, value⟩, hr, hf⟩ := Option.bind_eq_some_iff.mp hf
    obtain ⟨l, hl, hf⟩ := Option.bind_eq_some_iff.mp hf
    obtain ⟨v, hv, ⟨⟩⟩ := Option.bind_eq_some_iff.mp hf
    obtain ⟨t, w, ht, hh, hw⟩ := read?_eq_some_iff.mp hr
    obtain ⟨hl, hk⟩ := Level.ofKey?_eq_some_iff.mp hl
    rw [active?_eq] at hv
    split at hv
    · rename_i hs
      cases hv
      exact ⟨⟨t, w, key, value, ⟨ht, hh⟩, hk, hw, hs, rfl⟩, hl⟩
    · cases hv
  · rintro ⟨⟨t, w, key, value, ⟨ht, hh⟩, hk, hw, hs, hv⟩, hl⟩
    rw [filter?_of_read? (read?_eq_some_iff.mpr ⟨t, w, ht, hh, hw⟩)
      (Level.ofKey?_eq_some_iff.mpr ⟨hl, hk⟩), active?_eq, if_pos hs, Option.map_some, ← hv]

/-- All texts that hold a key and the tree of a value are read as one filter. -/
theorem filter?_of_holds {text key : String} {l : Level} {t w : Tree} (ht : t.IsText text.toList)
    (hh : Holds t key w) (hk : key ∈ l.keys) :
    filter? l.hierarchy text = ((valueText? w).bind active?).map fun v => ⟨l, v⟩ := by
  have hr := read?_of_holds ht hh
  cases hv : valueText? w with
  | none =>
    rw [hv, Option.map_none] at hr
    rw [filter?, hr]
    exact Option.bind_fun_none _
  | some value =>
    rw [hv, Option.map_some] at hr
    rw [filter?_of_read? hr (Level.ofKey?_eq_some_iff.mpr ⟨rfl, hk⟩), Option.bind_some]

end Composite

/-- A key and a text may be written in any JSON text that holds them: with any mix of characters and
escapes, any white space, in any order and among any other members. A request with such a text
filters by the level of the key and the text without the white space around it, and not at all if
the text selects nothing. -/
theorem composite_filters_in_any_form {l : Level} {key value text : String} {t : Tree}
    {vs : Literal} {p : Params} (hk : key ∈ l.keys) (ht : t.IsText text.toList)
    (hh : Composite.Holds t key (.string vs)) (hv : vs.Denotes value.toList)
    (hp : p.composite l.hierarchy = some text)
    (ho : ∀ h ≠ l.hierarchy, p.composite h = none) :
    (Spec.ofParams p).levels =
      if Selective value then [⟨l, Text.trim value⟩] else [] := by
  rw [Spec.levels_of_composite hp ho, Composite.filter?_of_holds ht hh hk,
    Composite.valueText?_eq_some_iff.mpr (.string hv), Option.bind_some, active?_eq]
  split <;> rfl

/-- A city after a member that no format could hold, in escapes and a pair of them. -/
theorem escaped_city_filters :
    let plain (s : String) : Literal := s.toList.map .plain
    let text := "\x7b\"x\":[1e999],\n\"\\u0076alue\": " ++
      "\"\\ud83d\\ude00\\/Rome\\t\" ,\"type\":\"city\"\x7d"
    let other : Tree := .array [.number ⟨false, ['1'], [], some ⟨'e', none, ['9', '9', '9']⟩⟩]
    let name : Literal := .code '0' '0' '7' '6' :: plain "alue"
    let vs : Literal := [.code 'd' '8' '3' 'd', .code 'd' 'e' '0' '0', .short '/'] ++
      plain "Rome" ++ [.short 't']
    let t : Tree := .object
      [(plain "x", other), (name, .string vs), (plain "type", .string (plain "city"))]
    t.IsText text.toList ∧ Composite.Holds t "city" (.string vs) ∧
      vs.Denotes "😀/Rome\t".toList ∧
      (Spec.ofParams { Params.none with store := some text, pod := some "P1" }).levels =
        [⟨.storeCity, "😀/Rome"⟩] := by
  intro plain text other name vs t
  have hd (l : Literal) {cs : List Char} (h : l.text? = some cs) : l.Denotes cs :=
    Literal.denotes_of_text? h
  have hf (l : Literal) (h : l.all Piece.wellFormed = true) : l.WellFormed := List.all_eq_true.mp h
  have hgap (cs : List Char) (h : cs.all Tree.isGap = true) : Gap cs := List.all_eq_true.mp h
  have hn := hgap [] rfl
  have hb := hgap [' '] rfl
  have hother : Writes (.value other) _ := .array (.lastElement (.element hn (.number rfl) hn))
  have hfirst := Writes.member hn (hf (plain "x") (by decide +kernel)) hn (.element hn hother hn)
  have hvalue := Writes.member (hgap ['\n'] rfl) (hf name (by decide +kernel)) hn
    (.element hb (.string (hf vs (by decide +kernel))) hb)
  have htype := Writes.member hn (hf (plain "type") (by decide +kernel)) hn
    (.element hn (.string (hf (plain "city") (by decide +kernel))) hn)
  have ht : t.IsText text.toList := by
    have hw := Writes.element hn
      (.object (.moreMembers hfirst (.moreMembers hvalue (.lastMember htype)))) hn
    refine Eq.subst (motive := t.IsText) ?_ hw
    decide +kernel
  have hv : vs.Denotes "😀/Rome\t".toList := hd vs (by decide +kernel)
  have hothers : ∀ e ∈ [("x", other)], e.1 ≠ "type" ∧ e.1 ≠ "value" := by simp
  have hh : Composite.Holds t "city" (.string vs) :=
    .object (.cons ⟨hd (plain "x") (by decide +kernel), rfl⟩
      (.cons ⟨hd name (by decide +kernel), rfl⟩
        (.cons ⟨hd (plain "type") (by decide +kernel), rfl⟩ .nil)))
      (List.reverse_perm _).symm hothers (hd (plain "city") (by decide +kernel))
  refine ⟨ht, hh, hv, ?_⟩
  have hlevels := composite_filters_in_any_form (l := .storeCity)
    (p := { Params.none with store := some text, pod := some "P1" }) (by decide) ht hh hv rfl
    (fun h hn => by cases h <;> first | rfl | exact absurd rfl hn)
  exact hlevels.trans (by decide +kernel)

end Takings.Filter
