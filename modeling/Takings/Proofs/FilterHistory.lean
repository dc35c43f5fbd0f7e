import Mathlib.Data.List.Induction
import Takings.Proofs.CanonicalPredicate
import Takings.Proofs.Sorting

/-!
# Histories of specifications

What a specification holds after any number of changes can be read off the changes themselves. Of
the settings of a scalar filter the last one counts, unless its axis was dropped since; every
filter on a level counts whose axis was not dropped after it was added.
-/
namespace Takings.Filter

/-- A value as filters keep it: not empty, without white space around it, and not the word `all` in
letters of any case. -/
def Plain (v : String) : Prop :=
  v ≠ "" ∧ Text.trim v = v ∧ v.toList.map Char.toLower ≠ ['a', 'l', 'l']

theorem Selective.plain_trim {value : String} (h : Selective value) : Plain (Text.trim value) :=
  ⟨h.1, Text.trim_trim value, h.2⟩

theorem Scalar.rank_eq_idxOf (f : Scalar) : f.rank = Scalar.all.idxOf f := by
  cases f <;> rfl

/-- What can be done to a specification. -/
inductive Change where
  | scalar (f : Scalar) (value : String)
  | level (l : Level) (value : String)
  | without (a : Axis)
  deriving DecidableEq, Repr

namespace Change

/-- The change gives a scalar filter a value. -/
def Sets (c : Change) (f : Scalar) (v : String) : Prop :=
  ∃ value, c = .scalar f value ∧ Selective value ∧ Text.trim value = v

/-- The change does away with the value that a scalar filter has. -/
def Ends (c : Change) (f : Scalar) : Prop :=
  c = .without f.axis ∨ ∃ v, c.Sets f v

/-- The filter on a level that a change adds, with the changes after it, if it is still there in
the end. -/
def lasting? : Change → List Change → Option LevelFilter
  | level l value, later =>
    if Selective value ∧ .without l.axis ∉ later then some ⟨l, Text.trim value⟩ else none
  | _, _ => none

/-- The filters on levels that changes leave, in the order in which they were added. -/
def lasting : List Change → List LevelFilter
  | [] => []
  | c :: later => (c.lasting? later).toList ++ lasting later

end Change

namespace Spec

def change (s : Spec) : Change → Spec
  | .scalar f value => s.withScalar f value
  | .level l value => s.withLevel l value
  | .without a => s.without a

/-- The specification after changes to the empty one, from first to last. -/
def ofChanges (cs : List Change) : Spec :=
  cs.foldl change empty

theorem ofChanges_concat (cs : List Change) (c : Change) :
    ofChanges (cs ++ [c]) = (ofChanges cs).change c := by
  simp [ofChanges]

/-! ### One change -/

theorem rank_injective {f g : Scalar} (h : f.rank = g.rank) : f = g := by
  cases f <;> cases g <;> first | rfl | cases h

theorem mem_putScalar {f : Scalar} {v : String} {l : List (Scalar × String)}
    (e : Scalar × String) : e ∈ putScalar f v l ↔ e = (f, v) ∨ e ∈ l ∧ e.1 ≠ f := by
  simp [putScalar, or_comm]

theorem inOrder_putScalar {f : Scalar} {v : String} {l : List (Scalar × String)}
    (h : InOrder l) : InOrder (putScalar f v l) := by
  have hsorted : (putScalar f v l).Pairwise fun a b => a.1.rank ≤ b.1.rank :=
    Sorting.pairwise_sortBy (fun e : Scalar × String => e.1.rank) _
  have happended : ((l.filter fun e => e.1 ≠ f) ++ [(f, v)]).Pairwise
      fun a b => a.1.rank ≠ b.1.rank := by
    refine List.pairwise_append.mpr ⟨(h.filter _).imp Nat.ne_of_lt, List.pairwise_singleton _ _, ?_⟩
    intro e he e' he'
    rw [List.mem_singleton.mp he']
    exact fun hr => of_decide_eq_true (List.mem_filter.mp he).2 (rank_injective hr)
  have hapart : (putScalar f v l).Pairwise fun a b => a.1.rank ≠ b.1.rank :=
    happended.perm (List.mergeSort_perm _ _).symm Ne.symm
  exact hsorted.imp₂ (fun _ _ => Nat.lt_of_le_of_ne) hapart

theorem inOrder_change {s : Spec} (h : InOrder s.scalars) (c : Change) :
    InOrder (s.change c).scalars := by
  cases c with
  | scalar f value =>
    rw [change, withScalar, active?_eq]
    by_cases hs : Selective value
    · simpa [hs] using inOrder_putScalar h
    · simpa [hs] using h
  | level l value =>
    rw [change, withLevel, active?_eq]
    by_cases hs : Selective value <;> simpa [hs] using h
  | without a => exact h.filter _

/-- A scalar filter has the value that a change gives it, else the one it had. -/
theorem mem_scalars_change (s : Spec) (c : Change) (f : Scalar) (v : String) :
    (f, v) ∈ (s.change c).scalars ↔ c.Sets f v ∨ (f, v) ∈ s.scalars ∧ ¬ c.Ends f := by
  cases c with
  | scalar g value =>
    rw [change, withScalar, active?_eq]
    by_cases hs : Selective value
    · simp [hs, mem_putScalar, Change.Sets, Change.Ends, eq_comm]
    · simp [hs, Change.Sets, Change.Ends]
  | level l value =>
    rw [change, withLevel, active?_eq]
    by_cases hs : Selective value <;> simp [hs, Change.Sets, Change.Ends]
  | without a => simp [change, without, Change.Sets, Change.Ends, @eq_comm _ a]

theorem levels_change (s : Spec) (c : Change) :
    (s.change c).levels = (s.levels.filter fun l => c ≠ .without l.level.axis) ++
      (c.lasting? []).toList := by
  have hkept (h : ∀ a, c ≠ .without a) :
      (s.levels.filter fun l => c ≠ .without l.level.axis) = s.levels :=
    List.filter_eq_self.mpr fun l _ => decide_eq_true (h l.level.axis)
  cases c with
  | scalar f value =>
    rw [hkept (by simp), change, withScalar]
    cases active? value <;> simp [Change.lasting?]
  | level l value =>
    rw [hkept (by simp), change, withLevel, active?_eq]
    by_cases hs : Selective value <;> simp [hs, Change.lasting?]
  | without a => simp [change, without, Change.lasting?, @eq_comm _ a]

/-! ### All changes -/

theorem inOrder_ofChanges (cs : List Change) : InOrder (ofChanges cs).scalars := by
  induction cs using List.reverseRecOn with
  | nil => exact List.Pairwise.nil
  | append_singleton cs c ih =>
    rw [ofChanges_concat]
    exact inOrder_change ih c

/-- A scalar filter has the value of the change that set it last, if nothing has ended that. -/
theorem mem_scalars_ofChanges (cs : List Change) (f : Scalar) (v : String) :
    (f, v) ∈ (ofChanges cs).scalars ↔
      ∃ before c after, cs = before ++ c :: after ∧ c.Sets f v ∧ ∀ d ∈ after, ¬ d.Ends f := by
  induction cs using List.reverseRecOn with
  | nil => simp [ofChanges, empty]
  | append_singleton cs d ih =>
    rw [ofChanges_concat, mem_scalars_change, ih]
    constructor
    · rintro (hs | ⟨⟨before, c, after, rfl, hs, ha⟩, hd⟩)
      · exact ⟨cs, d, [], rfl, hs, by simp⟩
      · refine ⟨before, c, after ++ [d], by simp, hs, ?_⟩
        simpa [or_imp, forall_and] using ⟨ha, hd⟩
    · rintro ⟨before, c, after, he, hs, ha⟩
      -- Either the setting is the last change itself, or that one comes after it.
      rcases List.eq_nil_or_concat after with rfl | ⟨after, d', rfl⟩
      · obtain ⟨-, he⟩ := List.append_inj' he rfl
        cases he
        exact .inl hs
      · rw [List.concat_eq_append] at he ha
        rw [← List.cons_append, ← List.append_assoc] at he
        obtain ⟨rfl, hd⟩ := List.append_inj' he rfl
        cases hd
        exact .inr ⟨⟨before, c, after, rfl, hs, fun x hx => ha x (by simp [hx])⟩,
          ha d (by simp)⟩

theorem lasting_append (cs : List Change) (c : Change) :
    Change.lasting (cs ++ [c]) =
      ((Change.lasting cs).filter fun l => c ≠ .without l.level.axis) ++ (c.lasting? []).toList := by
  induction cs with
  | nil => simp [Change.lasting]
  | cons d cs ih =>
    have hd : (d.lasting? (cs ++ [c])).toList =
        (d.lasting? cs).toList.filter fun l => c ≠ .without l.level.axis := by
      cases d with
      | scalar f value => rfl
      | without a => rfl
      | level l value =>
        by_cases hs : Selective value <;> by_cases hw : Change.without l.axis ∈ cs <;>
          by_cases hc : c = .without l.axis <;>
            simp [Change.lasting?, hs, hw, hc, @eq_comm _ _ c]
    rw [List.cons_append, Change.lasting, ih, hd, Change.lasting, List.filter_append,
      List.append_assoc]

theorem levels_ofChanges (cs : List Change) : (ofChanges cs).levels = Change.lasting cs := by
  induction cs using List.reverseRecOn with
  | nil => rfl
  | append_singleton cs c ih =>
    rw [ofChanges_concat, levels_change, ih, lasting_append]

/-! ### What a specification holds -/

theorem withScalar_of_not_selective (s : Spec) (f : Scalar) {value : String}
    (h : ¬ Selective value) : s.withScalar f value = s := by
  simp [withScalar, active?_eq, h]

theorem withLevel_of_not_selective (s : Spec) (l : Level) {value : String}
    (h : ¬ Selective value) : s.withLevel l value = s := by
  simp [withLevel, active?_eq, h]

/-- A scalar filter that was set has some value as long as its axis is not dropped. -/
theorem exists_mem_scalars {f : Scalar} {value : String} (hs : Selective value)
    (before : List Change) {after : List Change} (ha : .without f.axis ∉ after) :
    ∃ v, (f, v) ∈ (ofChanges (before ++ .scalar f value :: after)).scalars := by
  induction after using List.reverseRecOn with
  | nil =>
    refine ⟨Text.trim value, ?_⟩
    rw [ofChanges_concat, mem_scalars_change]
    exact .inl ⟨value, rfl, hs, rfl⟩
  | append_singleton after d ih =>
    rw [List.mem_append, List.mem_singleton, not_or] at ha
    rw [← List.cons_append, ← List.append_assoc, ofChanges_concat]
    simp only [mem_scalars_change]
    by_cases hd : ∃ v, d.Sets f v
    · exact hd.imp fun v hv => .inl hv
    · have hends : ¬ d.Ends f := fun h => h.elim (fun hw => ha.2 hw.symm) hd
      exact (ih ha.1).imp fun v hv => .inr ⟨hv, hends⟩

theorem plain_of_mem_scalars {cs : List Change} {e : Scalar × String}
    (h : e ∈ (ofChanges cs).scalars) : Plain e.2 := by
  obtain ⟨_, _, _, _, ⟨_, _, hs, hv⟩, _⟩ := (mem_scalars_ofChanges cs e.1 e.2).mp h
  exact hv ▸ hs.plain_trim

theorem plain_of_mem_lasting {cs : List Change} {l : LevelFilter} (h : l ∈ Change.lasting cs) :
    Plain l.value := by
  induction cs with
  | nil => simp [Change.lasting] at h
  | cons c cs ih =>
    rw [Change.lasting, List.mem_append, Option.mem_toList] at h
    rcases h with h | h
    · cases c with
      | level k value =>
        rw [Change.lasting?] at h
        split at h
        · rename_i hs
          cases h
          exact hs.1.plain_trim
        · cases h
      | scalar f value => cases h
      | without a => cases h
    · exact ih h

end Spec

/-- A specification is what its history makes of a map. The scalar filters stand in their order;
each has the value of the last setting that selects something, if its axis was not dropped since.
The filters on levels are those that no later change dropped, as they were added. No value is
blank, padded or the word for everything. -/
theorem spec_follows_history (cs : List Change) :
    let s := Spec.ofChanges cs
    (s.scalars.map Prod.fst).Pairwise
        (fun f g => Scalar.all.idxOf f < Scalar.all.idxOf g) ∧
      (∀ f, (∃ v, (f, v) ∈ s.scalars) ↔
        ∃ before value after, cs = before ++ .scalar f value :: after ∧ Selective value ∧
          .without f.axis ∉ after) ∧
      (∀ f v, (f, v) ∈ s.scalars ↔
        ∃ before value after, cs = before ++ .scalar f value :: after ∧ Selective value ∧
          .without f.axis ∉ after ∧ (∀ w, .scalar f w ∈ after → ¬ Selective w) ∧
          v = Text.trim value) ∧
      (∀ value, ¬ Selective value →
        (∀ f, s.withScalar f value = s) ∧ ∀ l, s.withLevel l value = s) ∧
      s.levels = Change.lasting cs ∧
      ∀ v, v ∈ s.scalars.map Prod.snd ∨ v ∈ s.levels.map LevelFilter.value →
        v ≠ "" ∧ Text.trim v = v ∧ v.toList.map Char.toLower ≠ ['a', 'l', 'l'] := by
  intro s
  have hlevels : s.levels = Change.lasting cs := Spec.levels_ofChanges cs
  have hmem (f : Scalar) (v : String) : (f, v) ∈ s.scalars ↔
      ∃ before value after, cs = before ++ .scalar f value :: after ∧ Selective value ∧
        .without f.axis ∉ after ∧ (∀ w, .scalar f w ∈ after → ¬ Selective w) ∧
        v = Text.trim value := by
    rw [Spec.mem_scalars_ofChanges]
    constructor
    · rintro ⟨before, _, after, he, ⟨value, rfl, hs, rfl⟩, ha⟩
      exact ⟨before, value, after, he, hs, fun hw => ha _ hw (.inl rfl),
        fun w hw hsw => ha _ hw (.inr ⟨_, w, rfl, hsw, rfl⟩), rfl⟩
    · rintro ⟨before, value, after, he, hs, hd, hl, rfl⟩
      refine ⟨before, _, after, he, ⟨value, rfl, hs, rfl⟩, ?_⟩
      rintro d hmem (rfl | ⟨_, w, rfl, hw, -⟩)
      · exact hd hmem
      · exact hl w hmem hw
  refine ⟨?_, ?_, hmem, ?_, hlevels, ?_⟩
  · rw [List.pairwise_map]
    refine (Spec.inOrder_ofChanges cs).imp ?_
    intro e e' h
    rwa [← Scalar.rank_eq_idxOf, ← Scalar.rank_eq_idxOf]
  · intro f
    constructor
    · rintro ⟨v, hv⟩
      obtain ⟨before, value, after, he, hs, hd, -⟩ := (hmem f v).mp hv
      exact ⟨before, value, after, he, hs, hd⟩
    · rintro ⟨before, value, after, he, hs, hd⟩
      have hv := Spec.exists_mem_scalars hs before hd
      rwa [← he] at hv
  · intro value h
    exact ⟨fun f => s.withScalar_of_not_selective f h, fun l => s.withLevel_of_not_selective l h⟩
  · rintro v (hv | hv)
    · obtain ⟨e, he, rfl⟩ := List.mem_map.mp hv
      exact Spec.plain_of_mem_scalars he
    · obtain ⟨l, hl, rfl⟩ := List.mem_map.mp hv
      exact Spec.plain_of_mem_lasting (hlevels ▸ hl)

/-- A pod that is set again and not unset by the word for everything, a machine that is dropped
with its axis, and a city that is dropped while a later state stays. -/
theorem history_of_pod_and_state :
    let cs : List Change :=
      [.scalar .pod "A", .level .storeCity "Austin", .scalar .machine "M1", .scalar .pod " B ",
        .without .store, .scalar .pod "ALL", .level .storeState "TX", .without .machine]
    let s := Spec.ofChanges cs
    s = ⟨[(.pod, "B")], [⟨.storeState, "TX"⟩]⟩ ∧
      (∃ v, (Scalar.pod, v) ∈ s.scalars) ∧ (Scalar.pod, "B") ∈ s.scalars ∧
      s.withScalar .pod "ALL" = s ∧ s.levels = [⟨.storeState, "TX"⟩] ∧
      "B" ∈ s.scalars.map Prod.snd ∧ Text.trim "B" = "B" := by
  intro cs s
  obtain ⟨-, hset, hlast, hidle, hlevels, hplain⟩ := spec_follows_history cs
  have hput {f : Scalar} {v : String} {l l' : List (Scalar × String)}
      (hn : (((l.filter fun e => e.1 ≠ f) ++ [(f, v)]).map fun e => e.1.rank).Nodup)
      (hp : l'.Perm ((l.filter fun e => e.1 ≠ f) ++ [(f, v)]))
      (ho : l'.Pairwise fun a b => a.1.rank ≤ b.1.rank) : Spec.putScalar f v l = l' :=
    (Sorting.eq_sortBy hn hp ho).symm
  have hpod : Spec.putScalar .pod "A" [] = [(.pod, "A")] :=
    hput (by decide) (by decide) (by decide)
  have hmachine : Spec.putScalar .machine "M1" [(.pod, "A")] = [(.machine, "M1"), (.pod, "A")] :=
    hput (by decide) (by decide) (by decide)
  have hagain : Spec.putScalar .pod "B" [(.machine, "M1"), (.pod, "A")] =
      [(.machine, "M1"), (.pod, "B")] :=
    hput (by decide) (by decide) (by decide)
  have hs : s = ⟨[(.pod, "B")], [⟨.storeState, "TX"⟩]⟩ := by
    have hsteps : s = Spec.without ⟨(Spec.putScalar .pod "B" (Spec.putScalar .machine "M1"
      (Spec.putScalar .pod "A" []))).filter fun e => e.1.axis ≠ .store,
        [⟨.storeState, "TX"⟩]⟩ .machine := rfl
    rw [hsteps, hpod, hmachine, hagain]
    rfl
  have hb : "B" ∈ s.scalars.map Prod.snd := by
    rw [hs]
    decide
  refine ⟨hs, (hset .pod).mpr ⟨[], "A", cs.drop 1, rfl, by decide, by decide⟩, ?_, ?_, ?_, hb, ?_⟩
  · refine (hlast .pod "B").mpr ⟨cs.take 3, " B ", cs.drop 4, rfl, by decide, by decide, ?_,
      by decide⟩
    intro w hw
    simp only [cs, List.drop, List.mem_cons, List.not_mem_nil, reduceCtorEq, false_or, or_false,
      Change.scalar.injEq, true_and] at hw
    subst hw
    decide
  · exact (hidle "ALL" (by decide)).1 .pod
  · exact hlevels.trans (by decide)
  · exact (hplain "B" (.inl hb)).2.1

end Takings.Filter
