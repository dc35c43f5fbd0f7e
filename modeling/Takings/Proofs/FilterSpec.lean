import Takings.Filter.Spec

/-!
# What a specification is made of

Request parameters are added to a specification one after the other, each put in its place. Since
they come in the order of the places, the scalar filters are just the active parameters in that
order.
-/
namespace Takings.Filter

/-- The scalar filter that request parameters hold, with the value it compares with. -/
def Params.entry? (p : Params) (f : Scalar) : Option (Scalar × String) :=
  ((p.scalar f).bind active?).map fun v => (f, v)

theorem Params.fst_of_mem_entry? {p : Params} {f : Scalar} {e : Scalar × String}
    (h : e ∈ p.entry? f) : e.1 = f := by
  obtain ⟨v, -, rfl⟩ := Option.map_eq_some_iff.mp h
  rfl

theorem Scalar.pairwise_rank : Scalar.all.Pairwise fun f g => f.rank < g.rank := by
  decide

namespace Spec

/-- Scalar filters in their order, each with one value. -/
def InOrder (l : List (Scalar × String)) : Prop :=
  l.Pairwise fun e e' => e.1.rank < e'.1.rank

/-- A filter that comes after all others is put at the end, where the sorting leaves it. -/
theorem putScalar_of_rank_lt {f : Scalar} {value : String} {l : List (Scalar × String)}
    (hl : InOrder l) (h : ∀ e ∈ l, e.1.rank < f.rank) :
    putScalar f value l = l ++ [(f, value)] := by
  have hkept : (l.filter fun e => e.1 ≠ f) = l := by
    refine List.filter_eq_self.mpr fun e he => decide_eq_true ?_
    rintro rfl
    exact Nat.lt_irrefl _ (h e he)
  rw [putScalar, hkept]
  refine List.mergeSort_of_pairwise (List.pairwise_append.mpr ⟨?_, List.pairwise_singleton _ _, ?_⟩)
  · exact hl.imp fun hab => decide_eq_true (Nat.le_of_lt hab)
  · intro e he e' he'
    rw [List.mem_singleton.mp he']
    exact decide_eq_true (Nat.le_of_lt (h e he))

theorem scalars_withScalar? {s : Spec} {f : Scalar} (p : Params) (hs : InOrder s.scalars)
    (h : ∀ e ∈ s.scalars, e.1.rank < f.rank) :
    (s.withScalar? f (p.scalar f)).scalars = s.scalars ++ (p.entry? f).toList := by
  cases hv : p.scalar f with
  | none => simp [withScalar?, Params.entry?, hv]
  | some value =>
    cases ha : active? value with
    | none => simp [withScalar?, withScalar, Params.entry?, hv, ha]
    | some v => simp [withScalar?, withScalar, Params.entry?, hv, ha, putScalar_of_rank_lt hs h]

theorem inOrder_append_entry? {l : List (Scalar × String)} {f : Scalar} (p : Params)
    (hl : InOrder l) (h : ∀ e ∈ l, e.1.rank < f.rank) : InOrder (l ++ (p.entry? f).toList) := by
  refine List.pairwise_append.mpr ⟨hl, ?_, fun e he e' he' => ?_⟩
  · cases p.entry? f with
    | none => exact List.Pairwise.nil
    | some e => exact List.pairwise_singleton _ _
  · rw [Params.fst_of_mem_entry? (Option.mem_toList.mp he')]
    exact h e he

/-- The fold over filters in the order of their places only ever adds at the end. -/
theorem scalars_foldl (p : Params) {fs : List Scalar} (s : Spec) (ho : InOrder s.scalars)
    (hs : ∀ e ∈ s.scalars, ∀ f ∈ fs, e.1.rank < f.rank)
    (hp : fs.Pairwise fun f g => f.rank < g.rank) :
    (fs.foldl (fun s f => s.withScalar? f (p.scalar f)) s).scalars =
      s.scalars ++ fs.filterMap p.entry? := by
  induction fs generalizing s with
  | nil => simp
  | cons f fs ih =>
    have hlast (e) (he : e ∈ s.scalars) : e.1.rank < f.rank := hs e he f List.mem_cons_self
    have hf := scalars_withScalar? p ho hlast
    obtain ⟨hlt, hp⟩ := List.pairwise_cons.mp hp
    have hs' : ∀ e ∈ (s.withScalar? f (p.scalar f)).scalars, ∀ g ∈ fs, e.1.rank < g.rank := by
      intro e he g hg
      rw [hf, List.mem_append, Option.mem_toList] at he
      rcases he with he | he
      · exact hs e he g (List.mem_cons_of_mem f hg)
      · rw [Params.fst_of_mem_entry? he]
        exact hlt g hg
    have ho' : InOrder (s.withScalar? f (p.scalar f)).scalars := by
      rw [hf]
      exact inOrder_append_entry? p ho hlast
    rw [List.foldl_cons, ih _ ho' hs' hp, hf, List.append_assoc]
    congr 1
    cases he : p.entry? f <;> simp [he]

theorem scalars_ofParams (p : Params) :
    (ofParams p).scalars = Scalar.all.filterMap p.entry? := by
  rw [ofParams, scalars_foldl p empty List.Pairwise.nil (fun e he => by cases he)
    Scalar.pairwise_rank]
  rfl

theorem levels_ofParams (p : Params) :
    (ofParams p).levels = [Hierarchy.store, .product].filterMap fun h =>
      (p.composite h).bind (Composite.filter? h) :=
  rfl

/-- A request with just one composite filter. -/
theorem levels_of_composite {p : Params} {h : Hierarchy} {text : String}
    (hp : p.composite h = some text) (ho : ∀ k ≠ h, p.composite k = none) :
    (ofParams p).levels = (Composite.filter? h text).toList := by
  rw [levels_ofParams]
  cases h with
  | store =>
    have hproduct := ho .product (by decide)
    cases hf : Composite.filter? .store text <;> simp [hp, hproduct, hf]
  | product =>
    have hstore := ho .store (by decide)
    cases hf : Composite.filter? .product text <;> simp [hp, hstore, hf]

theorem length_scalars_ofParams (p : Params) : (ofParams p).scalars.length ≤ 8 := by
  rw [scalars_ofParams]
  exact List.length_filterMap_le _ _

theorem length_levels_ofParams (p : Params) : (ofParams p).levels.length ≤ 2 := by
  rw [levels_ofParams]
  exact List.length_filterMap_le _ _

end Spec

end Takings.Filter
