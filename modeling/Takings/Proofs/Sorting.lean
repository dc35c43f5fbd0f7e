import Mathlib.Data.List.Nodup
import Mathlib.Order.Lattice

/-!
# Sorting by keys

Lists in ascending order of keys. If no two members have the same key, the order of a list does not
matter, and the first members of a sorted list are those of a part when no key outside is less.
-/
namespace Takings.Sorting

variable {α κ : Type} [LinearOrder κ] {key : α → κ} {l l' kept rest : List α}

/-- The members in ascending order of their keys. -/
def sortBy (key : α → κ) (l : List α) : List α :=
  l.mergeSort fun a b => key a ≤ key b

theorem decide_trans {a b c : α} (hab : decide (key a ≤ key b) = true)
    (hbc : decide (key b ≤ key c) = true) : decide (key a ≤ key c) = true :=
  decide_eq_true ((of_decide_eq_true hab).trans (of_decide_eq_true hbc))

theorem decide_total (a b : α) : (decide (key a ≤ key b) || decide (key b ≤ key a)) = true := by
  simpa using le_total (key a) (key b)

theorem perm_sortBy (key : α → κ) (l : List α) : (sortBy key l).Perm l :=
  List.mergeSort_perm l _

theorem length_sortBy (key : α → κ) (l : List α) : (sortBy key l).length = l.length :=
  (perm_sortBy key l).length_eq

theorem pairwise_sortBy (key : α → κ) (l : List α) :
    (sortBy key l).Pairwise fun a b => key a ≤ key b :=
  (List.pairwise_mergeSort (fun _ _ _ => decide_trans) decide_total l).imp fun hab =>
    of_decide_eq_true hab

/-- Members that are in ascending order keep their places to each other. -/
theorem sublist_sortBy (h : l'.Sublist l) (hs : l'.Pairwise fun a b => key a ≤ key b) :
    l'.Sublist (sortBy key l) :=
  List.sublist_mergeSort (fun _ _ _ => decide_trans) decide_total
    (hs.imp fun hab => decide_eq_true hab) h

/-- Members of one key keep their places to each other. -/
theorem filter_sortBy (key : α → κ) (l : List α) (k : κ) :
    (sortBy key l).filter (fun a => key a = k) = l.filter fun a => key a = k := by
  have hs : (l.filter fun a => key a = k).Pairwise fun a b => key a ≤ key b := by
    refine List.pairwise_of_forall_mem_list ?_
    intro a ha b hb
    have hka : key a = k := of_decide_eq_true (List.mem_filter.mp ha).2
    have hkb : key b = k := of_decide_eq_true (List.mem_filter.mp hb).2
    rw [hka, hkb]
  have hsub := (sublist_sortBy List.filter_sublist hs).filter fun a => decide (key a = k)
  rw [List.filter_filter] at hsub
  simp only [Bool.and_self] at hsub
  exact (hsub.eq_of_length ((perm_sortBy key l).filter _).length_eq.symm).symm

/-- An order that is that of keys on the members of a list sorts it by them. -/
theorem mergeSort_eq_sortBy {le : α → α → Bool}
    (h : ∀ a ∈ l, ∀ b ∈ l, le a b = decide (key a ≤ key b)) : l.mergeSort le = sortBy key l := by
  have hm := List.map_mergeSort (f := id) (s := fun a b => decide (key a ≤ key b)) h
  rw [sortBy]
  simpa only [List.map_id] using hm

/-- A sorted list is determined by its members. -/
theorem eq_sortBy (hn : (l.map key).Nodup) (hp : l'.Perm l)
    (hs : l'.Pairwise fun a b => key a ≤ key b) : l' = sortBy key l := by
  refine List.Perm.eq_of_pairwise ?_ hs (pairwise_sortBy key l) (hp.trans (perm_sortBy key l).symm)
  intro a b ha hb hab hba
  exact List.inj_on_of_nodup_map hn (hp.mem_iff.mp ha) ((perm_sortBy key l).mem_iff.mp hb)
    (le_antisymm hab hba)

theorem sortBy_eq_of_perm (hn : (l.map key).Nodup) (hp : l'.Perm l) :
    sortBy key l' = sortBy key l :=
  eq_sortBy hn ((perm_sortBy key l').trans hp) (pairwise_sortBy key l')

/-- The first members of a sorted list are those of a part of it exactly if no key of the rest is
less than one of that part. -/
theorem take_sortBy_append_iff (hn : ((kept ++ rest).map key).Nodup) :
    (sortBy key (kept ++ rest)).take kept.length = sortBy key kept ↔
      ∀ a ∈ kept, ∀ b ∈ rest, key a ≤ key b := by
  constructor
  · intro htake a ha b hb
    have hsorted := pairwise_sortBy key (kept ++ rest)
    rw [← List.take_append_drop kept.length (sortBy key (kept ++ rest)), htake,
      List.pairwise_append] at hsorted
    have hperm := perm_sortBy key (kept ++ rest)
    rw [← List.take_append_drop kept.length (sortBy key (kept ++ rest)), htake] at hperm
    have hdrop : ((sortBy key (kept ++ rest)).drop kept.length).Perm rest :=
      (List.perm_append_left_iff kept).mp
        (((perm_sortBy key kept).symm.append_right _).trans hperm)
    exact hsorted.2.2 a ((perm_sortBy key kept).mem_iff.mpr ha) b (hdrop.mem_iff.mpr hb)
  · intro h
    have happend : sortBy key kept ++ sortBy key rest = sortBy key (kept ++ rest) := by
      refine eq_sortBy hn ((perm_sortBy key kept).append (perm_sortBy key rest)) ?_
      refine List.pairwise_append.mpr ⟨pairwise_sortBy key kept, pairwise_sortBy key rest, ?_⟩
      intro a ha b hb
      exact h a ((perm_sortBy key kept).mem_iff.mp ha) b ((perm_sortBy key rest).mem_iff.mp hb)
    rw [← happend, ← length_sortBy key kept, List.take_left]

/-- A comparison that orders the members of a list totally, equal ones aside. -/
structure IsPreorderOn (cmp : α → α → Ordering) (l : List α) : Prop where
  swap : ∀ a ∈ l, ∀ b ∈ l, cmp b a = (cmp a b).swap
  trans : ∀ a ∈ l, ∀ b ∈ l, ∀ c ∈ l, (cmp a b).isLE = true → (cmp b c).isLE = true →
    (cmp a c).isLE = true

end Takings.Sorting
