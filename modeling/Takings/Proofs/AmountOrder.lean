import Mathlib.Data.Prod.Lex
import Takings.Proofs.Rounding
import Takings.Proofs.Sorting
import Takings.Proofs.TextBytes

/-!
# The order of amounts

Entries of a report stand in the order of their amounts, from great to small, and those with equal
amounts in the order of their names. Amounts are compared as numbers, so infinite ones are equal,
and a zero with a sign is equal to one without. As long as all amounts are numbers, the comparison
is that of keys.
-/
namespace Takings

open Text Sorting

theorem Binary64.compare?_eq {x y : Binary64} (hx : x ≠ .nan) (hy : y ≠ .nan) :
    x.compare? y = some (compare x.rank y.rank) := by
  cases x with
  | nan => exact absurd rfl hx
  | number s a =>
    cases y with
    | nan => exact absurd rfl hy
    | number t b => rfl

theorem Binary64.rank_eq_rank_iff (x y : Binary64) : x.rank = y.rank ↔ x.toUnits = y.toUnits := by
  have hxy := rank_le_rank_iff x y
  have hyx := rank_le_rank_iff y x
  omega

namespace Report

section AmountOrder

variable {α : Type} (amount : α → Binary64) (name : α → String) {a b : α} {l : List α}

/-- Amounts from great to small, then names in ascending order. -/
def byAmount (a b : α) : Ordering :=
  (((amount b).compare? (amount a)).getD .eq).then (compare (name a) (name b))

/-- What entries are sorted by. -/
def amountKey (a : α) : ℤ ×ₗ String :=
  toLex (-(amount a).rank, name a)

/-- One entry has the greater amount, or an equal one and no greater name, byte by byte. -/
def Outranks (a b : α) : Prop :=
  (amount b).toUnits < (amount a).toUnits ∨
    (amount a).toUnits = (amount b).toUnits ∧
      Utf8.encode (name a).toList ≤ Utf8.encode (name b).toList

/-- Two entries have equal amounts and the same name. -/
def Ties (a b : α) : Prop :=
  (amount a).toUnits = (amount b).toUnits ∧ name a = name b

instance (a b : α) : Decidable (Outranks amount name a b) :=
  inferInstanceAs (Decidable (_ ∨ _))

instance (a b : α) : Decidable (Ties amount name a b) :=
  inferInstanceAs (Decidable (_ ∧ _))

theorem byAmount_eq (ha : amount a ≠ .nan) (hb : amount b ≠ .nan) :
    byAmount amount name a b =
      (compare (amount b).rank (amount a).rank).then (compare (name a) (name b)) := by
  rw [byAmount, Binary64.compare?_eq hb ha, Option.getD_some]

theorem isLE_byAmount (ha : amount a ≠ .nan) (hb : amount b ≠ .nan) :
    (byAmount amount name a b).isLE = decide (amountKey amount name a ≤ amountKey amount name b) := by
  have hname : (compare (name a) (name b)).isLE = true ↔ name a ≤ name b :=
    Std.LawfulBCmp.isLE_iff_le
  rw [byAmount_eq amount name ha hb, Bool.eq_iff_iff, decide_eq_true_iff, amountKey, amountKey,
    Prod.Lex.toLex_le_toLex]
  rcases lt_trichotomy (amount b).rank (amount a).rank with h | h | h
  · rw [compare_lt_iff_lt.mpr h]
    exact iff_of_true rfl (.inl (by omega))
  · rw [compare_eq_iff_eq.mpr h]
    simp [h, hname]
  · rw [compare_gt_iff_gt.mpr h]
    refine iff_of_false (by simp) ?_
    simp only
    omega

/-- Amounts that are numbers are never compared in vain. -/
theorem isPreorderOn_byAmount (h : ∀ a ∈ l, amount a ≠ .nan) :
    IsPreorderOn (byAmount amount name) l where
  swap a ha b hb := by
    rw [byAmount_eq amount name (h a ha) (h b hb), byAmount_eq amount name (h b hb) (h a ha),
      Ordering.swap_then, ← Std.OrientedCmp.eq_swap, ← Std.OrientedCmp.eq_swap]
  trans a ha b hb c hc hab hbc := by
    rw [isLE_byAmount amount name (h _ ‹_›) (h _ ‹_›), decide_eq_true_iff] at *
    exact hab.trans hbc

theorem amountKey_le_iff :
    amountKey amount name a ≤ amountKey amount name b ↔ Outranks amount name a b := by
  have hle := Binary64.rank_le_rank_iff (amount a) (amount b)
  have heq := Binary64.rank_eq_rank_iff (amount a) (amount b)
  have hkey : amountKey amount name a ≤ amountKey amount name b ↔
      (-(amount a).rank < -(amount b).rank ∨
        -(amount a).rank = -(amount b).rank ∧ name a ≤ name b) :=
    Prod.Lex.toLex_le_toLex
  rw [hkey, Outranks, Utf8.encode_toList_le_iff]
  exact or_congr (by omega) (and_congr_left fun _ => by omega)

theorem amountKey_eq_iff :
    amountKey amount name a = amountKey amount name b ↔ Ties amount name a b := by
  rw [amountKey, amountKey, toLex_inj, Prod.mk.injEq, Int.neg_inj, Binary64.rank_eq_rank_iff]
  rfl

/-- A list in the order of amounts, in which entries that tie stand as they stand in another one. -/
structure IsRanking (l ranked : List α) : Prop where
  perm : ranked.Perm l
  ordered : ranked.Pairwise (Outranks amount name)
  stable : ∀ a, ranked.filter (fun b => Ties amount name b a) = l.filter fun b => Ties amount name b a

theorem isRanking_sortBy (l : List α) :
    IsRanking amount name l (sortBy (amountKey amount name) l) where
  perm := perm_sortBy _ l
  ordered := (pairwise_sortBy (amountKey amount name) l).imp fun h =>
    (amountKey_le_iff amount name).mp h
  stable a := by
    have hties : (fun b => decide (amountKey amount name b = amountKey amount name a)) =
        fun b => decide (Ties amount name b a) := by
      funext b
      exact decide_eq_decide.mpr (amountKey_eq_iff amount name)
    rw [← hties]
    exact filter_sortBy _ l _

theorem nodup_amountKey (h : (l.map name).Nodup) : (l.map (amountKey amount name)).Nodup := by
  have hl : l.map name = (l.map (amountKey amount name)).map fun k => (ofLex k).2 := by
    rw [List.map_map]
    rfl
  rw [hl] at h
  exact h.of_map

variable {amount name} in
/-- If no two entries have one name, there is only one order. -/
theorem IsRanking.eq_of_ordered {ranked l' : List α} (h : IsRanking amount name l ranked)
    (hn : (l.map name).Nodup) (hp : l'.Perm l) (ho : l'.Pairwise (Outranks amount name)) :
    ranked = l' := by
  have hkeys := nodup_amountKey amount name hn
  rw [eq_sortBy hkeys h.perm (h.ordered.imp (amountKey_le_iff amount name).mpr),
    eq_sortBy hkeys hp (ho.imp (amountKey_le_iff amount name).mpr)]

end AmountOrder

end Report

end Takings
