import Takings.Proofs.BreakdownOrder
import Takings.Proofs.ObjectMembers

/-!
# Limits of breakdowns

A query with a limit puts its rows in order by their exact totals, a breakdown by the cents of
them. So the limit of a query can keep other rows than the breakdown of all rows would: those whose
totals differ, but not in cents, are told apart by the query and not by the breakdown.
-/
namespace Takings

open Text Sorting

namespace Report

/-! ### The order of a query -/

namespace BreakdownRow

/-- The total of a row, in units. -/
def total (r : BreakdownRow) : Binary64 :=
  r.totalSales.getD .zero

/-- The label of a row in bytes. -/
def labelBytes (r : BreakdownRow) : List UInt8 :=
  Utf8.encode (r.label.getD unknownLabel).toList

/-- A query asks for the greater total first, and of equal totals for the lesser label. -/
def Precedes (a b : BreakdownRow) : Prop :=
  b.total.toUnits < a.total.toUnits ∨
    a.total.toUnits = b.total.toUnits ∧ a.labelBytes < b.labelBytes

instance (a b : BreakdownRow) : Decidable (Precedes a b) :=
  inferInstanceAs (Decidable (_ ∨ _))

/-- Rows with a label of its own and a finite total each. -/
structure IsSpread (rows : List BreakdownRow) : Prop where
  labelled : ∀ r ∈ rows, r.label.isSome = true
  distinct : (rows.map label).Nodup
  finite : ∀ r ∈ rows, r.totalSales.any Binary64.isFinite = true

end BreakdownRow

/-! ### Shares that look alike -/

namespace Share

theorem member?_label (s : Share) : s.toJson.member? "label" = some (.str s.label) := by
  rw [toJson, Json.member?_object]
  rfl

/-- Shares that look alike are the same, if no two of them have one label. -/
theorem eq_of_map_toJson_eq {all l l' : List Share} (hn : (all.map label).Nodup)
    (hl : ∀ s ∈ l, s ∈ all) (hl' : ∀ s ∈ l', s ∈ all) (h : l.map toJson = l'.map toJson) :
    l = l' := by
  induction l generalizing l' with
  | nil => exact (List.map_eq_nil_iff.mp h.symm).symm
  | cons a l ih =>
    cases l' with
    | nil => cases h
    | cons b l' =>
      rw [List.forall_mem_cons] at hl hl'
      obtain ⟨hhead, htail⟩ := List.cons.inj h
      have hlabel : a.label = b.label := by
        have hm := congrArg (Json.member? "label") hhead
        rw [member?_label, member?_label] at hm
        exact Json.str.inj (Option.some.inj hm)
      rw [List.inj_on_of_nodup_map hn hl.1 hl'.1 hlabel, ih hl.2 hl'.2 htail]

end Share

section Limit

open BreakdownRow

variable {rows all : List BreakdownRow} {a b : BreakdownRow}

namespace BreakdownRow.IsSpread

theorem isFinite_total (hs : IsSpread rows) (ha : a ∈ rows) : a.total.isFinite = true := by
  have hf := hs.finite a ha
  rw [total]
  cases hx : a.totalSales with
  | none => rw [hx] at hf; cases hf
  | some x => rw [hx] at hf; exact hf

theorem ne_nan (hs : IsSpread rows) : ∀ s ∈ rows.map Share.ofRow, s.totalSales ≠ .nan := by
  intro s hm
  obtain ⟨r, hr, rfl⟩ := List.mem_map.mp hm
  exact cents_ne_nan (hs.isFinite_total hr)

theorem nodup_label (hs : IsSpread rows) : ((rows.map Share.ofRow).map Share.label).Nodup := by
  rw [List.map_map]
  refine List.Nodup.map_on ?_ hs.distinct.of_map
  intro a ha b hb h
  refine List.inj_on_of_nodup_map hs.distinct ha hb ?_
  obtain ⟨la, hla⟩ := Option.isSome_iff_exists.mp (hs.labelled a ha)
  obtain ⟨lb, hlb⟩ := Option.isSome_iff_exists.mp (hs.labelled b hb)
  have hl : a.label.getD unknownLabel = b.label.getD unknownLabel := h
  rw [hla, hlb] at hl ⊢
  exact congrArg some hl

end BreakdownRow.IsSpread

theorem labelBytes_lt_iff :
    a.labelBytes < b.labelBytes ↔ (Share.ofRow a).label < (Share.ofRow b).label := by
  rw [labelBytes, labelBytes, Utf8.encode_toList_lt_iff]
  rfl

/-- The breakdown keeps the order of the query, save among rows that show the same total. -/
theorem key_le_key_iff (ha : a.total.isFinite = true) (hb : b.total.isFinite = true)
    (h : a.Precedes b) (hne : (Share.ofRow a).label ≠ (Share.ofRow b).label) :
    (Share.ofRow a).key ≤ (Share.ofRow b).key ↔
      ((cents a.total).compare? (cents b.total) = some .eq → a.labelBytes < b.labelBytes) := by
  have hle : (cents b.total).rank ≤ (cents a.total).rank := by
    refine rank_cents_le hb ha ?_
    rcases h with h | h <;> omega
  have hkey : (Share.ofRow a).key ≤ (Share.ofRow b).key ↔
      (-(cents a.total).rank < -(cents b.total).rank ∨
        -(cents a.total).rank = -(cents b.total).rank ∧
          (Share.ofRow a).label ≤ (Share.ofRow b).label) :=
    Prod.Lex.toLex_le_toLex
  rw [hkey, labelBytes_lt_iff, Binary64.compare?_eq (cents_ne_nan ha) (cents_ne_nan hb),
    Option.some_inj, compare_eq_iff_eq, hne.le_iff_lt]
  constructor
  · rintro (hlt | ⟨-, hlt⟩) heq
    · omega
    · exact hlt
  · intro himp
    rcases Int.lt_or_eq_of_le hle with hlt | heq
    · exact .inl (by omega)
    · exact .inr ⟨by omega, himp heq.symm⟩

theorem Share.ofRows_take (hs : IsSpread rows) (n : Nat) :
    Share.ofRows (some n) (rows.take n) = sortBy Share.key ((rows.take n).map Share.ofRow) := by
  have hnan : ∀ s ∈ (rows.take n).map Share.ofRow, s.totalSales ≠ .nan := by
    intro s hm
    rw [List.map_take] at hm
    exact hs.ne_nan s (List.mem_of_mem_take hm)
  have hlen : ((rows.take n).map Share.ofRow).length ≤ n := by
    rw [List.length_map, List.length_take]
    exact Nat.min_le_left _ _
  rw [Share.ofRows, Share.sorted_eq hnan]
  exact List.take_of_length_le (by rwa [length_sortBy])

theorem Share.ofRows_of_perm (hs : IsSpread rows) (hp : all.Perm rows) (n : Nat) :
    Share.ofRows (some n) all =
      (sortBy Share.key (rows.map Share.ofRow)).take ((rows.take n).map Share.ofRow).length := by
  have hperm : (all.map Share.ofRow).Perm (rows.map Share.ofRow) := hp.map _
  have hnan : ∀ s ∈ all.map Share.ofRow, s.totalSales ≠ .nan := fun s hm =>
    hs.ne_nan s (hperm.mem_iff.mp hm)
  rw [Share.ofRows, Share.sorted_eq hnan,
    sortBy_eq_of_perm (Share.nodup_key hs.nodup_label) hperm, List.length_map, List.length_take]
  show (sortBy Share.key (rows.map Share.ofRow)).take n = _
  rw [List.take_eq_take_min, length_sortBy, List.length_map]

/-- A limit on the rows keeps the shares that a limit on all shares keeps, unless it cuts between
two rows that show the same total, the latter of which has the lesser label. -/
theorem Share.ofRows_take_eq_iff (hs : IsSpread rows) (ho : rows.Pairwise Precedes)
    (hp : all.Perm rows) (n : Nat) :
    (Share.ofRows (some n) (rows.take n)).map Share.toJson =
        (Share.ofRows (some n) all).map Share.toJson ↔
      ∀ a ∈ rows.take n, ∀ b ∈ rows.drop n,
        (cents a.total).compare? (cents b.total) = some .eq → a.labelBytes < b.labelBytes := by
  have hrows : (rows.take n).map Share.ofRow ++ (rows.drop n).map Share.ofRow =
      rows.map Share.ofRow := by
    rw [← List.map_append, List.take_append_drop]
  have hlabel := hs.nodup_label
  have hshares : (Share.ofRows (some n) (rows.take n)).map Share.toJson =
        (Share.ofRows (some n) all).map Share.toJson ↔
      Share.ofRows (some n) (rows.take n) = Share.ofRows (some n) all := by
    refine ⟨Share.eq_of_map_toJson_eq hlabel ?_ ?_, congrArg _⟩
    · intro s hm
      rw [Share.ofRows_take hs, (perm_sortBy _ _).mem_iff, List.map_take] at hm
      exact List.mem_of_mem_take hm
    · intro s hm
      rw [Share.ofRows_of_perm hs hp] at hm
      exact (perm_sortBy _ _).mem_iff.mp (List.mem_of_mem_take hm)
  have hcut : Share.ofRows (some n) (rows.take n) = Share.ofRows (some n) all ↔
      ∀ a ∈ rows.take n, ∀ b ∈ rows.drop n, (Share.ofRow a).key ≤ (Share.ofRow b).key := by
    rw [Share.ofRows_take hs, Share.ofRows_of_perm hs hp, eq_comm, ← hrows,
      take_sortBy_append_iff (by rw [hrows]; exact Share.nodup_key hlabel)]
    simp only [List.forall_mem_map]
  rw [hshares, hcut]
  refine forall₂_congr fun a ha => forall₂_congr fun b hb => ?_
  have hma : a ∈ rows := List.mem_of_mem_take ha
  have hmb : b ∈ rows := List.mem_of_mem_drop hb
  have hprec : a.Precedes b := by
    rw [← List.take_append_drop n rows] at ho
    exact (List.pairwise_append.mp ho).2.2 a ha b hb
  have hne : (Share.ofRow a).label ≠ (Share.ofRow b).label := by
    rw [← hrows, List.map_append] at hlabel
    have hd := (List.nodup_append.mp hlabel).2.2
    exact hd _ (List.mem_map_of_mem (List.mem_map_of_mem ha)) _
      (List.mem_map_of_mem (List.mem_map_of_mem hb))
  exact key_le_key_iff (hs.isFinite_total hma) (hs.isFinite_total hmb) hprec hne

end Limit

end Report

/-! ### Bodies -/

section Body

open Report BreakdownRow

variable {g : Grouping} {limit : Option Int} {vs ws : List Json}
  {rows : List BreakdownRow}

/-- What a breakdown makes of the rows that the limit of its query keeps, against what it makes of
all rows. The two are the same exactly if no row that is kept shows the same total as a row that is
not kept and has a lesser label. -/
theorem breakdown_limit_iff (view : Presentation) (n : Nat) (hp : ws.Perm vs)
    (hr : readRows (Template.breakdown g (some n)).rowTitle BreakdownRow.read ws = .ok rows)
    (hs : IsSpread rows) (ho : rows.Pairwise Precedes) :
    ∃ kept shares, (Template.breakdown g (some n)).body view (ws.take n) = .ok (.arr kept) ∧
      (Template.breakdown g (some n)).body view vs = .ok (.arr shares) ∧
      (kept = shares ↔ ∀ a ∈ rows.take n, ∀ b ∈ rows.drop n,
        (cents a.total).compare? (cents b.total) = some .eq → a.labelBytes < b.labelBytes) := by
  obtain ⟨all, hall, hperm⟩ := readRows_of_perm hp hr
  exact ⟨_, _, Template.body_breakdown view (readRows_take hr n),
    Template.body_breakdown view hall,
    Share.ofRows_take_eq_iff hs ho hperm n⟩

/-- Totals that are equal are cut alike: the letter outside ASCII comes last. -/
theorem equal_totals_cut_alike :
    let row (label : String) (total : Nat) : Json :=
      .object [("label", .str label), ("total_sales", .int total)]
    ∃ shares, (Template.breakdown .pod (some 1)).body ⟨.wholeDay, .utc⟩ [row "a" 7] =
        .ok (.arr shares) ∧
      (Template.breakdown .pod (some 1)).body ⟨.wholeDay, .utc⟩ [row "é" 7, row "z" 1, row "a" 7] =
        .ok (.arr shares) := by
  intro row
  have hp : [row "a" 7, row "é" 7, row "z" 1].Perm [row "é" 7, row "z" 1, row "a" 7] :=
    @List.perm_append_comm _ [row "a" 7] [row "é" 7, row "z" 1]
  have hr : readRows (Template.breakdown .pod (some 1)).rowTitle BreakdownRow.read
      [row "a" 7, row "é" 7, row "z" 1] =
      .ok [⟨some "a", some (.ofInt 7), 0, none⟩, ⟨some "é", some (.ofInt 7), 0, none⟩,
        ⟨some "z", some (.ofInt 1), 0, none⟩] := by
    decide +kernel
  obtain ⟨kept, shares, hkept, hshares, hsame⟩ := breakdown_limit_iff ⟨.wholeDay, .utc⟩ 1
    hp hr ⟨by decide, by decide, by decide +kernel⟩ (by decide +kernel)
  rw [hsame.mpr (by decide +kernel)] at hkept
  exact ⟨shares, hkept, hshares⟩

/-- The query keeps the row of the greater total, the breakdown the one of the lesser label: in
cents both have the same. -/
theorem totals_equal_in_cents_cut_otherwise :
    let row (label : String) (total : Binary64) : Json :=
      .object [("label", .str label), ("total_sales", .number total)]
    let rows := [row "b" (.ofDecimal false 10004 (-3)), row "a" (.ofDecimal false 10001 (-3))]
    ∃ read, readRows (Template.breakdown .pod (some 1)).rowTitle BreakdownRow.read rows = .ok read ∧
      IsSpread read ∧ read.Pairwise Precedes ∧
      (Template.breakdown .pod (some 1)).body ⟨.wholeDay, .utc⟩ (rows.take 1) ≠
        (Template.breakdown .pod (some 1)).body ⟨.wholeDay, .utc⟩ rows := by
  intro row rows
  have hr : readRows (Template.breakdown .pod (some 1)).rowTitle BreakdownRow.read rows =
      .ok [⟨some "b", some (.ofDecimal false 10004 (-3)), 0, none⟩,
        ⟨some "a", some (.ofDecimal false 10001 (-3)), 0, none⟩] := by
    decide +kernel
  have hs : IsSpread [⟨some "b", some (.ofDecimal false 10004 (-3)), 0, none⟩,
        ⟨some "a", some (.ofDecimal false 10001 (-3)), 0, none⟩] :=
    ⟨by decide, by decide, by decide +kernel⟩
  refine ⟨_, hr, hs, by decide +kernel, ?_⟩
  rw [Template.body_breakdown _ (readRows_take hr 1), Template.body_breakdown _ hr]
  intro h
  have hcut := (Share.ofRows_take_eq_iff hs (by decide +kernel) (List.Perm.refl _) 1).mp
    (Json.arr.inj (Except.ok.inj h))
  revert hcut
  decide +kernel

end Body

end Takings
