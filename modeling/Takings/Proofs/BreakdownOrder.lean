import Takings.Proofs.AmountOrder
import Takings.Proofs.RecordColumns
import Takings.Proofs.RecordValues
import Takings.Proofs.WholeCents
import Takings.Report.Body

/-!
# The order of breakdowns

A breakdown shows each row by its label, its sales in cents and its counts: the labels with the
greatest sales first and equal ones in the order of the labels; a limit keeps the first of them.
Sales that are read are numbers, and cents of numbers are numbers, so no two labels are left without
an order, whatever rounding makes of their sales.
-/
namespace Takings

open Json Text Sorting

namespace Report

/-! ### What is shown -/

/-- The label of a column. Null, like no column, is unknown. -/
def labelOf : Option Json → String
  | some (.str s) => s
  | _ => unknownLabel

/-- A share shows the columns of a row: its label, its sales in cents, and its orders and its
quantity as they are. What is not there is zero. -/
structure Share.Shows (s : Share) (v : Json) : Prop where
  label : s.toJson.member? "label" = some (.str s.label)
  isLabel : s.label = labelOf (BreakdownRow.record.column? v "label")
  totalSales : s.toJson.member? "totalSales" = some (.number s.totalSales)
  isCents : s.totalSales = cents (amountOf (BreakdownRow.record.column? v "total_sales"))
  inCents : IsInCents (amountOf (BreakdownRow.record.column? v "total_sales")) s.totalSales
  totalOrders : s.toJson.member? "totalOrders" =
    some ((BreakdownRow.record.column? v "total_orders").getD (.int 0))
  totalQuantity : s.toJson.member? "totalQuantity" =
    some (.number (amountOf (BreakdownRow.record.column? v "total_quantity")))

namespace BreakdownRow

variable {v : Json} {r : BreakdownRow}

theorem are_of_read (h : read v = .ok r) :
    Values.Are (record.column? v) record.fields
      (r.label, r.totalSales, r.totalOrders, r.totalQuantity, ()) := by
  obtain ⟨⟨label, totalSales, totalOrders, totalQuantity, ⟨⟩⟩, hx, rfl⟩ := map_eq_ok_iff.mp h
  exact Record.are_of_read (by decide) (by decide) hx

theorem getD_eq_labelOf {x : Option String} {column : Option Json}
    (h : textOrNull x = column.getD .null) : x.getD unknownLabel = labelOf column := by
  cases column with
  | none =>
    cases x with
    | none => rfl
    | some s => cases h
  | some w =>
    have hw : w = textOrNull x := h.symm
    cases x <;> rw [hw] <;> rfl

theorem shows_ofRow (h : read v = .ok r) : (Share.ofRow r).Shows v := by
  obtain ⟨hlabel, hsales, horders, hquantity, -⟩ := are_of_read h
  have hamount : r.totalSales.getD .zero = amountOf (record.column? v "total_sales") :=
    Field.getD_of_gets_amount hsales
  constructor
  · rw [Share.toJson, member?_object]
    rfl
  · exact getD_eq_labelOf (Field.textOrNull_of_gets hlabel)
  · rw [Share.toJson, member?_object]
    rfl
  · exact congrArg cents hamount
  · rw [← hamount]
    exact isInCents_cents _
  · rw [Share.toJson, member?_object]
    exact congrArg some (Field.int_of_gets_count horders)
  · rw [Share.toJson, member?_object]
    exact congrArg (some ∘ Json.number) (Field.getD_of_gets_amount hquantity)

theorem hasValidDefaults : ∀ f ∈ record.fields, f.HasValidDefaults := by
  intro f hf
  simp only [record, List.mem_cons, List.not_mem_nil, or_false] at hf
  rcases hf with rfl | rfl | rfl | rfl
  · exact Json.Field.hasValidDefaults_optional _ trivial
  · exact Json.Field.hasValidDefaults_optional _ Json.Kind.isValid_amount_none
  · exact Json.Field.hasValidDefaults_optional _ (by decide : Word.Fits 0)
  · exact Json.Field.hasValidDefaults_optional _ Json.Kind.isValid_amount_none

theorem isNumber_of_read (h : read v = .ok r) :
    ∀ x ∈ r.totalSales, x.IsNumber := by
  obtain ⟨⟨label, totalSales, totalOrders, totalQuantity, ⟨⟩⟩, hx, rfl⟩ := map_eq_ok_iff.mp h
  exact (Json.Record.areValid_read hasValidDefaults hx).2.1

end BreakdownRow

namespace Share

/-- What the order of shares goes by. -/
def key (s : Share) : ℤ ×ₗ String :=
  amountKey totalSales label s

theorem isLE_order {a b : Share} (ha : a.totalSales ≠ .nan) (hb : b.totalSales ≠ .nan) :
    (order a b).isLE = decide (key a ≤ key b) :=
  isLE_byAmount totalSales label ha hb

theorem nodup_key {l : List Share} (h : (l.map label).Nodup) : (l.map key).Nodup :=
  nodup_amountKey totalSales label h

theorem sorted_eq {l : List Share} (h : ∀ s ∈ l, s.totalSales ≠ .nan) :
    sorted l = sortBy key l :=
  mergeSort_eq_sortBy fun a ha b hb => isLE_order (h a ha) (h b hb)

theorem isNumber_ofRow {r : BreakdownRow} (h : ∀ x ∈ r.totalSales, x.IsNumber) :
    (ofRow r).totalSales.IsNumber := by
  refine isNumber_cents ?_
  cases hx : r.totalSales with
  | none => exact Binary64.isNumber_zero
  | some x => exact h x hx

theorem cut_prefix (limit : Option Int) (l : List Share) : cut limit l <+: l := by
  cases limit with
  | none => exact List.prefix_refl l
  | some i =>
    cases i with
    | ofNat n => exact List.take_prefix n l
    | negSucc n => exact List.prefix_refl l

/-- Only a limit that is not below zero is one. -/
theorem cut_eq_self {limit : Option Int} (h : ∀ n : Nat, limit ≠ some (n : Int)) (l : List Share) :
    cut limit l = l := by
  cases limit with
  | none => rfl
  | some i =>
    cases i with
    | ofNat n => exact absurd rfl (h n)
    | negSucc n => rfl

theorem ofRows_eq_cut {rows : List BreakdownRow}
    (h : ∀ s ∈ rows.map ofRow, s.totalSales ≠ .nan) (limit : Option Int) :
    ofRows limit rows = cut limit (sortBy key (rows.map ofRow)) := by
  rw [ofRows, sorted_eq h]

end Share

end Report

section Body

open Report BreakdownRow

variable {g : Grouping} {limit : Option Int} {vs ws : List Json}
  {rows : List BreakdownRow}

theorem Template.body_breakdown (view : Presentation)
    (h : readRows (Template.breakdown g limit).rowTitle BreakdownRow.read vs = .ok rows) :
    (Template.breakdown g limit).body view vs =
      .ok (.arr ((Share.ofRows limit rows).map Share.toJson)) := by
  rw [Template.body, h]
  rfl

/-- The sales of rows that are read have an order. -/
theorem Report.Share.ne_nan_of_readRows
    (h : readRows (Template.breakdown g limit).rowTitle BreakdownRow.read vs = .ok rows) :
    ∀ s ∈ rows.map Share.ofRow, s.totalSales ≠ .nan := by
  intro s hs
  obtain ⟨r, hr, rfl⟩ := List.mem_map.mp hs
  exact (isNumber_ofRow (forall_of_readRows h (fun _ _ => isNumber_of_read) r hr)).ne_nan

/-- Whatever rows a breakdown is made of, each one becomes a share that shows its columns, and the
breakdown has all of them by their sales, or the first of them if it has a limit that is not below
zero. Its comparison always decides, and if no two rows have one label, the order of the rows does
not matter. -/
theorem breakdown_shows_first (view : Presentation)
    (h : readRows (Template.breakdown g limit).rowTitle BreakdownRow.read vs = .ok rows) :
    let images := rows.map Share.ofRow
    ∃ all shown : List Share,
      (Template.breakdown g none).body view vs = .ok (.arr (all.map Share.toJson)) ∧
      (Template.breakdown g limit).body view vs = .ok (.arr (shown.map Share.toJson)) ∧
      List.Forall₂ (fun v s => s.Shows v) vs images ∧
      IsRanking Share.totalSales Share.label images all ∧
      (∀ n : Nat, limit = some (n : Int) → shown = all.take n) ∧
      ((∀ n : Nat, limit ≠ some (n : Int)) → shown = all) ∧
      shown <+: all ∧
      (∀ a ∈ images, ∀ b ∈ images, a.totalSales.compare? b.totalSales ≠ none) ∧
      IsPreorderOn Share.order images ∧
      ((rows.map fun r => r.label.getD unknownLabel).Nodup → ∀ ws : List Json, ws.Perm vs →
        (Template.breakdown g limit).body view ws = (Template.breakdown g limit).body view vs) := by
  intro images
  have hnan := Share.ne_nan_of_readRows h
  refine ⟨sortBy Share.key images, Share.cut limit (sortBy Share.key images), ?_, ?_, ?_,
    isRanking_sortBy _ _ _, ?_, ?_, ?_, ?_, isPreorderOn_byAmount _ _ hnan, ?_⟩
  · have hall : readRows (Template.breakdown g none).rowTitle BreakdownRow.read vs = .ok rows := h
    rw [Template.body_breakdown view hall, Share.ofRows_eq_cut hnan]
    rfl
  · rw [Template.body_breakdown view h, Share.ofRows_eq_cut hnan]
  · rw [List.forall₂_map_right_iff]
    exact (readRows_eq_ok_iff.mp h).imp fun v r hr => BreakdownRow.shows_ofRow hr
  · rintro n rfl
    rfl
  · exact fun hn => Share.cut_eq_self hn _
  · exact Share.cut_prefix limit _
  · intro a ha b hb
    rw [Binary64.compare?_eq (hnan a ha) (hnan b hb)]
    exact Option.some_ne_none _
  · intro hn ws hp
    obtain ⟨rows', h', hperm⟩ := readRows_of_perm hp.symm h
    have hkeys : (images.map Share.key).Nodup := by
      refine Share.nodup_key ?_
      rwa [List.map_map]
    rw [Template.body_breakdown view h', Template.body_breakdown view h, Share.ofRows_eq_cut hnan,
      Share.ofRows_eq_cut (Share.ne_nan_of_readRows h'), sortBy_eq_of_perm hkeys (hperm.map _)]

/-- Two totals are infinite in cents and tie, as do no total and one that is less than half a cent
below zero. -/
theorem infinite_and_tiny_totals_tie :
    let row (label : Json) (total : Json) : Json :=
      .object [("label", label), ("total_sales", total)]
    ∃ shown : List Share,
      (Template.breakdown .pod (some 3)).body ⟨.wholeDay, .utc⟩
        [row (.str "a") (.number (.ofDecimal true 1 (-3))), row (.str "B") .null,
          row (.str "z") (.number (.ofDecimal false 1 307)),
          row .null (.number (.ofDecimal false 1 308))] = .ok (.arr (shown.map Share.toJson)) ∧
      shown.map Share.label = ["Unknown", "z", "B"] := by
  intro row
  have hr : readRows (Template.breakdown .pod (some 3)).rowTitle BreakdownRow.read
      [row (.str "a") (.number (.ofDecimal true 1 (-3))), row (.str "B") .null,
        row (.str "z") (.number (.ofDecimal false 1 307)),
        row .null (.number (.ofDecimal false 1 308))] =
      .ok [⟨some "a", some (.ofDecimal true 1 (-3)), 0, none⟩, ⟨some "B", none, 0, none⟩,
        ⟨some "z", some (.ofDecimal false 1 307), 0, none⟩,
        ⟨none, some (.ofDecimal false 1 308), 0, none⟩] := by
    decide +kernel
  obtain ⟨all, shown, -, hshown, -, hrank, hcut, -⟩ :=
    breakdown_shows_first ⟨.wholeDay, .utc⟩ hr
  refine ⟨shown, hshown, ?_⟩
  have hall : all = [⟨"Unknown", .number false Magnitude.infinity, 0, .zero⟩,
      ⟨"z", .number false Magnitude.infinity, 0, .zero⟩, ⟨"B", .zero, 0, .zero⟩,
      ⟨"a", .number true 0, 0, .zero⟩] :=
    hrank.eq_of_ordered (by decide) (by decide +kernel) (by decide +kernel)
  rw [hcut 3 rfl, hall]
  rfl

end Body

end Takings
