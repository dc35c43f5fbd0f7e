import Takings.Proofs.AmountOrder
import Takings.Proofs.RecordColumns
import Takings.Proofs.RecordValues
import Takings.Proofs.WholeCents
import Takings.Report.Body

/-!
# Totals of stores

A store has the totals that a summary makes of a row with the same columns, and its names as they
stand in its row. Stores are in the order of their sales in cents, those with equal sales in the
order of their ids. Sales that are read are numbers, so the comparison of stores always decides, and
if no two rows have one id, the order of the rows does not matter.
-/
namespace Takings

open Json Sorting

namespace Binary64

/-- A positive count is divided by as what it is. -/
theorem exists_ofInt_of_pos {n : Int} (h : 0 < n) (hf : Word.Fits n) :
    ∃ b, ofInt n = .number false b ∧ 0 < b ∧ b ≠ Magnitude.infinity := by
  have hone : 1 * one ≤ n.natAbs * one := Nat.mul_le_mul_right _ (by omega)
  have hlimit : n.natAbs * one ≤ 2 ^ 63 * one := Nat.mul_le_mul_right _ (by have := hf.2; omega)
  refine ⟨Magnitude.round (n.natAbs * one) 1, ?_, ?_, ?_⟩
  · rw [ofInt, decide_eq_false (by omega : ¬ n < 0)]
  · calc 0 < Magnitude.round (1 * one) 1 := by decide +kernel
      _ ≤ Magnitude.round (n.natAbs * one) 1 := Magnitude.round_mono hone
  · refine Nat.ne_of_lt ?_
    calc Magnitude.round (n.natAbs * one) 1 ≤ Magnitude.round (2 ^ 63 * one) 1 :=
          Magnitude.round_mono hlimit
      _ < Magnitude.infinity := by decide +kernel

theorem toUnits_ofInt_pos {n : Int} (h : 0 < n) (hf : Word.Fits n) : 0 < (ofInt n).toUnits := by
  obtain ⟨b, hb, hpos, -⟩ := exists_ofInt_of_pos h hf
  have hunits := Magnitude.units_lt_units hpos
  rw [Magnitude.units_zero] at hunits
  rw [hb]
  exact Int.natCast_pos.mpr hunits

end Binary64

namespace Report

variable {v w : Json} {row : StoreRow} {totals : SummaryRow}

theorem cents_zero : cents .zero = .zero := by
  decide +kernel

/-- An amount per order is a number. -/
theorem isNumber_perOrder {total : Binary64} (ht : total.IsNumber) {orders : Int}
    (hf : Word.Fits orders) : (perOrder total orders).IsNumber := by
  rw [perOrder]
  split
  · rename_i hpos
    obtain ⟨b, hb, hb0, hbi⟩ := Binary64.exists_ofInt_of_pos hpos hf
    obtain ⟨m, hm⟩ := Binary64.actsBy_div hb0 hbi
    rw [hb]
    exact hm.isNumber ht
  · exact Binary64.isNumber_zero

/-! ### Rows -/

namespace StoreRow

theorem hasValidDefaults : ∀ f ∈ record.fields, f.HasValidDefaults := by
  intro f hf
  simp only [record, List.mem_cons, List.not_mem_nil, or_false] at hf
  rcases hf with rfl | rfl | rfl | rfl | rfl | rfl | rfl
  · exact Field.hasValidDefaults_required _ _
  · exact Field.hasValidDefaults_optional _ trivial
  · exact Field.hasValidDefaults_optional _ trivial
  · exact Field.hasValidDefaults_optional _ trivial
  · exact Field.hasValidDefaults_optional _ Kind.isValid_amount_none
  · exact Field.hasValidDefaults_optional _ (by decide : Word.Fits 0)
  · exact Field.hasValidDefaults_optional _ (by decide : Word.Fits 0)

/-- The sales of a row, none being zero. -/
def sales (r : StoreRow) : Binary64 :=
  r.totals.totalSales.getD .zero

theorem isNumber_sales (h : read v = .ok row) : row.sales.IsNumber := by
  obtain ⟨⟨id, code, city, state, sales, orders, invoices, ⟨⟩⟩, hx, rfl⟩ := map_eq_ok_iff.mp h
  obtain ⟨-, -, -, -, hsales, -⟩ := Record.areValid_read hasValidDefaults hx
  cases sales with
  | none => exact Binary64.isNumber_zero
  | some x => exact hsales x rfl

theorem fits_totalOrders (h : read v = .ok row) : Word.Fits row.totals.totalOrders := by
  obtain ⟨⟨id, code, city, state, sales, orders, invoices, ⟨⟩⟩, hx, rfl⟩ := map_eq_ok_iff.mp h
  obtain ⟨-, -, -, -, -, horders, -⟩ := Record.areValid_read hasValidDefaults hx
  exact horders

end StoreRow

/-- A row of a summary has the totals of a store's row. -/
def SameTotals (v w : Json) : Prop :=
  ∀ f ∈ SummaryRow.record.fields,
    SummaryRow.record.column? w f.name = StoreRow.record.column? v f.name

theorem StoreRow.are_of_read (h : read v = .ok row) :
    Values.Are (record.column? v) record.fields
      (row.storeId, row.storeCode, row.city, row.state, row.totals.totalSales,
        row.totals.totalOrders, row.totals.totalInvoices, ()) := by
  obtain ⟨⟨id, code, city, state, sales, orders, invoices, ⟨⟩⟩, hx, rfl⟩ := map_eq_ok_iff.mp h
  exact Record.are_of_read (by decide) (by decide) hx

theorem SummaryRow.are_of_read (h : read w = .ok totals) :
    Values.Are (record.column? w) record.fields
      (totals.totalSales, totals.totalOrders, totals.totalInvoices, ()) := by
  obtain ⟨⟨sales, orders, invoices, ⟨⟩⟩, hx, rfl⟩ := map_eq_ok_iff.mp h
  exact Record.are_of_read (by decide) (by decide) hx

/-- Rows with the same totals are read alike. -/
theorem SameTotals.eq_totals (h : SameTotals v w) (hv : StoreRow.read v = .ok row)
    (hw : SummaryRow.read w = .ok totals) : totals = row.totals := by
  obtain ⟨-, -, -, -, hrow⟩ := StoreRow.are_of_read hv
  have htotals := Values.are_congr h (SummaryRow.are_of_read hw)
  have hd : ∀ f ∈ SummaryRow.record.fields, f.inArray = f.inObject := by
    simp [SummaryRow.record, Field.optional]
  exact congrArg (fun xs => SummaryRow.mk xs.1 xs.2.1 xs.2.2.1) (Values.eq_of_are hd htotals hrow)

/-- Each row of a store has the totals of a row of the summary. -/
theorem exists_sameTotals (h : StoreRow.read v = .ok row) :
    ∃ w, SameTotals v w ∧ SummaryRow.read w = .ok row.totals := by
  obtain ⟨⟨id, code, city, state, sales, orders, invoices, ⟨⟩⟩, hx, rfl⟩ := map_eq_ok_iff.mp h
  have hread {w : Json} (hw : SummaryRow.record.read w = .ok (sales, orders, invoices, ())) :
      SummaryRow.read w = .ok ⟨sales, orders, invoices⟩ :=
    map_eq_ok_iff.mpr ⟨_, hw, rfl⟩
  cases v with
  | obj members =>
    obtain ⟨-, -, -, -, htotals⟩ := (Record.ofMembers_eq_ok_iff (by decide)).mp hx
    exact ⟨.obj members, fun _ _ => rfl,
      hread ((Record.ofMembers_eq_ok_iff (by decide)).mpr htotals)⟩
  | arr items =>
    -- The totals are the items after the first four.
    have htotals := Values.areItems_tail (Values.areItems_tail (Values.areItems_tail
      (Values.areItems_tail (Record.ofItems_eq_ok_iff.mp hx))))
    refine ⟨.arr items.tail.tail.tail.tail, fun f hf => ?_,
      hread (Record.ofItems_eq_ok_iff.mpr htotals)⟩
    have hname : f.name ∉ ["store_id", "store_code", "city", "state"] := by
      revert f
      decide
    simp only [List.mem_cons, List.not_mem_nil, or_false, not_or] at hname
    obtain ⟨hid, hcode, hcity, hstate⟩ := hname
    show _ = itemNamed? StoreRow.record.fields items f.name
    rw [StoreRow.record, itemNamed?_cons_of_ne (Ne.symm hid),
      itemNamed?_cons_of_ne (Ne.symm hcode), itemNamed?_cons_of_ne (Ne.symm hcity),
      itemNamed?_cons_of_ne (Ne.symm hstate)]
    rfl
  | null | bool _ | int _ | float _ _ | str _ => cases hx

/-! ### Stores -/

namespace StoreSummary

variable {s : StoreSummary} {l : List StoreSummary}

/-- The sales of a store, in cents. -/
def sales (s : StoreSummary) : Binary64 :=
  s.totals.totalSales

/-- What the order of stores goes by. -/
def key (s : StoreSummary) : ℤ ×ₗ String :=
  amountKey sales storeId s

/-- A store has the id and the names of its row; those that the row lacks are null. -/
structure NamedBy (s : StoreSummary) (v : Json) : Prop where
  storeId : ∃ id, StoreRow.record.column? v "store_id" = some id ∧
    s.toJson.member? "storeId" = some id
  storeCode : s.toJson.member? "storeCode" =
    some ((StoreRow.record.column? v "store_code").getD .null)
  city : s.toJson.member? "city" = some ((StoreRow.record.column? v "city").getD .null)
  state : s.toJson.member? "state" = some ((StoreRow.record.column? v "state").getD .null)

/-- A store shows the totals of a row: its sales in cents, its counts as they are, and the average
of the sales as they were before. -/
structure ShowsTotals (s : StoreSummary) (v : Json) : Prop where
  totalSales : s.toJson.member? "totalSales" = some (.number s.totals.totalSales)
  inCents : IsInCents (amountOf (StoreRow.record.column? v "total_sales")) s.totals.totalSales
  totalOrders : s.toJson.member? "totalOrders" =
    some ((StoreRow.record.column? v "total_orders").getD (.int 0))
  totalInvoices : s.toJson.member? "totalInvoices" =
    some ((StoreRow.record.column? v "total_invoices").getD (.int 0))
  avgOrderValue : s.toJson.member? "avgOrderValue" = some (.number s.totals.averageOrder)
  average : ∀ n, (StoreRow.record.column? v "total_orders").getD (.int 0) = .int n →
    s.totals.averageOrder =
      if 0 < n then cents ((amountOf (StoreRow.record.column? v "total_sales")).div (.ofInt n))
      else .zero

/-- Of each row with the same totals, and there is one, a summary shows the totals of the store. -/
def AgreesOn (s : StoreSummary) (v : Json) (view : Presentation) : Prop :=
  ∃ point,
    (∃ w, SameTotals v w ∧ Template.summary.body view [w] = .ok point) ∧
    (∀ w p, SameTotals v w → Template.summary.body view [w] = .ok p → p = point) ∧
    ∀ name ∈ ["totalSales", "totalOrders", "avgOrderValue", "totalInvoices"],
      ∃ shown, point.member? name = some shown ∧ s.toJson.member? name = some shown

theorem namedBy_ofRow (h : StoreRow.read v = .ok row) : (ofRow row).NamedBy v := by
  obtain ⟨hid, hcode, hcity, hstate, -⟩ := StoreRow.are_of_read h
  have hid := Field.eq_of_gets_text hid
  have hcode := Field.textOrNull_of_gets hcode
  have hcity := Field.textOrNull_of_gets hcity
  have hstate := Field.textOrNull_of_gets hstate
  constructor
  · refine ⟨.str row.storeId, hid, ?_⟩
    rw [toJson, member?_object]
    rfl
  · rw [toJson, member?_object]
    exact congrArg some hcode
  · rw [toJson, member?_object]
    exact congrArg some hcity
  · rw [toJson, member?_object]
    exact congrArg some hstate

theorem body_summary (view : Presentation) (h : SummaryRow.read w = .ok totals) :
    Template.summary.body view [w] = .ok (Summary.ofRow totals).toJson := by
  have hrows : readRows Template.summary.rowTitle SummaryRow.read [w] = .ok [totals] :=
    readRows_eq_ok_iff.mpr (.cons h .nil)
  rw [Template.body, hrows]
  rfl

theorem agreesOn_ofRow (h : StoreRow.read v = .ok row) (view : Presentation) :
    (ofRow row).AgreesOn v view := by
  obtain ⟨w, hw, hread⟩ := exists_sameTotals h
  refine ⟨_, ⟨w, hw, body_summary view hread⟩, fun w' p hw' hp => ?_, fun name hname => ?_⟩
  · obtain ⟨rows, hrows, rfl⟩ := map_eq_ok_iff.mp hp
    cases readRows_eq_ok_iff.mp hrows with
    | cons hread' hrest =>
      cases hrest
      rw [← hw'.eq_totals h hread']
      rfl
  · have hshown : name ∈ ["totalSales", "totalOrders", "avgOrderValue", "totalInvoices"] →
        ∃ shown, (Summary.ofRow row.totals).toJson.member? name = some shown ∧
          (ofRow row).toJson.member? name = some shown := by
      rw [Summary.toJson, toJson, member?_object, member?_object]
      simp only [List.mem_cons, List.not_mem_nil, or_false]
      rintro (rfl | rfl | rfl | rfl)
      · exact ⟨_, rfl, rfl⟩
      · exact ⟨_, rfl, rfl⟩
      · exact ⟨_, rfl, rfl⟩
      · exact ⟨_, rfl, rfl⟩
    exact hshown hname

/-- The average is taken of the sales before they are rounded, and there is none without orders. -/
theorem averageOrder_ofRow (row : StoreRow) : (ofRow row).totals.averageOrder =
    if 0 < row.totals.totalOrders then cents (row.sales.div (.ofInt row.totals.totalOrders))
    else .zero := by
  show cents (perOrder row.sales row.totals.totalOrders) = _
  rw [perOrder]
  split
  · rfl
  · exact cents_zero

theorem showsTotals_ofRow (h : StoreRow.read v = .ok row) : (ofRow row).ShowsTotals v := by
  obtain ⟨-, -, -, -, hsales, horders, hinvoices, -⟩ := StoreRow.are_of_read h
  have hamount : row.sales = amountOf (StoreRow.record.column? v "total_sales") :=
    Field.getD_of_gets_amount hsales
  have horders := Field.int_of_gets_count horders
  constructor
  · rw [toJson, member?_object]
    rfl
  · rw [← hamount]
    exact isInCents_cents _
  · rw [toJson, member?_object]
    exact congrArg some horders
  · rw [toJson, member?_object]
    exact congrArg some (Field.int_of_gets_count hinvoices)
  · rw [toJson, member?_object]
    rfl
  · intro n hn
    rw [averageOrder_ofRow, hamount, Json.int.inj (horders.trans hn)]

theorem isNumber_sales (h : StoreRow.read v = .ok row) : (ofRow row).sales.IsNumber :=
  isNumber_cents (StoreRow.isNumber_sales h)

theorem ofRows_eq {rows : List StoreRow} (h : ∀ s ∈ rows.map ofRow, s.sales ≠ .nan) :
    ofRows rows = sortBy key (rows.map ofRow) :=
  mergeSort_eq_sortBy fun a ha b hb => isLE_byAmount sales storeId (h a ha) (h b hb)

end StoreSummary

end Report

section Body

open Report

variable {vs : List Json} {rows : List StoreRow}

/-- The sales of rows that are read have an order. -/
theorem Report.StoreSummary.ne_nan_of_readRows
    (h : readRows Template.storeSummary.rowTitle StoreRow.read vs = .ok rows) :
    ∀ s ∈ rows.map StoreSummary.ofRow, s.sales ≠ .nan := by
  intro s hs
  obtain ⟨r, hr, rfl⟩ := List.mem_map.mp hs
  exact (forall_of_readRows h (fun _ _ => isNumber_sales) r hr).ne_nan

theorem Template.body_storeSummary (view : Presentation)
    (h : readRows Template.storeSummary.rowTitle StoreRow.read vs = .ok rows) :
    Template.storeSummary.body view vs =
      .ok (.arr ((sortBy StoreSummary.key (rows.map StoreSummary.ofRow)).map
        StoreSummary.toJson)) := by
  rw [Template.body, h, ← StoreSummary.ofRows_eq (StoreSummary.ne_nan_of_readRows h)]
  rfl

/-- Whatever rows are read, each one makes a store that shows its totals, as a summary shows those of
a row with the same ones. The stores are in the order of their sales, their comparison always decides, and if
no two rows have one id, the order of the rows does not matter. -/
theorem stores_agree_with_summary (view : Presentation)
    (h : readRows Template.storeSummary.rowTitle StoreRow.read vs = .ok rows) :
    let images := rows.map StoreSummary.ofRow
    ∃ stores : List StoreSummary,
      Template.storeSummary.body view vs = .ok (.arr (stores.map StoreSummary.toJson)) ∧
      IsRanking (fun s => s.totals.totalSales) StoreSummary.storeId images stores ∧
      List.Forall₂ (fun v s => s.NamedBy v ∧ s.ShowsTotals v ∧ s.AgreesOn v view) vs images ∧
      (∀ r ∈ rows, (StoreSummary.ofRow r).totals.averageOrder.IsNumber ∧
        (0 < r.totals.totalOrders → 0 < (Binary64.ofInt r.totals.totalOrders).toUnits ∧
          (StoreSummary.ofRow r).totals.averageOrder =
            cents (r.sales.div (.ofInt r.totals.totalOrders))) ∧
        (r.totals.totalOrders ≤ 0 → (StoreSummary.ofRow r).totals.averageOrder = .zero)) ∧
      (∀ a ∈ images, ∀ b ∈ images,
        a.totals.totalSales.compare? b.totals.totalSales ≠ none) ∧
      IsPreorderOn StoreSummary.order images ∧
      ((rows.map StoreRow.storeId).Nodup → ∀ ws : List Json, ws.Perm vs →
        Template.storeSummary.body view ws = Template.storeSummary.body view vs) := by
  intro images
  have hnan := StoreSummary.ne_nan_of_readRows h
  have hread := readRows_eq_ok_iff.mp h
  refine ⟨sortBy StoreSummary.key images, Template.body_storeSummary view h,
    isRanking_sortBy _ _ _, ?_, ?_, ?_, isPreorderOn_byAmount StoreSummary.sales _ hnan, ?_⟩
  · rw [List.forall₂_map_right_iff]
    exact hread.imp fun v r hr =>
      ⟨StoreSummary.namedBy_ofRow hr, StoreSummary.showsTotals_ofRow hr,
        StoreSummary.agreesOn_ofRow hr view⟩
  · refine forall_of_readRows h fun v r hr => ?_
    have hfits := StoreRow.fits_totalOrders hr
    have haverage := StoreSummary.averageOrder_ofRow r
    refine ⟨isNumber_cents (isNumber_perOrder (StoreRow.isNumber_sales hr) hfits), ?_, ?_⟩
    · intro hpos
      rw [if_pos hpos] at haverage
      exact ⟨Binary64.toUnits_ofInt_pos hpos hfits, haverage⟩
    · intro hnone
      rwa [if_neg (by omega)] at haverage
  · intro a ha b hb
    have hcompare := Binary64.compare?_eq (hnan a ha) (hnan b hb)
    rw [StoreSummary.sales, StoreSummary.sales] at hcompare
    rw [hcompare]
    exact Option.some_ne_none _
  · intro hn ws hp
    obtain ⟨rows', h', hperm⟩ := readRows_of_perm hp.symm h
    have hkeys : (images.map StoreSummary.key).Nodup := by
      refine nodup_amountKey StoreSummary.sales StoreSummary.storeId ?_
      rwa [List.map_map]
    rw [Template.body_storeSummary view h', Template.body_storeSummary view h,
      sortBy_eq_of_perm hkeys (hperm.map _)]

/-- Stores with equal sales stand by their ids, and one with less than no orders has no average. -/
theorem stores_with_equal_sales_stand_by_id :
    let rows : List Json :=
      [.object [("store_id", .str "b"), ("total_sales", .int 100), ("total_orders", .int 3)],
        .arr [.str "a", .str "A1", .null, .str "TX", .int 100, .int 4],
        .object [("store_id", .str "Z"), ("total_sales", .int (-5)), ("total_orders", .int (-2))],
        .object [("store_id", .str "c"), ("total_sales", .null)]]
    ∃ stores : List StoreSummary,
      Template.storeSummary.body ⟨.wholeDay, .utc⟩ rows =
        .ok (.arr (stores.map StoreSummary.toJson)) ∧
      stores.map StoreSummary.storeId = ["a", "b", "c", "Z"] ∧
      stores.map (fun s => s.totals.averageOrder) =
        [.ofInt 25, .ofDecimal false 3333 (-2), .zero, .zero] := by
  intro rows
  have hr : readRows Template.storeSummary.rowTitle StoreRow.read rows =
      .ok [⟨"b", none, none, none, some (.ofInt 100), 3, 0⟩,
        ⟨"a", some "A1", none, some "TX", some (.ofInt 100), 4, 0⟩,
        ⟨"Z", none, none, none, some (.ofInt (-5)), -2, 0⟩,
        ⟨"c", none, none, none, none, 0, 0⟩] := by
    decide +kernel
  obtain ⟨stores, hbody, hrank, -⟩ := stores_agree_with_summary ⟨.wholeDay, .utc⟩ hr
  have hstores : stores =
      [⟨"a", some "A1", none, some "TX", .ofInt 100, 4, .ofInt 25, 0⟩,
        ⟨"b", none, none, none, .ofInt 100, 3, .ofDecimal false 3333 (-2), 0⟩,
        ⟨"c", none, none, none, .zero, 0, .zero, 0⟩,
        ⟨"Z", none, none, none, .ofInt (-5), -2, .zero, 0⟩] :=
    hrank.eq_of_ordered (by decide) (by decide +kernel) (by decide +kernel)
  refine ⟨stores, hbody, ?_, ?_⟩
  · rw [hstores]
    rfl
  · rw [hstores]
    simp only [List.map_cons, List.map_nil]

end Body

end Takings
