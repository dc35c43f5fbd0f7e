import Takings.Calendar.ZoneText
import Takings.Proofs.ClockTimes
import Takings.Proofs.ObjectMembers
import Takings.Proofs.Sorting
import Takings.Report.Body

/-!
# The order of single sales

The query asks for sales by their days and times, the newest first; a report puts them in the order
of their instants. Sales at clock times that are left out keep no place: they are read as Greenwich
time and so come between others. All other sales stay in the order of the query.
-/
namespace Takings

open Sorting

namespace Report

/-- One row was sold no earlier than another, by its day and its time on the clock. -/
def SaleRow.NoEarlier (a b : SaleRow) : Prop :=
  (b.soldAt.compare a.soldAt).isLE = true

theorem SaleRow.pairwise_noEarlier {rows : List SaleRow}
    (h : (rows.map soldAt).Pairwise fun a b => (b.compare a).isLE = true) :
    rows.Pairwise NoEarlier := by
  rw [List.pairwise_map] at h
  exact h

namespace Sale

variable {z : Zone} {rows : List SaleRow}

/-- Greater timestamps come first. -/
def key (s : Sale) : ℤᵒᵈ :=
  OrderDual.toDual s.timestamp

theorem ofRows_eq (z : Zone) (rows : List SaleRow) :
    ofRows z rows = sortBy key (rows.map (ofRow z)) :=
  mergeSort_eq_sortBy fun a _ b _ => by simp [key]

theorem perm_ofRows (z : Zone) (rows : List SaleRow) :
    (ofRows z rows).Perm (rows.map (ofRow z)) :=
  List.mergeSort_perm _ _

theorem pairwise_ofRows (z : Zone) (rows : List SaleRow) :
    (ofRows z rows).Pairwise fun a b => b.timestamp ≤ a.timestamp := by
  rw [ofRows_eq]
  exact pairwise_sortBy key _

/-- Sales that are in the order of their timestamps keep it. -/
theorem sublist_ofRows {rows' : List SaleRow} (h : rows'.Sublist rows)
    (hs : (rows'.map (ofRow z)).Pairwise fun a b => b.timestamp ≤ a.timestamp) :
    (rows'.map (ofRow z)).Sublist (ofRows z rows) := by
  rw [ofRows_eq]
  exact sublist_sortBy (h.map _) hs

theorem map_timestamp (z : Zone) (rows : List SaleRow) :
    (rows.map (ofRow z)).map timestamp =
      (rows.map SaleRow.soldAt).map (LocalTime.epochMillis z) := by
  rw [List.map_map, List.map_map]
  rfl

/-- Shown sales are in the order of the query. -/
theorem pairwise_timestamp (hz : z.IsRegular) (ho : rows.Pairwise SaleRow.NoEarlier)
    (hs : ∀ r ∈ rows, r.soldAt.IsShown z) :
    (rows.map (ofRow z)).Pairwise fun a b => b.timestamp ≤ a.timestamp := by
  rw [List.pairwise_map]
  refine ho.imp_of_mem ?_
  intro a b ha hb hab
  exact LocalTime.epochMillis_le hz (hs b hb) (hs a ha) hab

theorem member?_timestamp (s : Sale) :
    s.toJson.member? "timestamp" = some (.int s.timestamp) := by
  rw [toJson, Json.member?_object]
  rfl

/-- Sales that look alike have the same timestamps. -/
theorem map_timestamp_eq {l l' : List Sale} (h : l.map toJson = l'.map toJson) :
    l.map timestamp = l'.map timestamp := by
  have hm := congrArg (List.map (Json.member? "timestamp")) h
  have hread : Json.member? "timestamp" ∘ toJson = (fun n => some (.int n)) ∘ timestamp := by
    funext s
    rw [Function.comp, member?_timestamp, Function.comp]
  rw [List.map_map, List.map_map, hread, ← List.map_map, ← List.map_map] at hm
  refine (List.map_inj_right ?_).mp hm
  intro a b hab
  exact Json.int.inj (Option.some.inj hab)

end Sale

end Report

section Body

open Report

variable {vs : List Json} {rows : List SaleRow}

theorem Template.body_itemized (view : Presentation)
    (h : readRows Template.itemized.rowTitle SaleRow.read vs = .ok rows) :
    Template.itemized.body view vs =
      .ok (.arr ((Sale.ofRows view.zone rows).map Sale.toJson)) := by
  rw [Template.body, h]
  rfl

/-- Of rows in the order of the query, those at clock times that are shown keep their order in a
report, and all rows do if none is at another time. What comes second in the order of the query,
such as the ids of sales, does not matter. -/
theorem itemized_keeps_order (view : Presentation) (hz : view.zone.IsRegular)
    (hr : readRows Template.itemized.rowTitle SaleRow.read vs = .ok rows)
    (ho : rows.Pairwise SaleRow.NoEarlier) :
    ∃ sales : List Sale, Template.itemized.body view vs = .ok (.arr (sales.map Sale.toJson)) ∧
      sales.Perm (rows.map (Sale.ofRow view.zone)) ∧
      ((rows.filter fun r => r.soldAt.IsShown view.zone).map (Sale.ofRow view.zone)).Sublist sales ∧
      ((∀ r ∈ rows, r.soldAt.IsShown view.zone) → sales = rows.map (Sale.ofRow view.zone)) := by
  have hshown : ∀ r ∈ rows.filter fun r => r.soldAt.IsShown view.zone,
      r.soldAt.IsShown view.zone := fun r hr => of_decide_eq_true (List.mem_filter.mp hr).2
  have hsub := Sale.sublist_ofRows (z := view.zone) List.filter_sublist
    (Sale.pairwise_timestamp hz (ho.sublist List.filter_sublist) hshown)
  refine ⟨_, Template.body_itemized view hr, Sale.perm_ofRows _ _, hsub, ?_⟩
  intro hall
  have hkept : rows.filter (fun r => r.soldAt.IsShown view.zone) = rows :=
    List.filter_eq_self.mpr fun r hr => decide_eq_true (hall r hr)
  rw [hkept] at hsub
  exact (hsub.eq_of_length (Sale.perm_ofRows _ _).length_eq.symm).symm

/-- The clocks of Central Europe. -/
theorem isRegular_centralEurope : (Zone.ofText "CET-1CEST,M3.5.0,M10.5.0/3").IsRegular := by
  have hz : Zone.ofText "CET-1CEST,M3.5.0,M10.5.0/3" = .changing ⟨3600, by decide⟩ 7200
      ⟨.weekday 3 5 0, 7200⟩ ⟨.weekday 10 5 0, 10800⟩ := by
    decide +kernel
  rw [hz]
  have hstart : (⟨.weekday 3 5 0, 7200⟩ : Changeover).InMonth 3 :=
    ⟨by decide, ⟨5, 0, by decide, rfl⟩, by decide⟩
  have hstop : (⟨.weekday 10 5 0, 10800⟩ : Changeover).InMonth 10 :=
    ⟨by decide, ⟨5, 0, by decide, rfl⟩, by decide⟩
  exact Zone.isRegular_changing hstart hstop (by decide) (by decide) (by decide) (by decide)

/-- Rows that can be read, by their days and times. -/
theorem readRows_of_map {times : List LocalTime}
    (h : (readRows Template.itemized.rowTitle SaleRow.read vs).map (List.map SaleRow.soldAt) =
      .ok times) :
    ∃ rows, readRows Template.itemized.rowTitle SaleRow.read vs = .ok rows ∧
      rows.map SaleRow.soldAt = times := by
  cases hr : readRows Template.itemized.rowTitle SaleRow.read vs with
  | error f =>
    rw [hr] at h
    cases h
  | ok rows =>
    rw [hr] at h
    exact ⟨rows, rfl, Except.ok.inj h⟩

/-- Fractions of one second in the hour that is passed twice, and the seconds before and after the
hour that is left out. -/
theorem sales_around_changes :
    let view : Presentation := ⟨.wholeDay, .ofText "CET-1CEST,M3.5.0,M10.5.0/3"⟩
    let row (day time : String) : Json :=
      .object [("sales_id", .int 1), ("business_date", .str day), ("start_time", .str time)]
    ∃ sales : List Sale, Template.itemized.body view
        [row "2025-10-26" "02:30:00.5", row "2025-10-26" "02:30:00", row "2025-03-30" "03:00:00",
          row "2025-03-30" "01:59:59"] = .ok (.arr (sales.map Sale.toJson)) ∧
      sales.map Sale.timestamp = [1761442200500, 1761442200000, 1743296400000, 1743296399000] := by
  intro view row
  have htimes : (readRows Template.itemized.rowTitle SaleRow.read
      [row "2025-10-26" "02:30:00.5", row "2025-10-26" "02:30:00", row "2025-03-30" "03:00:00",
        row "2025-03-30" "01:59:59"]).map (List.map SaleRow.soldAt) =
      .ok [⟨⟨2025, 10, 26, by decide, by decide⟩, ⟨9000, 500000000, by decide, by decide⟩⟩,
        ⟨⟨2025, 10, 26, by decide, by decide⟩, ⟨9000, 0, by decide, by decide⟩⟩,
        ⟨⟨2025, 3, 30, by decide, by decide⟩, ⟨10800, 0, by decide, by decide⟩⟩,
        ⟨⟨2025, 3, 30, by decide, by decide⟩, ⟨7199, 0, by decide, by decide⟩⟩] := by
    decide +kernel
  obtain ⟨rows, hr, ht⟩ := readRows_of_map htimes
  have ho : (rows.map SaleRow.soldAt).Pairwise fun a b => (b.compare a).isLE = true := by
    rw [ht]
    decide +kernel
  have hs : ∀ t ∈ rows.map SaleRow.soldAt, t.IsShown view.zone := by
    rw [ht]
    decide +kernel
  obtain ⟨sales, hbody, -, -, hall⟩ :=
    itemized_keeps_order view isRegular_centralEurope hr (SaleRow.pairwise_noEarlier ho)
  refine ⟨sales, hbody, ?_⟩
  rw [hall (List.forall_mem_map.mp hs), Sale.map_timestamp, ht]
  decide +kernel

/-- A sale in the hour that is left out is put before a later one. -/
theorem skipped_time_moves :
    let z := Zone.ofText "CET-1CEST,M3.5.0,M10.5.0/3"
    let row (id : Int) (time : String) : Json :=
      .object [("sales_id", .int id), ("business_date", .str "2025-03-30"),
        ("start_time", .str time)]
    z.IsRegular ∧ ∃ rows,
      readRows Template.itemized.rowTitle SaleRow.read [row 2 "03:30:00", row 1 "02:30:00"] =
        .ok rows ∧
      rows.Pairwise SaleRow.NoEarlier ∧ (∀ r ∈ rows, r.soldAt.time.nano = 0) ∧
      Template.itemized.body ⟨.wholeDay, z⟩ [row 2 "03:30:00", row 1 "02:30:00"] ≠
        .ok (.arr ((rows.map (Sale.ofRow z)).map Sale.toJson)) := by
  intro z row
  have htimes : (readRows Template.itemized.rowTitle SaleRow.read
      [row 2 "03:30:00", row 1 "02:30:00"]).map (List.map SaleRow.soldAt) =
      .ok [⟨⟨2025, 3, 30, by decide, by decide⟩, ⟨12600, 0, by decide, by decide⟩⟩,
        ⟨⟨2025, 3, 30, by decide, by decide⟩, ⟨9000, 0, by decide, by decide⟩⟩] := by
    decide +kernel
  obtain ⟨rows, hr, ht⟩ := readRows_of_map htimes
  have ho : (rows.map SaleRow.soldAt).Pairwise fun a b => (b.compare a).isLE = true := by
    rw [ht]
    decide +kernel
  have hn : ∀ t ∈ rows.map SaleRow.soldAt, t.time.nano = 0 := by
    rw [ht]
    decide
  refine ⟨isRegular_centralEurope, rows, hr, SaleRow.pairwise_noEarlier ho,
    List.forall_mem_map.mp hn, ?_⟩
  rw [Template.body_itemized _ hr]
  intro h
  have hstamps := Sale.map_timestamp_eq (Json.arr.inj (Except.ok.inj h))
  have hsorted : ((Sale.ofRows z rows).map Sale.timestamp).Pairwise fun a b => b ≤ a :=
    List.pairwise_map.mpr (Sale.pairwise_ofRows z rows)
  rw [hstamps, Sale.map_timestamp, ht] at hsorted
  revert hsorted
  decide +kernel

end Body

end Takings
