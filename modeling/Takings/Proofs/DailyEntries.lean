import Takings.Proofs.DateSpellings
import Takings.Proofs.RecordColumns
import Takings.Proofs.Sorting
import Takings.Proofs.WholeCents
import Takings.Report.Body

/-!
# The entries of the daily trend

Each row becomes one entry, which shows the day of the row in its canonical spelling however the row
spells it. Entries are in the order of the calendar, those of one day in the order of the rows, and
no day without a row has one.
-/
namespace Takings

open Json Sorting

namespace Date

variable {d e : Date}

/-- A day is another one or some days before it. -/
def NoLater (d e : Date) : Prop :=
  ∃ n, e.daysBack? n = some d

theorem noLater_iff : d.NoLater e ↔ d.dayNumber ≤ e.dayNumber := by
  simp only [NoLater, daysBack?_eq_some_iff]
  constructor
  · rintro ⟨n, hn⟩
    omega
  · intro h
    exact ⟨(e.dayNumber - d.dayNumber).toNat, by omega⟩

theorem NoLater.antisymm (h : d.NoLater e) (h' : e.NoLater d) : d = e :=
  dayNumber_inj.mp (Int.le_antisymm (noLater_iff.mp h) (noLater_iff.mp h'))

end Date

/-! ### Columns that are shown -/

namespace Json

theorem Kind.read_date_eq_ok_iff {v : Json} {d : Date} :
    date.read v = .ok d ↔ ∃ text, v = .str text ∧ d.Spells text.toList := by
  cases v with
  | str text =>
    show (Date.read text.toList).mapError DecodeError.badText = .ok d ↔ _
    rw [mapError_eq_ok_iff, Date.read_eq_ok_iff]
    simp
  | null | bool _ | int _ | float _ _ | arr _ | obj _ =>
    exact iff_of_false (fun h => nomatch h) fun ⟨_, h, _⟩ => nomatch h

end Json

/-! ### Entries -/

namespace Report

variable {v : Json} {row : DailyRow}

/-- An entry shows the columns of a row. The date texts of both spell the day of the entry and no
other one, and that of the entry is canonical; sales that are not there are zero. -/
structure DailyPoint.Shows (p : DailyPoint) (v : Json) : Prop where
  date : ∃ text shown, DailyRow.record.column? v "business_date" = some (.str text) ∧
    p.toJson.member? "date" = some (.str shown) ∧ p.date.IsCanonical shown.toList ∧
    ∀ d : Date, (d.Spells text.toList ↔ d = p.date) ∧ (d.Spells shown.toList ↔ d = p.date)
  read_date : ∃ shown, p.toJson.member? "date" = some shown ∧ Kind.date.read shown = .ok p.date
  totalSales : p.toJson.member? "totalSales" =
    some (.number (cents (amountOf (DailyRow.record.column? v "total_sales"))))
  inCents : IsInCents (amountOf (DailyRow.record.column? v "total_sales")) p.totalSales
  totalOrders : p.toJson.member? "totalOrders" =
    some ((DailyRow.record.column? v "total_orders").getD (.int 0))

theorem DailyPoint.member?_date (p : DailyPoint) :
    p.toJson.member? "date" = some (.str p.date.text) := by
  rw [toJson, member?_object]
  rfl

namespace DailyRow

theorem are_of_read (h : read v = .ok row) :
    Values.Are (record.column? v) record.fields
      (row.date, row.totalSales, row.totalOrders, ()) := by
  obtain ⟨⟨date, totalSales, totalOrders, ⟨⟩⟩, hx, rfl⟩ := map_eq_ok_iff.mp h
  exact Record.are_of_read (by decide) (by decide) hx

theorem shows_ofRow (h : read v = .ok row) : (DailyPoint.ofRow row).Shows v := by
  obtain ⟨hdate, hsales, horders, -⟩ := are_of_read h
  have hamount : row.totalSales.getD .zero = amountOf (record.column? v "total_sales") :=
    Field.getD_of_gets_amount hsales
  obtain ⟨w, hw, hread⟩ := Field.gets_required_iff.mp hdate
  obtain ⟨text, rfl, hspells⟩ := Kind.read_date_eq_ok_iff.mp hread
  have hshown : (DailyPoint.ofRow row).toJson.member? "date" = some (.str row.date.text) :=
    DailyPoint.member?_date _
  have hcanonical : row.date.IsCanonical row.date.text.toList := row.date.isCanonical_text
  constructor
  · exact ⟨text, _, hw, hshown, hcanonical, fun d =>
      ⟨hspells.iff_eq, hcanonical.spells.iff_eq⟩⟩
  · exact ⟨_, hshown, Kind.read_date_eq_ok_iff.mpr ⟨_, rfl, hcanonical.spells⟩⟩
  · rw [DailyPoint.toJson, member?_object]
    exact congrArg (some ∘ Json.number ∘ cents) hamount
  · rw [← hamount]
    exact isInCents_cents _
  · rw [DailyPoint.toJson, member?_object]
    exact congrArg some (Field.int_of_gets_count horders)

end DailyRow

namespace DailyPoint

/-- What the order of entries goes by. -/
def key (p : DailyPoint) : Int :=
  p.date.dayNumber

theorem ofRows_eq (rows : List DailyRow) : ofRows rows = sortBy key (rows.map ofRow) :=
  mergeSort_eq_sortBy fun a _ b _ => by
    rw [Bool.eq_iff_iff, Date.isLE_compare_iff, decide_eq_true_iff, key, key]

theorem perm_ofRows (rows : List DailyRow) : (ofRows rows).Perm (rows.map ofRow) :=
  List.mergeSort_perm _ _

theorem pairwise_ofRows (rows : List DailyRow) :
    (ofRows rows).Pairwise fun a b => a.date.NoLater b.date := by
  rw [ofRows_eq]
  exact (pairwise_sortBy key _).imp Date.noLater_iff.mpr

/-- Entries of one day keep the order of the rows. -/
theorem filter_ofRows (rows : List DailyRow) (d : Date) :
    (ofRows rows).filter (fun p => p.date = d) = (rows.map ofRow).filter fun p => p.date = d := by
  have hstable := filter_sortBy key (rows.map ofRow) d.dayNumber
  simp only [key, Date.dayNumber_inj] at hstable
  rw [ofRows_eq]
  exact hstable

end DailyPoint

end Report

section Body

open Report

variable {vs : List Json} {rows : List DailyRow}

theorem Template.body_dailyTrend (view : Presentation)
    (h : readRows Template.dailyTrend.rowTitle DailyRow.read vs = .ok rows) :
    Template.dailyTrend.body view vs =
      .ok (.arr ((DailyPoint.ofRows rows).map DailyPoint.toJson)) := by
  rw [Template.body, h]
  rfl

/-- Whatever rows are read, each one becomes an entry that shows its columns, and there are no other
ones. Entries are in the order of their days, and those of one day in the order of the rows. -/
theorem daily_trend_shows_days_of_rows (view : Presentation)
    (h : readRows Template.dailyTrend.rowTitle DailyRow.read vs = .ok rows) :
    let images := rows.map DailyPoint.ofRow
    ∃ points : List DailyPoint,
      Template.dailyTrend.body view vs = .ok (.arr (points.map DailyPoint.toJson)) ∧
      points.Perm images ∧
      points.Pairwise (fun a b => a.date.NoLater b.date) ∧
      (∀ d, points.filter (fun p => p.date = d) = images.filter fun p => p.date = d) ∧
      List.Forall₂ (fun v p => p.Shows v) vs images := by
  intro images
  refine ⟨DailyPoint.ofRows rows, Template.body_dailyTrend view h, DailyPoint.perm_ofRows _,
    DailyPoint.pairwise_ofRows _, DailyPoint.filter_ofRows _, ?_⟩
  rw [List.forall₂_map_right_iff]
  exact (readRows_eq_ok_iff.mp h).imp fun v r hr => DailyRow.shows_ofRow hr

/-- Days before the year zero and after the year 9999 stand where the calendar has them. -/
theorem days_stand_in_calendar_order :
    let rows : List Json :=
      [.object [("business_date", .str "+10000-01-02"), ("total_sales", .int 7)],
        .object [("business_date", .str " +2025 - 6- 01 "), ("total_sales", .null)],
        .object [("business_date", .str "-5-1-1"), ("total_orders", .int 3)],
        .arr [.str "9999-12-31"],
        .object [("business_date", .str "2025-06-01"), ("total_sales", .int (-2))],
        .object [("business_date", .str "-0005-12-31")]]
    ∃ points : List DailyPoint,
      Template.dailyTrend.body ⟨.wholeDay, .utc⟩ rows =
        .ok (.arr (points.map DailyPoint.toJson)) ∧
      points.map (fun p => p.toJson.member? "date") =
        ["-0005-01-01", "-0005-12-31", "2025-06-01", "2025-06-01", "9999-12-31",
          "+10000-01-02"].map (some ∘ Json.str) ∧
      (points.filter fun p => p.date = ⟨2025, 6, 1, by decide, by decide⟩).map
        DailyPoint.totalSales = [.zero, .ofInt (-2)] := by
  intro rows
  have hr : readRows Template.dailyTrend.rowTitle DailyRow.read rows =
      .ok [⟨⟨10000, 1, 2, by decide, by decide⟩, some (.ofInt 7), 0⟩,
        ⟨⟨2025, 6, 1, by decide, by decide⟩, none, 0⟩,
        ⟨⟨-5, 1, 1, by decide, by decide⟩, none, 3⟩,
        ⟨⟨9999, 12, 31, by decide, by decide⟩, none, 0⟩,
        ⟨⟨2025, 6, 1, by decide, by decide⟩, some (.ofInt (-2)), 0⟩,
        ⟨⟨-5, 12, 31, by decide, by decide⟩, none, 0⟩] := by
    decide +kernel
  obtain ⟨points, hbody, hperm, hsorted, hstable, -⟩ :=
    daily_trend_shows_days_of_rows ⟨.wholeDay, .utc⟩ hr
  have hdates : points.map DailyPoint.date =
      [⟨-5, 1, 1, by decide, by decide⟩, ⟨-5, 12, 31, by decide, by decide⟩,
        ⟨2025, 6, 1, by decide, by decide⟩, ⟨2025, 6, 1, by decide, by decide⟩,
        ⟨9999, 12, 31, by decide, by decide⟩, ⟨10000, 1, 2, by decide, by decide⟩] := by
    refine ((hperm.map DailyPoint.date).trans (by decide)).eq_of_pairwise
      (fun a b _ _ => Date.NoLater.antisymm) (List.pairwise_map.mpr hsorted) ?_
    simp only [Date.noLater_iff]
    decide
  refine ⟨points, hbody, ?_, ?_⟩
  · have hshown : points.map (fun p => p.toJson.member? "date") =
        ((points.map DailyPoint.date).map Date.text).map (some ∘ Json.str) := by
      rw [List.map_map, List.map_map]
      exact List.map_congr_left fun p _ => p.member?_date
    rw [hshown, hdates]
    exact congrArg (List.map _) (by decide +kernel)
  · rw [hstable]
    decide +kernel

end Body

end Takings
