import Takings.Proofs.FixedOffsets
import Takings.Proofs.ItemizedOrder
import Takings.Proofs.PlainValues
import Takings.Proofs.RecordValues

/-!
# The entries of single sales

Each row becomes one entry with its id and its invoice number, its texts and its amounts. Entries
are in the order of their timestamps, the newest first, and equal timestamps keep the order of the
rows. On clocks with a fixed offset the timestamp is the exact instant of the day and the time.
-/
namespace Takings

open Json Sorting

namespace Report

variable {v : Json} {row : SaleRow}

/-- The texts of a sale, each with its column. -/
def Sale.textColumns : List (String × String) :=
  [("restaurantId", "restaurant_id"), ("productId", "product_id"),
    ("productName", "product_name"), ("machineId", "machine_id"),
    ("transactionType", "transaction_type"), ("deliveryChannel", "delivery_channel"),
    ("pod", "pod"), ("itemFamilyGroup", "item_family_group"), ("itemDayPart", "item_day_part")]

/-- A sale shows its id and its invoice number, which may be any values, and the columns of a row.
What is not there is null, and an amount that is not there is zero. -/
structure Sale.Shows (s : Sale) (v : Json) : Prop where
  id : s.toJson.member? "id" = some s.id
  invoiceNumber : s.toJson.member? "invoiceNumber" = some s.invoiceNumber
  salesId : v.Plain → SaleRow.record.column? v "sales_id" = some s.id
  invoice : v.Plain → s.invoiceNumber = (SaleRow.record.column? v "invoice_number").getD .null
  text : ∀ e ∈ textColumns,
    s.toJson.member? e.1 = some ((SaleRow.record.column? v e.2).getD .null)
  amount : s.toJson.member? "amount" =
    some (.number (amountOf (SaleRow.record.column? v "total_amount")))
  quantity : s.toJson.member? "quantity" =
    some (.number (amountOf (SaleRow.record.column? v "item_qty")))
  timestamp : s.toJson.member? "timestamp" = some (.int s.timestamp)

/-- The timestamp of a row on clocks with an offset: the seconds since 1970-01-01 00:00:00 less the
offset, and the whole milliseconds of the fraction. If the calendar does not have the second in
Greenwich, where a leap second is within the second before, the offset is left out. -/
def SaleRow.IsStamp (r : SaleRow) (o : Offset) (stamp : Int) : Prop :=
  ∃ (days : Int) (hour minute second nano : Nat),
    r.businessDate.IsDay days ∧
    TimeOfDay.ofParts? hour minute second nano = some (r.startTime.getD .midnight) ∧
    (r.startTime = none → hour = 0 ∧ minute = 0 ∧ second = 0 ∧ nano = 0) ∧
    (LocalTime.IsSecond (86400 * days + (3600 * hour + 60 * minute + min second 59) - o.east) →
      stamp = (86400 * days + (3600 * hour + 60 * minute + second) - o.east) * 1000 +
        nano / 1000000) ∧
    (¬ LocalTime.IsSecond
        (86400 * days + (3600 * hour + 60 * minute + min second 59) - o.east) →
      stamp = (86400 * days + (3600 * hour + 60 * minute + second)) * 1000 + nano / 1000000)

namespace SaleRow

theorem are_of_read (h : read v = .ok row) :
    Values.Are (record.column? v) record.fields
      (row.salesId, row.businessDate, row.startTime, row.restaurantId, row.machineId,
        row.productId, row.productName, row.familyGroup, row.dayPart, row.transactionType,
        row.deliveryChannel, row.pod, row.invoiceNumber, row.totalAmount, row.quantity, ()) := by
  obtain ⟨⟨salesId, businessDate, startTime, restaurantId, machineId, productId, productName,
    familyGroup, dayPart, transactionType, deliveryChannel, pod, invoiceNumber, totalAmount,
    quantity, ⟨⟩⟩, hx, rfl⟩ := map_eq_ok_iff.mp h
  exact Record.are_of_read (by decide) (by decide) hx

theorem shows_ofRow (h : read v = .ok row) (z : Zone) : (Sale.ofRow z row).Shows v := by
  obtain ⟨hid, -, -, hrestaurant, hmachine, hproduct, hname, hfamily, hpart, htype, hchannel, hpod,
    hinvoice, hamount, hquantity, -⟩ := are_of_read h
  have hplain {name : String} (hv : v.Plain) : ∀ w ∈ record.column? v name, w.Plain :=
    fun w hw => Record.plain_of_column? hv hw
  constructor
  · rw [Sale.toJson, member?_object]
    rfl
  · rw [Sale.toJson, member?_object]
    rfl
  · exact fun hv => Field.eq_of_gets_json (hplain hv) hid
  · exact fun hv => Field.eq_getD_of_gets_json (hplain hv) hinvoice
  · intro e he
    rw [Sale.toJson, member?_object]
    simp only [Sale.textColumns, List.mem_cons, List.not_mem_nil, or_false] at he
    rcases he with rfl | rfl | rfl | rfl | rfl | rfl | rfl | rfl | rfl
    · exact congrArg some (Field.textOrNull_of_gets hrestaurant)
    · exact congrArg some (Field.textOrNull_of_gets hproduct)
    · exact congrArg some (Field.textOrNull_of_gets hname)
    · exact congrArg some (Field.textOrNull_of_gets hmachine)
    · exact congrArg some (Field.textOrNull_of_gets htype)
    · exact congrArg some (Field.textOrNull_of_gets hchannel)
    · exact congrArg some (Field.textOrNull_of_gets hpod)
    · exact congrArg some (Field.textOrNull_of_gets hfamily)
    · exact congrArg some (Field.textOrNull_of_gets hpart)
  · rw [Sale.toJson, member?_object]
    exact congrArg (some ∘ Json.number) (Field.getD_of_gets_amount hamount)
  · rw [Sale.toJson, member?_object]
    exact congrArg (some ∘ Json.number) (Field.getD_of_gets_amount hquantity)
  · exact Sale.member?_timestamp _

/-- A row has the parts of its time, and those of midnight if it has no time. -/
theorem exists_ofParts (h : read v = .ok row) : ∃ hour minute second nano,
    TimeOfDay.ofParts? hour minute second nano = some (row.startTime.getD .midnight) ∧
      (row.startTime = none → hour = 0 ∧ minute = 0 ∧ second = 0 ∧ nano = 0) := by
  obtain ⟨-, -, htime, -⟩ := are_of_read h
  cases ht : row.startTime with
  | none => exact ⟨0, 0, 0, 0, rfl, fun _ => ⟨rfl, rfl, rfl, rfl⟩⟩
  | some t =>
    rw [ht] at htime
    obtain ⟨-, hnone⟩ | ⟨w, -, hw⟩ := Field.gets_optional_iff.mp htime
    · cases hnone
    · have hread := Kind.orNull_eq_ok hw t rfl
      cases w with
      | str s =>
        obtain ⟨hour, minute, second, nano, hparts⟩ :=
          TimeOfDay.exists_ofParts_of_read (mapError_eq_ok_iff.mp hread)
        exact ⟨hour, minute, second, nano, hparts, fun hnone => nomatch hnone⟩
      | null | bool _ | int _ | float _ _ | arr _ | obj _ => cases hread

theorem isStamp_ofRow (h : read v = .ok row) {z : Zone} {o : Offset} (hz : z.HasOffset o) :
    row.IsStamp o (Sale.ofRow z row).timestamp := by
  obtain ⟨hour, minute, second, nano, hparts, hnone⟩ := exists_ofParts h
  have hday : row.soldAt.date.IsDay row.businessDate.dayNumber := Date.isDay_iff.mpr rfl
  obtain ⟨hin, hout⟩ := LocalTime.epochMillis_of_parts hz hday hparts
  exact ⟨_, hour, minute, second, nano, hday, hparts, hnone, hin, hout⟩

end SaleRow

/-- Sales with one timestamp keep the order of the rows. -/
theorem Sale.filter_ofRows (z : Zone) (rows : List SaleRow) (stamp : Int) :
    (ofRows z rows).filter (fun s => s.timestamp = stamp) =
      (rows.map (ofRow z)).filter fun s => s.timestamp = stamp := by
  rw [ofRows_eq]
  exact filter_sortBy key _ (OrderDual.toDual stamp)

end Report

section Body

open Report

variable {vs : List Json} {rows : List SaleRow}

/-- Whatever rows are read, each one becomes a sale that shows its columns; the sales are in the order
of their timestamps, the newest first, and those with one timestamp in the order of the rows. On
clocks with a fixed offset the timestamps are exact. -/
theorem itemized_shows_rows_newest_first (view : Presentation)
    (h : readRows Template.itemized.rowTitle SaleRow.read vs = .ok rows) :
    let images := rows.map (Sale.ofRow view.zone)
    ∃ sales : List Sale, Template.itemized.body view vs = .ok (.arr (sales.map Sale.toJson)) ∧
      sales.Perm images ∧
      sales.Pairwise (fun a b => b.timestamp ≤ a.timestamp) ∧
      (∀ stamp, sales.filter (fun s => s.timestamp = stamp) =
        images.filter fun s => s.timestamp = stamp) ∧
      List.Forall₂ (fun v s => s.Shows v) vs images ∧
      (∀ v ∈ vs, ∀ text, Json.read text = .ok v → v.Plain) ∧
      List.Forall₂ (fun r s => s.id = r.salesId ∧ s.invoiceNumber = r.invoiceNumber) rows images ∧
      ∀ o, view.zone.HasOffset o →
        List.Forall₂ (fun r s => r.IsStamp o s.timestamp) rows images := by
  intro images
  refine ⟨Sale.ofRows view.zone rows, Template.body_itemized view h, Sale.perm_ofRows _ _,
    Sale.pairwise_ofRows _ _, Sale.filter_ofRows _ _, ?_, fun v _ text hv => plain_of_read hv,
    ?_, fun o ho => ?_⟩
  · rw [List.forall₂_map_right_iff]
    exact (readRows_eq_ok_iff.mp h).imp fun v r hr => SaleRow.shows_ofRow hr view.zone
  · rw [List.forall₂_map_right_iff, List.forall₂_same]
    exact fun r _ => ⟨rfl, rfl⟩
  · rw [List.forall₂_map_right_iff, List.forall₂_same]
    exact forall_of_readRows h fun v r hr => SaleRow.isStamp_ofRow hr ho

/-- A leap second before 1970 ties with the first second after it, and a day of the year before year
zero is far below. -/
theorem leap_second_ties :
    let o : Offset := ⟨-18000, by decide⟩
    let view : Presentation := ⟨.wholeDay, .fixed o⟩
    let id := Json.object [("no", .arr [.int 1, .null])]
    let rows : List Json :=
      [.object [("sales_id", id), ("business_date", .str "1969-12-31"),
          ("start_time", .str "23:59:60.9999")],
        .object [("sales_id", .int 7), ("business_date", .str "-0001-02-28")],
        .object [("sales_id", .int 8), ("business_date", .str "1970-01-01"),
          ("start_time", .str "00:00:00.999000001")]]
    ∃ sales : List Sale, Template.itemized.body view rows = .ok (.arr (sales.map Sale.toJson)) ∧
      sales.map Sale.timestamp = [18000999, 18000999, -62193726000000] ∧
      (sales.filter fun s => s.timestamp = 18000999).map (fun s => s.toJson.member? "id") =
        [some id, some (.int 8)] ∧
      ∀ s ∈ sales, ∃ r : SaleRow, r.IsStamp o s.timestamp := by
  intro o view id rows
  have htimes : (readRows Template.itemized.rowTitle SaleRow.read rows).map
      (List.map SaleRow.soldAt) =
      .ok [⟨⟨1969, 12, 31, by decide, by decide⟩, ⟨86399, 1999900000, by decide, by decide⟩⟩,
        ⟨⟨-1, 2, 28, by decide, by decide⟩, ⟨0, 0, by decide, by decide⟩⟩,
        ⟨⟨1970, 1, 1, by decide, by decide⟩, ⟨0, 999000001, by decide, by decide⟩⟩] := by
    decide +kernel
  obtain ⟨read, hread, ht⟩ := readRows_of_map htimes
  obtain ⟨sales, hbody, hperm, hsorted, hstable, hshown, -, -, hexact⟩ :=
    itemized_shows_rows_newest_first view hread
  have hstamps : (read.map (Sale.ofRow view.zone)).map Sale.timestamp =
      [18000999, -62193726000000, 18000999] := by
    rw [Sale.map_timestamp, ht]
    decide +kernel
  refine ⟨sales, hbody, ?_, ?_, ?_⟩
  · have hdescending : (sales.map Sale.timestamp).Pairwise fun a b => b ≤ a :=
      List.pairwise_map.mpr hsorted
    have hstamped := hperm.map Sale.timestamp
    rw [hstamps] at hstamped
    exact (hstamped.trans (by decide)).eq_of_pairwise
      (fun a b _ _ hab hba => Int.le_antisymm hba hab) hdescending (by decide)
  · rw [hstable]
    obtain ⟨s₁, l, himages, h₁, hl⟩ := List.map_eq_cons_iff.mp hstamps
    obtain ⟨s₂, l, rfl, h₂, hl⟩ := List.map_eq_cons_iff.mp hl
    obtain ⟨s₃, l, rfl, h₃, hl⟩ := List.map_eq_cons_iff.mp hl
    rw [List.map_eq_nil_iff.mp hl] at himages
    rw [himages] at hshown ⊢
    simp only [rows, List.forall₂_cons] at hshown
    obtain ⟨hs₁, -, hs₃, -⟩ := hshown
    have hfilter : [s₁, s₂, s₃].filter (fun s => s.timestamp = 18000999) = [s₁, s₃] := by
      simp [h₁, h₂, h₃]
    have hid : id.Plain := plain_object (by decide) (by
      simp [Plain.arr, Plain.int, Plain.null])
    have hid₁ := hs₁.salesId (plain_object (by decide) (by simp [hid, Plain.str]))
    have hid₃ := hs₃.salesId (plain_object (by decide) (by simp [Plain.int, Plain.str]))
    rw [hfilter, List.map_cons, List.map_cons, List.map_nil, hs₁.id, hs₃.id, ← hid₁, ← hid₃]
    rfl
  · have hstamp := hexact o (Zone.hasOffset_fixed o)
    rw [List.forall₂_map_right_iff, List.forall₂_same] at hstamp
    intro s hs
    obtain ⟨r, hr, rfl⟩ := List.mem_map.mp (hperm.mem_iff.mp hs)
    exact ⟨r, hstamp r hr⟩

end Body

end Takings
