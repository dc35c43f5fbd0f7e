import Takings.Json.Record
import Takings.Report.Amount

/-!
# Totals of each day

The days with sales in chronological order. A day without sales has no entry.
-/
namespace Takings.Report

open Json

structure DailyRow where
  date : Date
  totalSales : Option Binary64
  totalOrders : Int
  deriving DecidableEq, Repr

namespace DailyRow

def record : Record where
  title := "DailyRow"
  fields :=
    [.required "business_date" .date, .optional "total_sales" .amount none,
      .optional "total_orders" .count (0 : Int)]

def read (v : Json) : Except DecodeError DailyRow :=
  (record.read v).map fun (date, totalSales, totalOrders, ()) => ⟨date, totalSales, totalOrders⟩

end DailyRow

structure DailyPoint where
  date : Date
  totalSales : Binary64
  totalOrders : Int
  deriving DecidableEq, Repr

namespace DailyPoint

def ofRow (r : DailyRow) : DailyPoint :=
  ⟨r.date, cents (r.totalSales.getD .zero), r.totalOrders⟩

def ofRows (rows : List DailyRow) : List DailyPoint :=
  (rows.map ofRow).mergeSort fun a b => (a.date.compare b.date).isLE

def toJson (p : DailyPoint) : Json :=
  .object
    [("date", .str p.date.text), ("totalSales", .number p.totalSales),
      ("totalOrders", .int p.totalOrders)]

end DailyPoint

end Takings.Report
