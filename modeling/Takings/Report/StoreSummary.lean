import Takings.Report.Summary

/-!
# Totals of each store

The stores with the totals of their sales, the greatest sales first and equal ones in the order
of the stores' ids.
-/
namespace Takings.Report

open Json

structure StoreRow where
  storeId : String
  storeCode : Option String
  city : Option String
  state : Option String
  totals : SummaryRow
  deriving DecidableEq, Repr

namespace StoreRow

def record : Record where
  title := "RawStoreSummaryRow"
  fields :=
    [.required "store_id" .text, .optional "store_code" .textOrNull none,
      .optional "city" .textOrNull none, .optional "state" .textOrNull none,
      .optional "total_sales" .amount none, .optional "total_orders" .count (0 : Int),
      .optional "total_invoices" .count (0 : Int)]

def read (v : Json) : Except DecodeError StoreRow :=
  (record.read v).map fun
    (storeId, storeCode, city, state, totalSales, totalOrders, totalInvoices, ()) =>
    ⟨storeId, storeCode, city, state, ⟨totalSales, totalOrders, totalInvoices⟩⟩

end StoreRow

structure StoreSummary where
  storeId : String
  storeCode : Option String
  city : Option String
  state : Option String
  totals : Summary
  deriving DecidableEq, Repr

namespace StoreSummary

def ofRow (r : StoreRow) : StoreSummary :=
  ⟨r.storeId, r.storeCode, r.city, r.state, .ofRow r.totals⟩

/-- Sales from great to small, then ids in ascending order. -/
def order (a b : StoreSummary) : Ordering :=
  ((b.totals.totalSales.compare? a.totals.totalSales).getD .eq).then
    (compare a.storeId b.storeId)

def ofRows (rows : List StoreRow) : List StoreSummary :=
  (rows.map ofRow).mergeSort fun a b => (order a b).isLE

def toJson (s : StoreSummary) : Json :=
  .object
    ([("storeId", .str s.storeId), ("storeCode", textOrNull s.storeCode),
      ("city", textOrNull s.city), ("state", textOrNull s.state)] ++ s.totals.members)

end StoreSummary

end Takings.Report
