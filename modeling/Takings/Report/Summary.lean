import Takings.Json.Record
import Takings.Report.Amount

/-!
# Totals

The totals of all sales in a window. Without a row all of them are zero.
-/
namespace Takings.Report

open Json

structure SummaryRow where
  totalSales : Option Binary64
  totalOrders : Int
  totalInvoices : Int
  deriving DecidableEq, Repr

namespace SummaryRow

def record : Record where
  title := "SummaryRow"
  fields :=
    [.optional "total_sales" .amount none, .optional "total_orders" .count (0 : Int),
      .optional "total_invoices" .count (0 : Int)]

def read (v : Json) : Except DecodeError SummaryRow :=
  (record.read v).map fun (totalSales, totalOrders, totalInvoices, ()) =>
    ⟨totalSales, totalOrders, totalInvoices⟩

def zero : SummaryRow :=
  ⟨none, 0, 0⟩

end SummaryRow

structure Summary where
  totalSales : Binary64
  totalOrders : Int
  averageOrder : Binary64
  totalInvoices : Int
  deriving DecidableEq, Repr

namespace Summary

/-- The totals of a row; the average is taken before rounding. -/
def ofRow (r : SummaryRow) : Summary where
  totalSales := cents (r.totalSales.getD .zero)
  totalOrders := r.totalOrders
  averageOrder := cents (perOrder (r.totalSales.getD .zero) r.totalOrders)
  totalInvoices := r.totalInvoices

/-- The totals of the first row. -/
def ofRows (rows : List SummaryRow) : Summary :=
  ofRow (rows.head?.getD .zero)

def members (s : Summary) : List (String × Json) :=
  [("totalSales", .number s.totalSales), ("totalOrders", .int s.totalOrders),
    ("avgOrderValue", .number s.averageOrder), ("totalInvoices", .int s.totalInvoices)]

def toJson (s : Summary) : Json :=
  .object s.members

end Summary

end Takings.Report
