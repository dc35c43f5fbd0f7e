import Takings.Json.Record
import Takings.Query.Statement
import Takings.Report.Amount

/-!
# Totals of each label

The labels with the totals of their sales, the greatest sales first and equal ones in the order
of the labels. A limit keeps that many of them.
-/
namespace Takings.Report

open Json

structure BreakdownRow where
  label : Option String
  totalSales : Option Binary64
  totalOrders : Int
  totalQuantity : Option Binary64
  deriving DecidableEq, Repr

namespace BreakdownRow

def record : Record where
  title := "RawBreakdownRow"
  fields :=
    [.optional "label" .textOrNull none, .optional "total_sales" .amount none,
      .optional "total_orders" .count (0 : Int), .optional "total_quantity" .amount none]

def read (v : Json) : Except DecodeError BreakdownRow :=
  (record.read v).map fun (label, totalSales, totalOrders, totalQuantity, ()) =>
    ⟨label, totalSales, totalOrders, totalQuantity⟩

end BreakdownRow

/-- The totals of a label. -/
structure Share where
  label : String
  totalSales : Binary64
  totalOrders : Int
  totalQuantity : Binary64
  deriving DecidableEq, Repr

namespace Share

def ofRow (r : BreakdownRow) : Share where
  label := r.label.getD unknownLabel
  totalSales := cents (r.totalSales.getD .zero)
  totalOrders := r.totalOrders
  totalQuantity := r.totalQuantity.getD .zero

/-- Sales from great to small, then labels in ascending order. -/
def order (a b : Share) : Ordering :=
  ((b.totalSales.compare? a.totalSales).getD .eq).then (compare a.label b.label)

def sorted (shares : List Share) : List Share :=
  shares.mergeSort fun a b => (order a b).isLE

/-- Keeps so many; a limit below zero keeps all. -/
def cut (limit : Option Int) (shares : List Share) : List Share :=
  match limit with
  | some (.ofNat n) => shares.take n
  | _ => shares

def ofRows (limit : Option Int) (rows : List BreakdownRow) : List Share :=
  cut limit (sorted (rows.map ofRow))

def toJson (s : Share) : Json :=
  .object
    [("label", .str s.label), ("totalSales", .number s.totalSales),
      ("totalOrders", .int s.totalOrders), ("totalQuantity", .number s.totalQuantity)]

end Share

end Takings.Report
