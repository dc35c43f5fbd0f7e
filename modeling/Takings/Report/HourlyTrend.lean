import Takings.Json.Record
import Takings.Report.Amount
import Takings.Word

/-!
# Totals of each hour

An entry for every hour of the day, zero where nothing was sold. A row whose hour is missing or
is no hour of the day counts for nothing.
-/
namespace Takings.Report

open Json

structure HourlyRow where
  hour : Option Int
  totalSales : Option Binary64
  totalOrders : Int
  deriving DecidableEq, Repr

namespace HourlyRow

def record : Record where
  title := "HourlyRow"
  fields :=
    [.optional "hour" .countOrNull none, .optional "total_sales" .amount none,
      .optional "total_orders" .count (0 : Int)]

def read (v : Json) : Except DecodeError HourlyRow :=
  (record.read v).map fun (hour, totalSales, totalOrders, ()) => ⟨hour, totalSales, totalOrders⟩

end HourlyRow

structure HourlyPoint where
  hour : Nat
  totalSales : Binary64
  totalOrders : Int
  deriving DecidableEq, Repr

/-- The hours from `first` to `last`, both included. -/
structure HourWindow where
  first : Nat
  last : Nat
  deriving DecidableEq, Repr

namespace HourWindow

def contains (w : HourWindow) (hour : Nat) : Bool :=
  w.first ≤ hour && hour ≤ w.last

def wholeDay : HourWindow :=
  ⟨0, 23⟩

end HourWindow

namespace HourlyPoint

def empty (hour : Nat) : HourlyPoint :=
  ⟨hour, .zero, 0⟩

/-- Adds a row; the sum of sales is rounded at every step. -/
def add (p : HourlyPoint) (r : HourlyRow) : HourlyPoint :=
  { p with
    totalSales := cents (p.totalSales.add (r.totalSales.getD .zero))
    totalOrders := Word.wrapSigned (p.totalOrders + r.totalOrders) }

/-- Adds a row to the entry at the place of its hour. A row without an hour, with one that is no
word of 32 bits or with one beyond the entries counts for nothing. -/
def count (points : List HourlyPoint) (r : HourlyRow) : List HourlyPoint :=
  match r.hour.bind Word.narrow? with
  | some hour => points.modify hour fun p => p.add r
  | none => points

/-- The entries of the whole day: all rows are added one after the other. -/
def day (rows : List HourlyRow) : List HourlyPoint :=
  rows.foldl count ((List.range 24).map empty)

/-- The entries of a part of the day. -/
def ofRows (w : HourWindow) (rows : List HourlyRow) : List HourlyPoint :=
  (day rows).filter fun p => w.contains p.hour

/-- The hour on a clock. -/
def label (p : HourlyPoint) : String :=
  String.ofList (Text.padded 2 p.hour ++ [':', '0', '0'])

def toJson (p : HourlyPoint) : Json :=
  .object
    [("hour", .int p.hour), ("label", .str p.label), ("totalSales", .number p.totalSales),
      ("totalOrders", .int p.totalOrders)]

end HourlyPoint

end Takings.Report
