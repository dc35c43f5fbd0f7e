import Takings.Query.Statement

/-!
# Query templates

The kinds of queries that reports are made of. A template fixes what is selected and how it is
grouped and ordered; a predicate adds the clauses and the dimensions that they need.
-/
namespace Takings

/-- What a breakdown tells apart. -/
inductive Grouping where
  | restaurant
  | productName
  | familyGroup
  | dayPart
  | saleType
  | deliveryChannel
  | pod
  deriving DecidableEq, Repr

def Grouping.column : Grouping → Column
  | restaurant => .storeId
  | productName => .itemDescription
  | familyGroup => .familyGroup
  | dayPart => .dayPart
  | saleType => .saleType
  | deliveryChannel => .deliveryChannel
  | pod => .pod

inductive Template where
  | itemized
  | summary
  | dailyTrend
  | hourlyTrend
  /-- Totals for each value of a column, the greatest first; a limit keeps only so many. -/
  | breakdown (grouping : Grouping) (limit : Option Int)
  | storeSummary
  deriving DecidableEq, Repr

/-- A statement with the values bound to its placeholders. -/
structure Query where
  statement : Statement
  binds : List Bind
  deriving DecidableEq, Repr

def Query.sql (q : Query) : String :=
  q.statement.sql

namespace Template

def totalSales : Selection :=
  .named (.sum .totalAmount) "total_sales"

def totalSalesOrZero : Selection :=
  .named (.sumOrZero .totalAmount) "total_sales"

def totalOrders : Selection :=
  .named (.countDistinct .salesId) "total_orders"

def totalInvoices : Selection :=
  .named (.countDistinct .invoiceNumber) "total_invoices"

def select : Template → List Selection
  | itemized =>
    [.plain .salesId, .plain .businessDate, .plain .startTime,
      .named (.column .storeId) "restaurant_id", .named (.column .machineNode) "machine_id",
      .named (.column .itemCode) "product_id", .named (.column .itemDescription) "product_name",
      .plain .familyGroup, .plain .dayPart, .named (.column .saleType) "transaction_type",
      .plain .deliveryChannel, .plain .pod, .plain .invoiceNumber, .plain .totalAmount,
      .plain .itemQty]
  | summary => [totalSalesOrZero, totalOrders, totalInvoices]
  | dailyTrend => [.named (.column .businessDate) "business_date", totalSales, totalOrders]
  | hourlyTrend => [.named (.hour .startTime) "hour", totalSales, totalOrders]
  | breakdown g _ =>
    [.named (.label g.column) "label", totalSales, totalOrders,
      .named (.sum .itemQty) "total_quantity"]
  | storeSummary =>
    [.named (.column .storeId) "store_id", .plain .storeCode, .plain .storeCity,
      .plain .storeState, totalSalesOrZero, totalOrders, totalInvoices]

/-- The dimensions that a template needs for itself. -/
def joins : Template → Joins
  | itemized => (Joins.empty.insert .item).require .machineNode
  | summary | dailyTrend | hourlyTrend => .empty
  | breakdown g _ => Joins.empty.require g.column
  | storeSummary => Joins.empty.insert .store

def group : Template → List Key
  | itemized | summary => []
  | dailyTrend => [.column .businessDate]
  | hourlyTrend => [.place 1]
  | breakdown g _ => [.column g.column]
  | storeSummary => [.column .storeId, .column .storeCode, .column .storeCity, .column .storeState]

def order : Template → List Order
  | itemized =>
    [.falling (.column .businessDate), .falling (.column .startTime), .falling (.column .salesId)]
  | summary => []
  | dailyTrend => [.rising (.column .businessDate)]
  | hourlyTrend => [.rising (.place 1)]
  | breakdown _ _ => [.falling (.name "total_sales"), .rising (.name "label")]
  | storeSummary => [.falling (.name "total_sales"), .rising (.column .storeId)]

def limit? : Template → Option Int
  | breakdown _ limit => limit
  | _ => none

/-- The query for a predicate; `next` is the first placeholder that the predicate leaves free.
The days of a window are columns of time, so time is always joined. -/
def build (t : Template) (p : Predicate) (next : Nat) : Query where
  statement :=
    { select := t.select
      joins := (t.joins.insert .time).union p.joins
      predicate := p
      group := t.group
      order := t.order
      limit := t.limit?.map fun _ => next }
  binds := p.binds ++ t.limit?.toList.map Bind.int

end Template

end Takings
