import Takings.Calendar.Zone
import Takings.Json.Record
import Takings.Report.Amount

/-!
# Single sales

One entry for each sold item, the newest first. Entries of one instant keep the order of the
rows.
-/
namespace Takings.Report

open Json

/-- A sold item as a query gives it. -/
structure SaleRow where
  salesId : Json
  businessDate : Date
  startTime : Option TimeOfDay
  restaurantId : Option String
  machineId : Option String
  productId : Option String
  productName : Option String
  familyGroup : Option String
  dayPart : Option String
  transactionType : Option String
  deliveryChannel : Option String
  pod : Option String
  invoiceNumber : Json
  totalAmount : Option Binary64
  quantity : Option Binary64

namespace SaleRow

def record : Record where
  title := "RawSaleRow"
  fields :=
    [.required "sales_id" .json, .required "business_date" .date,
      .optional "start_time" .timeOrNull none, .optional "restaurant_id" .textOrNull none,
      .optional "machine_id" .textOrNull none, .optional "product_id" .textOrNull none,
      .optional "product_name" .textOrNull none, .optional "item_family_group" .textOrNull none,
      .optional "item_day_part" .textOrNull none, .optional "transaction_type" .textOrNull none,
      .optional "delivery_channel" .textOrNull none, .optional "pod" .textOrNull none,
      .optional "invoice_number" .json .null, .optional "total_amount" .amount none,
      .optional "item_qty" .amount none]

def read (v : Json) : Except DecodeError SaleRow :=
  (record.read v).map fun
    (salesId, businessDate, startTime, restaurantId, machineId, productId, productName,
      familyGroup, dayPart, transactionType, deliveryChannel, pod, invoiceNumber, totalAmount,
      quantity, ()) =>
    ⟨salesId, businessDate, startTime, restaurantId, machineId, productId, productName,
      familyGroup, dayPart, transactionType, deliveryChannel, pod, invoiceNumber, totalAmount,
      quantity⟩

/-- When an item was sold; without a time, at the start of the day. -/
def soldAt (r : SaleRow) : LocalTime :=
  ⟨r.businessDate, r.startTime.getD .midnight⟩

end SaleRow

/-- A sold item in a report. -/
structure Sale where
  id : Json
  restaurantId : Option String
  productId : Option String
  productName : Option String
  machineId : Option String
  transactionType : Option String
  deliveryChannel : Option String
  pod : Option String
  invoiceNumber : Json
  /-- Milliseconds since 1970-01-01 in Greenwich. -/
  timestamp : Int
  amount : Binary64
  quantity : Binary64
  familyGroup : Option String
  dayPart : Option String

namespace Sale

def ofRow (z : Zone) (r : SaleRow) : Sale where
  id := r.salesId
  restaurantId := r.restaurantId
  productId := r.productId
  productName := r.productName
  machineId := r.machineId
  transactionType := r.transactionType
  deliveryChannel := r.deliveryChannel
  pod := r.pod
  invoiceNumber := r.invoiceNumber
  timestamp := r.soldAt.epochMillis z
  amount := r.totalAmount.getD .zero
  quantity := r.quantity.getD .zero
  familyGroup := r.familyGroup
  dayPart := r.dayPart

def toJson (s : Sale) : Json :=
  .object
    [("id", s.id), ("restaurantId", textOrNull s.restaurantId),
      ("productId", textOrNull s.productId), ("productName", textOrNull s.productName),
      ("machineId", textOrNull s.machineId), ("transactionType", textOrNull s.transactionType),
      ("deliveryChannel", textOrNull s.deliveryChannel), ("pod", textOrNull s.pod),
      ("invoiceNumber", s.invoiceNumber), ("timestamp", .int s.timestamp),
      ("amount", .number s.amount), ("quantity", .number s.quantity),
      ("itemFamilyGroup", textOrNull s.familyGroup), ("itemDayPart", textOrNull s.dayPart)]

/-- The sales of rows, the newest first. -/
def ofRows (z : Zone) (rows : List SaleRow) : List Sale :=
  (rows.map (ofRow z)).mergeSort fun a b => b.timestamp ≤ a.timestamp

end Sale

end Takings.Report
