import Takings.Calendar.Period
import Takings.Query.Template

/-!
# The reports

Every report with its path, its template and the axis whose filters it leaves out, and the query
that it makes of request parameters on a day.
-/
namespace Takings

inductive Report where
  | sales
  | summary
  | dailyTrend
  | hourlyTrend
  | byRestaurant
  | byProduct
  | byDescription
  | byFamilyGroup
  | byDayPart
  | bySaleType
  | byDeliveryChannel
  | byPod
  | ownerStoreSummary
  deriving DecidableEq, Repr

namespace Report

open Takings.Filter

def all : List Report :=
  [sales, summary, dailyTrend, hourlyTrend, byRestaurant, byProduct, byDescription,
    byFamilyGroup, byDayPart, bySaleType, byDeliveryChannel, byPod, ownerStoreSummary]

def path : Report → String
  | sales => "/api/sales"
  | summary => "/api/sales/summary"
  | dailyTrend => "/api/sales/daily-trend"
  | hourlyTrend => "/api/sales/hourly-trend"
  | byRestaurant => "/api/sales/by-restaurant"
  | byProduct => "/api/sales/by-product"
  | byDescription => "/api/product/by-description"
  | byFamilyGroup => "/api/product/by-family-group"
  | byDayPart => "/api/product/by-day-part"
  | bySaleType => "/api/sales/by-sale-type"
  | byDeliveryChannel => "/api/sales/by-delivery-channel"
  | byPod => "/api/sales/by-pod"
  | ownerStoreSummary => "/api/sales/by-oc-om-store-summary"

/-- How many products the list of top products has. -/
def topProducts : Int :=
  5

def template : Report → Template
  | sales => .itemized
  | summary => .summary
  | dailyTrend => .dailyTrend
  | hourlyTrend => .hourlyTrend
  | byRestaurant => .breakdown .restaurant none
  | byProduct => .breakdown .productName (some topProducts)
  | byDescription => .breakdown .productName none
  | byFamilyGroup => .breakdown .familyGroup none
  | byDayPart => .breakdown .dayPart none
  | bySaleType => .breakdown .saleType none
  | byDeliveryChannel => .breakdown .deliveryChannel none
  | byPod => .breakdown .pod none
  | ownerStoreSummary => .storeSummary

/-- The axis whose filters a report leaves out, to show its full spread. -/
def excluded? : Report → Option Axis
  | byRestaurant => some .store
  | byDescription => some .productName
  | byFamilyGroup => some .familyGroup
  | byDayPart => some .dayPart
  | bySaleType => some .saleType
  | byDeliveryChannel => some .deliveryChannel
  | byPod => some .pod
  | sales | summary | dailyTrend | hourlyTrend | byProduct | ownerStoreSummary => none

/-- The filters of a request that count for a report. -/
def spec (r : Report) (p : Params) : Spec :=
  match r.excluded? with
  | some a => (Spec.ofParams p).without a
  | none => Spec.ofParams p

/-- The query of a report; none if the window of days would begin outside the calendar. -/
def build? (r : Report) (p : Params) (today : Date) : Option Query :=
  ((Period.ofText p.timePeriod).window? today).map fun w =>
    let n := compile (r.spec p) w 1
    r.template.build n.predicate n.next

end Report

end Takings
