import Takings.Query.Run
import Takings.Query.Template
import Takings.Report.Breakdown
import Takings.Report.DailyTrend
import Takings.Report.HourlyTrend
import Takings.Report.Itemized
import Takings.Report.StoreSummary

/-!
# Bodies of reports

The body that the rows of a template's query make. All rows must be of the template's shape; the
first one that is not decides the failure.
-/
namespace Takings.Report

/-- How bodies are shown: the hours of the hourly trend and the zone of the clocks. -/
structure Presentation where
  hours : HourWindow
  zone : Zone
  deriving DecidableEq, Repr

end Takings.Report

namespace Takings.Template

open Report

/-- What the rows of a template are called in messages. -/
def rowTitle : Template → String
  | itemized => "sales row shape"
  | summary => "summary row shape"
  | dailyTrend => "daily trend row shape"
  | hourlyTrend => "hourly trend row shape"
  | breakdown _ _ => "breakdown row shape"
  | storeSummary => "store summary row shape"

def body (t : Template) (view : Presentation) (rows : List Json) : Except Failure Json :=
  match t with
  | itemized =>
    (readRows t.rowTitle SaleRow.read rows).map fun rows =>
      .arr ((Sale.ofRows view.zone rows).map Sale.toJson)
  | summary =>
    (readRows t.rowTitle SummaryRow.read rows).map fun rows => (Summary.ofRows rows).toJson
  | dailyTrend =>
    (readRows t.rowTitle DailyRow.read rows).map fun rows =>
      .arr ((DailyPoint.ofRows rows).map DailyPoint.toJson)
  | hourlyTrend =>
    (readRows t.rowTitle HourlyRow.read rows).map fun rows =>
      .arr ((HourlyPoint.ofRows view.hours rows).map HourlyPoint.toJson)
  | breakdown _ limit =>
    (readRows t.rowTitle BreakdownRow.read rows).map fun rows =>
      .arr ((Share.ofRows limit rows).map Share.toJson)
  | storeSummary =>
    (readRows t.rowTitle StoreRow.read rows).map fun rows =>
      .arr ((StoreSummary.ofRows rows).map StoreSummary.toJson)

end Takings.Template
