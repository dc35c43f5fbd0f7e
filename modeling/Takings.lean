import Takings.Word
import Takings.Failure
import Takings.Abort
import Takings.Text.Ascii
import Takings.Text.Blank
import Takings.Text.Numeral
import Takings.Text.Split
import Takings.Text.Utf8
import Takings.Text.Base64
import Takings.Text.Percent
import Takings.Text.Printable
import Takings.Text.Quoted
import Takings.Binary64.Basic
import Takings.Binary64.Decimal
import Takings.Binary64.Shortest
import Takings.Calendar.Date
import Takings.Calendar.Scan
import Takings.Calendar.DateText
import Takings.Calendar.TimeOfDay
import Takings.Calendar.Zone
import Takings.Calendar.ZoneText
import Takings.Calendar.Period
import Takings.Json.Syntax
import Takings.Json.Value
import Takings.Json.Writer
import Takings.Json.Fault
import Takings.Json.Reader
import Takings.Json.Kind
import Takings.Json.Record
import Takings.Schema
import Takings.Filter.Axis
import Takings.Filter.Scalar
import Takings.Filter.Level
import Takings.Filter.Active
import Takings.Filter.Params
import Takings.Filter.Composite
import Takings.Filter.Spec
import Takings.Query.Bind
import Takings.Query.Predicate
import Takings.Query.Placeholder
import Takings.Query.Cursor
import Takings.Query.Statement
import Takings.Query.Template
import Takings.Query.Run
import Takings.Query.Script
import Takings.Report.Amount
import Takings.Report.Itemized
import Takings.Report.Summary
import Takings.Report.StoreSummary
import Takings.Report.DailyTrend
import Takings.Report.HourlyTrend
import Takings.Report.Breakdown
import Takings.Report.Body
import Takings.Report.Catalogue
import Takings.Settings.Address
import Takings.Settings.Environment
import Takings.Settings.Basic
import Takings.Options
import Takings.Cache.Basic
import Takings.Cache.Flight
import Takings.Engine
import Takings.Session
import Takings.Http.Form
import Takings.Http.Message
import Takings.Http.Cors
import Takings.Http.Router
import Takings.Connection.Option
import Takings.Connection.Pairs
import Takings.Connection.Url
import Takings.Connection.Text
import Takings.Connection.File
import Takings.Connection.Pem
import Takings.Connection.Pool
import Takings.Proofs.Placeholders
import Takings.Proofs.Sites
import Takings.Proofs.FilterSpec
import Takings.Proofs.FlightOrder
import Takings.Proofs.SingleFlight
import Takings.Proofs.QueryShape
import Takings.Proofs.CanonicalPredicate
import Takings.Proofs.ColumnNames
import Takings.Proofs.JoinedDimensions
import Takings.Proofs.Lookups
import Takings.Proofs.LookupRows
import Takings.Proofs.Sessions
import Takings.Proofs.CompositeText
import Takings.Proofs.OfferedFilters
import Takings.Proofs.ParameterNames
import Takings.Proofs.Responses
import Takings.Proofs.FullSpread
import Takings.Proofs.TextBytes
import Takings.Proofs.ParameterValues
import Takings.Proofs.WrittenForms
import Takings.Proofs.ReportRequests
import Takings.Proofs.Outcomes
import Takings.Proofs.EnvironmentNumbers
import Takings.Proofs.Rounding
import Takings.Proofs.RecordValues
import Takings.Proofs.HourlyEntries
import Takings.Proofs.KeepingTimes
import Takings.Proofs.Sorting
import Takings.Proofs.AmountOrder
import Takings.Proofs.BreakdownOrder
import Takings.Proofs.BreakdownLimit
import Takings.Proofs.Dates
import Takings.Proofs.DaysBack
import Takings.Proofs.PeriodWindows
import Takings.Proofs.ObjectMembers
import Takings.Proofs.ClockTimes
import Takings.Proofs.ItemizedOrder
import Takings.Proofs.FilterHistory
import Takings.Proofs.JsonTokens
import Takings.Proofs.JsonGrammar
import Takings.Proofs.CompositeValues
import Takings.Proofs.CompositeForms
import Takings.Proofs.CompositeConditions
import Takings.Proofs.DecimalTexts
import Takings.Proofs.NumericCodes
import Takings.Proofs.AllowedOrigins
import Takings.Proofs.RecordColumns
import Takings.Proofs.StoreTotals
import Takings.Proofs.PlainValues
import Takings.Proofs.FixedOffsets
import Takings.Proofs.ItemizedEntries
import Takings.Proofs.LoadedOptions
import Takings.Proofs.ScannedParts
import Takings.Proofs.DateSpellings
import Takings.Proofs.TimeSpellings
import Takings.Proofs.WholeCents
import Takings.Proofs.DailyEntries
import Takings.Proofs.ColumnValues
import Takings.Proofs.OpenedValues
import Takings.Proofs.DecodableRows
import Takings.Proofs.TextMembers
import Takings.Proofs.ParameterForms
import Takings.Proofs.GrantedOrigins
import Takings.Proofs.ClientIdentity
import Takings.Proofs.OccurringNumbers
import Takings.Proofs.GreatestPlaceholder
