import CardCatalog.Calendar.Date
import CardCatalog.Calendar.Reading
import CardCatalog.Fault
import CardCatalog.FirstOccurrence
import CardCatalog.Http.Message
import CardCatalog.Http.Query
import CardCatalog.Http.Route
import CardCatalog.Http.Server
import CardCatalog.Json.Basic
import CardCatalog.Json.Reader
import CardCatalog.Json.Shown
import CardCatalog.Json.Writer
import CardCatalog.Kind
import CardCatalog.Lookup
import CardCatalog.Number.Binary64
import CardCatalog.Number.Decimal
import CardCatalog.Number.Integer
import CardCatalog.Number.Rounding
import CardCatalog.Number.Shortest
import CardCatalog.Operation
import CardCatalog.Page
import CardCatalog.Presentation
import CardCatalog.Record
import CardCatalog.Schema.Layout
import CardCatalog.Schema.Migration
import CardCatalog.Session.Basic
import CardCatalog.Session.Operations
import CardCatalog.Settings.Basic
import CardCatalog.Settings.Environment
import CardCatalog.Size
import CardCatalog.Store.Assembly
import CardCatalog.Store.Basic
import CardCatalog.Store.Lookups
import CardCatalog.Store.Records
import CardCatalog.Store.Repair
import CardCatalog.Submission
import CardCatalog.Table
import CardCatalog.TableName
import CardCatalog.Text.Blank
import CardCatalog.Text.Bytes
import CardCatalog.Text.Casing
import CardCatalog.Text.CommaList
import CardCatalog.Text.Digit
import CardCatalog.Text.Encoding
import CardCatalog.Text.Lower
import CardCatalog.Text.Part
import CardCatalog.Text.Printable
import CardCatalog.Text.Quoted
import CardCatalog.Text.Utf8
import CardCatalog.Text.Wide
import CardCatalog.Validation.Forms
import CardCatalog.Validation.Issue
import CardCatalog.Validation.Rule
import CardCatalog.Proofs.Edits
import CardCatalog.Proofs.Soundness
import CardCatalog.Proofs.BrokenReferences
import CardCatalog.Proofs.KeyCounts
import CardCatalog.Proofs.Enrolment
import CardCatalog.Proofs.Writing
import CardCatalog.Proofs.Portrait
import CardCatalog.Proofs.SubmissionOrder
import CardCatalog.Proofs.Rewriting
import CardCatalog.Proofs.Checks
import CardCatalog.Proofs.ValidForms
import CardCatalog.Proofs.ServiceFaults
import CardCatalog.Proofs.StableIds
import CardCatalog.Proofs.Sessions
import CardCatalog.Proofs.NoTrace
import CardCatalog.Proofs.RoundTrip
import CardCatalog.Proofs.Presentable
import CardCatalog.Proofs.Requests
import CardCatalog.Proofs.Pages
import CardCatalog.Proofs.Searching
import CardCatalog.Proofs.Protection
import CardCatalog.Proofs.ServerErrors
import CardCatalog.Proofs.Uses
import CardCatalog.Proofs.References
import CardCatalog.Proofs.Isolation
import CardCatalog.Proofs.LostRows
import CardCatalog.Proofs.ReusedIds
import CardCatalog.Proofs.Retries
import CardCatalog.Proofs.FaultReports
import CardCatalog.Proofs.Addresses
import CardCatalog.Proofs.QueryFields
import CardCatalog.Proofs.Walks
import CardCatalog.Proofs.GrowingListings
import CardCatalog.Proofs.RecordHistory
import CardCatalog.Proofs.Transactions
import CardCatalog.Proofs.AddedLinks
import CardCatalog.Proofs.Deletions
import CardCatalog.Proofs.Merging
import CardCatalog.Proofs.Revisions
import CardCatalog.Proofs.LinksAtCreation
import CardCatalog.Proofs.StoredPages
import CardCatalog.Proofs.PageLinks
import CardCatalog.Proofs.Filters
import CardCatalog.Proofs.NearestDoubles
import CardCatalog.Proofs.SizeRounding
import CardCatalog.Proofs.StoredSizes
import CardCatalog.Proofs.ObjectFields
import CardCatalog.Proofs.Spelling
import CardCatalog.Proofs.SettingPaths
import CardCatalog.Proofs.SettingGroups
import CardCatalog.Proofs.Loading
import CardCatalog.Proofs.DatabaseAddress
import CardCatalog.Proofs.ListVariables
import CardCatalog.Proofs.ShortIntegers
import CardCatalog.Proofs.PageCap
import CardCatalog.Proofs.CommaLists
import CardCatalog.Proofs.KindNames
import CardCatalog.Proofs.FetchedPages
import CardCatalog.Proofs.FirstReferences
