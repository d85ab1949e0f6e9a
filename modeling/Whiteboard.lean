import Whiteboard.Address.Escape
import Whiteboard.Address.Host
import Whiteboard.Address.Url
import Whiteboard.Canvas.Apply
import Whiteboard.Canvas.Context
import Whiteboard.Canvas.ContextJson
import Whiteboard.Canvas.Convert
import Whiteboard.Canvas.Element
import Whiteboard.Canvas.ElementJson
import Whiteboard.Canvas.Error
import Whiteboard.Canvas.Layout
import Whiteboard.Canvas.Merge
import Whiteboard.Canvas.Record
import Whiteboard.Canvas.Remap
import Whiteboard.Canvas.Scene
import Whiteboard.Canvas.SceneJson
import Whiteboard.Canvas.Skeleton
import Whiteboard.Canvas.SkeletonJson
import Whiteboard.Canvas.Snapshot
import Whiteboard.Canvas.SnapshotJson
import Whiteboard.Canvas.Store
import Whiteboard.Canvas.Transform
import Whiteboard.Diagram.Direction
import Whiteboard.Diagram.Document
import Whiteboard.Diagram.DocumentJson
import Whiteboard.Diagram.Grammar
import Whiteboard.Diagram.Label
import Whiteboard.Diagram.Line
import Whiteboard.Diagram.Printer
import Whiteboard.Diagram.Scan
import Whiteboard.Diagram.Shape
import Whiteboard.Diagram.Spec
import Whiteboard.Diagram.SpecJson
import Whiteboard.Diagram.Statement
import Whiteboard.Except
import Whiteboard.Generation.Backoff
import Whiteboard.Generation.Guard
import Whiteboard.Generation.Proposal
import Whiteboard.Generation.Request
import Whiteboard.Generation.Transport
import Whiteboard.Ids.Check
import Whiteboard.Ids.Edge
import Whiteboard.Ids.ReportJson
import Whiteboard.Json.Decode
import Whiteboard.Json.Reader
import Whiteboard.Json.Token
import Whiteboard.Json.Value
import Whiteboard.Json.Writer
import Whiteboard.Lint.Check
import Whiteboard.Lint.Fault
import Whiteboard.Lint.Report
import Whiteboard.Lint.ReportJson
import Whiteboard.Number.Numeral
import Whiteboard.Number.Power
import Whiteboard.Number.Rounding
import Whiteboard.Number.Shortest
import Whiteboard.Proofs.Canvas.Atomicity
import Whiteboard.Proofs.Canvas.Canonical
import Whiteboard.Proofs.Canvas.Cells
import Whiteboard.Proofs.Canvas.Conversion
import Whiteboard.Proofs.Canvas.Difference
import Whiteboard.Proofs.Canvas.Drawing
import Whiteboard.Proofs.Canvas.Element
import Whiteboard.Proofs.Canvas.Filing
import Whiteboard.Proofs.Canvas.Fulfilment
import Whiteboard.Proofs.Canvas.Isomorphism
import Whiteboard.Proofs.Canvas.Layering
import Whiteboard.Proofs.Canvas.Layout
import Whiteboard.Proofs.Canvas.Matching
import Whiteboard.Proofs.Canvas.Membership
import Whiteboard.Proofs.Canvas.Merge
import Whiteboard.Proofs.Canvas.Naming
import Whiteboard.Proofs.Canvas.Outline
import Whiteboard.Proofs.Canvas.Projection
import Whiteboard.Proofs.Canvas.Realisation
import Whiteboard.Proofs.Canvas.Redrawing
import Whiteboard.Proofs.Canvas.Remapping
import Whiteboard.Proofs.Canvas.Renaming
import Whiteboard.Proofs.Canvas.Retention
import Whiteboard.Proofs.Canvas.Saving
import Whiteboard.Proofs.Canvas.Slots
import Whiteboard.Proofs.Canvas.Survival
import Whiteboard.Proofs.Canvas.Transaction
import Whiteboard.Proofs.Diagram.Chain
import Whiteboard.Proofs.Diagram.Column
import Whiteboard.Proofs.Diagram.Content
import Whiteboard.Proofs.Diagram.Label
import Whiteboard.Proofs.Diagram.Line
import Whiteboard.Proofs.Diagram.Numbering
import Whiteboard.Proofs.Diagram.Occurrence
import Whiteboard.Proofs.Diagram.Printer
import Whiteboard.Proofs.Diagram.Quotation
import Whiteboard.Proofs.Diagram.Rereading
import Whiteboard.Proofs.Diagram.RoundTrip
import Whiteboard.Proofs.Diagram.Rounds
import Whiteboard.Proofs.Diagram.Scan
import Whiteboard.Proofs.Diagram.Spelling
import Whiteboard.Proofs.Diagram.Statement
import Whiteboard.Proofs.Diagram.WellFormed
import Whiteboard.Proofs.Diagram.Written
import Whiteboard.Proofs.Generation.Calls
import Whiteboard.Proofs.Generation.Delivery
import Whiteboard.Proofs.Generation.Endings
import Whiteboard.Proofs.Generation.Returns
import Whiteboard.Proofs.History
import Whiteboard.Proofs.Ids.Allocation
import Whiteboard.Proofs.Ids.Approval
import Whiteboard.Proofs.Ids.Edge
import Whiteboard.Proofs.Ids.Nodes
import Whiteboard.Proofs.Ids.Numbered
import Whiteboard.Proofs.Ids.Suggestion
import Whiteboard.Proofs.Json.Decode
import Whiteboard.Proofs.Json.Reader
import Whiteboard.Proofs.Json.Token
import Whiteboard.Proofs.Lint.Classes
import Whiteboard.Proofs.Lint.Forbidden
import Whiteboard.Proofs.Lint.Location
import Whiteboard.Proofs.Lint.Numbering
import Whiteboard.Proofs.Listing
import Whiteboard.Proofs.Number.Decimal
import Whiteboard.Proofs.Number.Rounding
import Whiteboard.Proofs.Number.Shortest
import Whiteboard.Proofs.Number.Single
import Whiteboard.Proofs.Schedule.Clock
import Whiteboard.Proofs.Schedule.Course
import Whiteboard.Proofs.Schedule.LatestWins
import Whiteboard.Proofs.Schedule.Punctuality
import Whiteboard.Proofs.Schedule.SingleFlight
import Whiteboard.Proofs.Schedule.Timekeeping
import Whiteboard.Proofs.Schedule.Timeline
import Whiteboard.Proofs.Session.Course
import Whiteboard.Proofs.Session.Run
import Whiteboard.Proofs.Session.Safety
import Whiteboard.Proofs.Text
import Whiteboard.Proofs.Text.Keyword
import Whiteboard.Proofs.Validation.Acceptance
import Whiteboard.Proofs.Validation.Agreement
import Whiteboard.Proofs.Validation.Coherence
import Whiteboard.Proofs.Validation.Fencing
import Whiteboard.Proofs.Validation.Lossless
import Whiteboard.Proofs.Validation.Pipeline
import Whiteboard.Proofs.Validation.Printing
import Whiteboard.Proofs.Validation.Revision
import Whiteboard.Schedule.Clock
import Whiteboard.Schedule.Scheduler
import Whiteboard.Schedule.Timeline
import Whiteboard.Schedule.Timing
import Whiteboard.Session.Session
import Whiteboard.Session.Settings
import Whiteboard.Session.SettingsJson
import Whiteboard.Text.Blank
import Whiteboard.Text.Bytes
import Whiteboard.Text.CharClass
import Whiteboard.Text.Duration
import Whiteboard.Text.Keyword
import Whiteboard.Text.Lines
import Whiteboard.Text.Numeral
import Whiteboard.Text.Pattern
import Whiteboard.Text.Search
import Whiteboard.Validation.Pipeline
import Whiteboard.Validation.Revision
import Whiteboard.Validation.Stage
