import ServiceRegistry.CommandLine.Arguments
import ServiceRegistry.CommandLine.Command
import ServiceRegistry.CommandLine.Run
import ServiceRegistry.Deployment
import ServiceRegistry.Deployment.Rehearsal
import ServiceRegistry.Event
import ServiceRegistry.Files.Disk
import ServiceRegistry.Files.Failure
import ServiceRegistry.Files.Path
import ServiceRegistry.Host
import ServiceRegistry.Host.Machine
import ServiceRegistry.Json.Printer
import ServiceRegistry.Json.Reader
import ServiceRegistry.Json.Record
import ServiceRegistry.Json.Shape
import ServiceRegistry.Json.Token
import ServiceRegistry.Json.Value
import ServiceRegistry.Listing
import ServiceRegistry.Main
import ServiceRegistry.Operation
import ServiceRegistry.Paging
import ServiceRegistry.Procedure
import ServiceRegistry.Proofs.Catalog.Abstract
import ServiceRegistry.Proofs.Catalog.Abstraction
import ServiceRegistry.Proofs.Catalog.Careful
import ServiceRegistry.Proofs.Catalog.Deed
import ServiceRegistry.Proofs.Catalog.Deliberate
import ServiceRegistry.Proofs.Catalog.Growth
import ServiceRegistry.Proofs.Catalog.Implementation
import ServiceRegistry.Proofs.Catalog.Interchange
import ServiceRegistry.Proofs.Catalog.Serialization
import ServiceRegistry.Proofs.CommandLine.Processes
import ServiceRegistry.Proofs.Deployment.Restarting
import ServiceRegistry.Proofs.Deployment.Upholding
import ServiceRegistry.Proofs.Events.Log
import ServiceRegistry.Proofs.Files.Disk
import ServiceRegistry.Proofs.Host.Machine
import ServiceRegistry.Proofs.Json.Layout
import ServiceRegistry.Proofs.Json.Lines
import ServiceRegistry.Proofs.Json.Rearrangement
import ServiceRegistry.Proofs.Json.Records
import ServiceRegistry.Proofs.Json.RoundTrip
import ServiceRegistry.Proofs.Json.Tokens
import ServiceRegistry.Proofs.Listing.Damage
import ServiceRegistry.Proofs.Listing.Ledger
import ServiceRegistry.Proofs.Listing.Pages
import ServiceRegistry.Proofs.Listing.Snapshot
import ServiceRegistry.Proofs.Listing.Unbounded
import ServiceRegistry.Proofs.Listing.Walk
import ServiceRegistry.Proofs.Listing.Window
import ServiceRegistry.Proofs.Procedure.Discipline
import ServiceRegistry.Proofs.Procedure.Execution
import ServiceRegistry.Proofs.Procedure.Quiet
import ServiceRegistry.Proofs.Procedure.Shape
import ServiceRegistry.Proofs.Refresh.Account
import ServiceRegistry.Proofs.Refresh.Cadence
import ServiceRegistry.Proofs.Refresh.Chapter
import ServiceRegistry.Proofs.Refresh.Chronicle
import ServiceRegistry.Proofs.Refresh.Course
import ServiceRegistry.Proofs.Refresh.Currency
import ServiceRegistry.Proofs.Refresh.Debt
import ServiceRegistry.Proofs.Refresh.Interleaving
import ServiceRegistry.Proofs.Refresh.Move
import ServiceRegistry.Proofs.Refresh.Patience
import ServiceRegistry.Proofs.Refresh.Progress
import ServiceRegistry.Proofs.Refresh.Punctuality
import ServiceRegistry.Proofs.Refresh.Retrying
import ServiceRegistry.Proofs.Refresh.Schedule
import ServiceRegistry.Proofs.Refresh.Solvency
import ServiceRegistry.Proofs.Refresh.Staleness
import ServiceRegistry.Proofs.Refresh.Stopping
import ServiceRegistry.Proofs.Refresh.Upkeep
import ServiceRegistry.Proofs.Retry.Attempts
import ServiceRegistry.Proofs.Retry.Backoff
import ServiceRegistry.Proofs.Settings.Readiness
import ServiceRegistry.Proofs.Storage.Archive
import ServiceRegistry.Proofs.Storage.Atomicity
import ServiceRegistry.Proofs.Storage.Consistency
import ServiceRegistry.Proofs.Storage.Correspondence
import ServiceRegistry.Proofs.Storage.Damage
import ServiceRegistry.Proofs.Storage.Dialogue
import ServiceRegistry.Proofs.Storage.Frame
import ServiceRegistry.Proofs.Storage.Integrity
import ServiceRegistry.Proofs.Storage.Kept
import ServiceRegistry.Proofs.Storage.Landing
import ServiceRegistry.Proofs.Storage.Opening
import ServiceRegistry.Proofs.Storage.Reading
import ServiceRegistry.Proofs.Storage.Records
import ServiceRegistry.Proofs.Storage.Reopening
import ServiceRegistry.Proofs.Storage.Retirement
import ServiceRegistry.Proofs.Storage.Rows
import ServiceRegistry.Proofs.Storage.Unreliable
import ServiceRegistry.Proofs.Storage.Upholding
import ServiceRegistry.Record
import ServiceRegistry.Refresh.Engine
import ServiceRegistry.Refresh.Failure
import ServiceRegistry.Refresh.OnDemand
import ServiceRegistry.Refresh.StopChannel
import ServiceRegistry.Refresh.Timeline
import ServiceRegistry.Refusal
import ServiceRegistry.Retry
import ServiceRegistry.Settings
import ServiceRegistry.Settings.Document
import ServiceRegistry.Settings.Fault
import ServiceRegistry.Settings.Location
import ServiceRegistry.Storage.Archive
import ServiceRegistry.Storage.Call
import ServiceRegistry.Storage.Database
import ServiceRegistry.Storage.DatabaseFault
import ServiceRegistry.Storage.DatabaseSettings
import ServiceRegistry.Storage.Fault
import ServiceRegistry.Storage.Interposed
import ServiceRegistry.Storage.Memory
import ServiceRegistry.Storage.Opening
import ServiceRegistry.Storage.RecordStore
import ServiceRegistry.Text.Blank
import ServiceRegistry.Timing.Span
import ServiceRegistry.Timing.Ticker
import ServiceRegistry.Timing.WallClock
import ServiceRegistry.Toml.Document
import ServiceRegistry.Toml.Quoted
import ServiceRegistry.Toml.Scalar
import ServiceRegistry.Toml.Shape
import ServiceRegistry.Toml.Table
import ServiceRegistry.Toml.Value
import ServiceRegistry.Word
