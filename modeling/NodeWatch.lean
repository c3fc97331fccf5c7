import NodeWatch.Announcement
import NodeWatch.Announcement.Json
import NodeWatch.Attributes
import NodeWatch.Backend
import NodeWatch.Backend.Broadcast
import NodeWatch.Backend.Error
import NodeWatch.Backend.Probe
import NodeWatch.Backend.Static
import NodeWatch.Bus
import NodeWatch.Bus.Exchange
import NodeWatch.Bus.Workers
import NodeWatch.Capabilities
import NodeWatch.Cli
import NodeWatch.Cli.Arguments
import NodeWatch.Cli.Help
import NodeWatch.Cli.Invocation
import NodeWatch.Cli.Run
import NodeWatch.Cli.Table
import NodeWatch.Config
import NodeWatch.Config.Discovery
import NodeWatch.Config.Environment
import NodeWatch.Config.Fault
import NodeWatch.Config.File
import NodeWatch.Config.Given
import NodeWatch.Config.Json
import NodeWatch.Config.Method
import NodeWatch.Distinct
import NodeWatch.Error
import NodeWatch.Event
import NodeWatch.Event.Json
import NodeWatch.Json.Decode
import NodeWatch.Json.Lookup
import NodeWatch.Json.Printer
import NodeWatch.Json.Reader
import NodeWatch.Json.Value
import NodeWatch.Main
import NodeWatch.Metrics
import NodeWatch.Metrics.Exposition
import NodeWatch.Net.Address
import NodeWatch.Net.Address.Text
import NodeWatch.Net.Endpoint
import NodeWatch.Net.Subnet
import NodeWatch.NodeName
import NodeWatch.Observation
import NodeWatch.Observation.Json
import NodeWatch.Places
import NodeWatch.Program
import NodeWatch.Proofs.Announcement.Agreement
import NodeWatch.Proofs.Announcement.Choice
import NodeWatch.Proofs.Announcement.Heard
import NodeWatch.Proofs.Announcement.Verbatim
import NodeWatch.Proofs.Attributes
import NodeWatch.Proofs.Backend.Static
import NodeWatch.Proofs.Bus.Account
import NodeWatch.Proofs.Bus.Delivery
import NodeWatch.Proofs.Bus.Exchange
import NodeWatch.Proofs.Bus.Queue
import NodeWatch.Proofs.Capabilities
import NodeWatch.Proofs.Config.Construction
import NodeWatch.Proofs.Config.Environment
import NodeWatch.Proofs.Config.Timing
import NodeWatch.Proofs.Config.Validity
import NodeWatch.Proofs.Distinct
import NodeWatch.Proofs.Metrics
import NodeWatch.Proofs.Net.Address
import NodeWatch.Proofs.Net.Address.Characters
import NodeWatch.Proofs.Net.Address.Reading
import NodeWatch.Proofs.Net.Endpoint
import NodeWatch.Proofs.Net.Subnet
import NodeWatch.Proofs.NodeName
import NodeWatch.Proofs.NodeName.DisplayName
import NodeWatch.Proofs.Observation
import NodeWatch.Proofs.Program
import NodeWatch.Proofs.Reconcile.AddressNames
import NodeWatch.Proofs.Reconcile.Alone
import NodeWatch.Proofs.Reconcile.Atomic
import NodeWatch.Proofs.Reconcile.Concurrent
import NodeWatch.Proofs.Reconcile.FirstFree
import NodeWatch.Proofs.Reconcile.Idempotent
import NodeWatch.Proofs.Reconcile.Isolation
import NodeWatch.Proofs.Reconcile.Names
import NodeWatch.Proofs.Reconcile.Serializable
import NodeWatch.Proofs.Reconcile.Session
import NodeWatch.Proofs.Reconcile.Settled
import NodeWatch.Proofs.Reconcile.Transitions
import NodeWatch.Proofs.Reconcile.Undisturbed
import NodeWatch.Proofs.Reconcile.Waiting
import NodeWatch.Proofs.Reconcile.Writes
import NodeWatch.Proofs.Retry.Calls
import NodeWatch.Proofs.Roster.Latest
import NodeWatch.Proofs.Roster.Members
import NodeWatch.Proofs.Roster.Picture
import NodeWatch.Proofs.Service.ChangeLog
import NodeWatch.Proofs.Service.Controls
import NodeWatch.Proofs.Service.Counts
import NodeWatch.Proofs.Service.Crew
import NodeWatch.Proofs.Service.Inversion
import NodeWatch.Proofs.Service.LifeCycle
import NodeWatch.Proofs.Service.Looks
import NodeWatch.Proofs.Service.Paced
import NodeWatch.Proofs.Service.Phases
import NodeWatch.Proofs.Service.Run
import NodeWatch.Proofs.Service.Schedule
import NodeWatch.Proofs.Service.Sightings
import NodeWatch.Proofs.Service.Step
import NodeWatch.Proofs.Service.Stopping
import NodeWatch.Proofs.Service.Turns
import NodeWatch.Proofs.Service.View
import NodeWatch.Proofs.ServiceRecord
import NodeWatch.Proofs.Store.Advance
import NodeWatch.Proofs.Store.Akin
import NodeWatch.Proofs.Store.Backing
import NodeWatch.Proofs.Store.Course
import NodeWatch.Proofs.Store.Equivalence
import NodeWatch.Proofs.Store.History
import NodeWatch.Proofs.Store.Ledger
import NodeWatch.Proofs.Store.Memory
import NodeWatch.Proofs.Store.Pending
import NodeWatch.Proofs.Store.ReadBack
import NodeWatch.Proofs.Store.Records
import NodeWatch.Proofs.Store.Refinement
import NodeWatch.Proofs.Store.Sql.Conditional
import NodeWatch.Proofs.Store.Sql.Handles
import NodeWatch.Proofs.Store.Sql.LastSeen
import NodeWatch.Proofs.Store.Sql.Row
import NodeWatch.Proofs.Store.Sql.Session
import NodeWatch.Proofs.Store.Sql.Statement
import NodeWatch.Proofs.Store.Sql.Table
import NodeWatch.Proofs.Store.Stock
import NodeWatch.Proofs.Store.Twins
import NodeWatch.Proofs.Store.Unchanged
import NodeWatch.Proofs.Store.Vacancy
import NodeWatch.Proofs.Store.Written
import NodeWatch.Proofs.Text.Numeral
import NodeWatch.Proofs.Text.Split
import NodeWatch.Proofs.Time.Calendar
import NodeWatch.Proofs.Time.Instant
import NodeWatch.Proofs.Time.Order
import NodeWatch.Proofs.Upkeep.Absence
import NodeWatch.Proofs.Upkeep.Healing
import NodeWatch.Proofs.Upkeep.Presence
import NodeWatch.Proofs.Upkeep.Records
import NodeWatch.Proofs.Upkeep.Run
import NodeWatch.Reconcile
import NodeWatch.Reconcile.Outcome
import NodeWatch.Retry.Given
import NodeWatch.Retry.Policy
import NodeWatch.Retry.Run
import NodeWatch.Roster
import NodeWatch.Roster.Json
import NodeWatch.Service
import NodeWatch.Service.Controls
import NodeWatch.Service.Error
import NodeWatch.Service.Paced
import NodeWatch.Service.Script
import NodeWatch.Service.Setup
import NodeWatch.Service.Timeline
import NodeWatch.ServiceRecord
import NodeWatch.Status
import NodeWatch.Status.Target
import NodeWatch.Store.Course
import NodeWatch.Store.Error
import NodeWatch.Store.Faults
import NodeWatch.Store.Faults.Input
import NodeWatch.Store.Memory
import NodeWatch.Store.Operation
import NodeWatch.Store.Operation.Text
import NodeWatch.Store.Record
import NodeWatch.Store.Record.Input
import NodeWatch.Store.Record.Json
import NodeWatch.Store.Repository
import NodeWatch.Store.Repository.Input
import NodeWatch.Store.Sql
import NodeWatch.Store.Sql.Cell
import NodeWatch.Store.Sql.File
import NodeWatch.Store.Sql.Row
import NodeWatch.Store.Sql.Snapshot
import NodeWatch.Store.Sql.Table
import NodeWatch.Text.Blank
import NodeWatch.Text.Bytes
import NodeWatch.Text.Lower
import NodeWatch.Text.Numeral
import NodeWatch.Text.Split
import NodeWatch.Time.Calendar
import NodeWatch.Time.Clock
import NodeWatch.Time.Instant
import NodeWatch.Time.Instant.Text
import NodeWatch.Time.Span
import NodeWatch.Toml.Quoted
import NodeWatch.Toml.Reader
import NodeWatch.Toml.Scalar
import NodeWatch.Toml.Table
import NodeWatch.Upkeep
import NodeWatch.Webhook
