import CodexMonitor.Lib.Transaction
import CodexMonitor.Lib.Table
import CodexMonitor.Lib.Lanes
import CodexMonitor.Lib.Versioned
import CodexMonitor.Lib.Channel
import CodexMonitor.Lib.Decoding
import CodexMonitor.Lib.Text
import CodexMonitor.Json
import CodexMonitor.Canonical
import CodexMonitor.Store.Schema
import CodexMonitor.Store.Routes
import CodexMonitor.Store.Intake
import CodexMonitor.Store.Delivery
import CodexMonitor.Store.Requests
import CodexMonitor.Store.Maintenance
import CodexMonitor.Store.Replies
import CodexMonitor.Store.Operation
import CodexMonitor.Store.Journal
import CodexMonitor.Store.Commits
import CodexMonitor.Store.Commits.Routes
import CodexMonitor.Store.Commits.Delivery
import CodexMonitor.Store.Commits.Requests
import CodexMonitor.Store.Commits.Calls
import CodexMonitor.Store.Effects
import CodexMonitor.Store.Fifo
import CodexMonitor.Store.History
import CodexMonitor.Store.Updates
import CodexMonitor.Store.Identifiers
import CodexMonitor.Store.Lineage
import CodexMonitor.Store.Removal
import CodexMonitor.Store.Retirement
import CodexMonitor.Store.Transfer
import CodexMonitor.Store.Content
import CodexMonitor.Store.Mirror
import CodexMonitor.Store.Outbox
import CodexMonitor.Store.Expiry
import CodexMonitor.Store.Movement
import CodexMonitor.Session.Transport
import CodexMonitor.Session.Connection
import CodexMonitor.Session.Render
import CodexMonitor.Session.Pool
import CodexMonitor.Session.Lines
import CodexMonitor.Session.Evidence
import CodexMonitor.Session.Outcomes
import CodexMonitor.Session.Sharing
import CodexMonitor.Runtime.Deliver
import CodexMonitor.Runtime.Answers
import CodexMonitor.Runtime.System
import CodexMonitor.Runtime.AtMostOnce
import CodexMonitor.Store.Capacity
import CodexMonitor.Store.Creation
import CodexMonitor.Store.Room
import CodexMonitor.Store.Dedup
import CodexMonitor.Lib.Dict
import CodexMonitor.Lib.Keyed
import CodexMonitor.Lib.Keyset
import CodexMonitor.Lib.Runs
import CodexMonitor.Lib.Tasks
import CodexMonitor.Collector.Watch
import CodexMonitor.Collector.Sample
import CodexMonitor.Collector.Snapshot
import CodexMonitor.Collector.Loop
import CodexMonitor.Collector.Host
import CodexMonitor.Collector.Versions
import CodexMonitor.Collector.Coherent
import CodexMonitor.Collector.Registration
import CodexMonitor.Lib.History
import CodexMonitor.Store.Checkpoints
import CodexMonitor.Store.Registry
import CodexMonitor.Store.Budget
import CodexMonitor.Store.Admission
import CodexMonitor.Collector.Observation
import CodexMonitor.Collector.Candidates
import CodexMonitor.Collector.Debounce
import CodexMonitor.Collector.Pacing
import CodexMonitor.Collector.Chain
import CodexMonitor.Lib.Relational
import CodexMonitor.Runtime.Http
import CodexMonitor.Runtime.Categories
import CodexMonitor.Runtime.Rejections
import CodexMonitor.Runtime.Ownership
import CodexMonitor.Runtime.Isolation
import CodexMonitor.Lib.Faults
import CodexMonitor.Lib.Replace
import CodexMonitor.Lib.Sql
import CodexMonitor.Migration.Legacy
import CodexMonitor.Migration.Migrate
import CodexMonitor.Migration.Stage
import CodexMonitor.Migration.Publish
import CodexMonitor.Migration.Fields
import CodexMonitor.Lib.Wal
import CodexMonitor.Store.Statements
import CodexMonitor.Runtime.Contention
import CodexMonitor.Tree
import CodexMonitor.Selection
import CodexMonitor.Migration.Encodings
import CodexMonitor.Migration.Sampler
import CodexMonitor.Migration.Evaluators
import CodexMonitor.Migration.Adoption
import CodexMonitor.Reconnect.Execute
import CodexMonitor.Reconnect.Restore
import CodexMonitor.Dashboard.Alerts
import CodexMonitor.Collector.Pointer
import CodexMonitor.Reconnect.Units
import CodexMonitor.Reconnect.Permissions
import CodexMonitor.Session.Endpoints
import CodexMonitor.Runtime.ReplyOutbox
import CodexMonitor.Runtime.Pagination
import CodexMonitor.Runtime.Idempotence
import CodexMonitor.Lib.Backlog
import CodexMonitor.Store.Fairness
import CodexMonitor.Lib.Checked
import CodexMonitor.Dashboard.Rows
import CodexMonitor.Dashboard.Board
import CodexMonitor.Dashboard.Bounds
import CodexMonitor.Install.Native
import CodexMonitor.Install.Recovery
import CodexMonitor.Install.Releases
import CodexMonitor.Install.Layout
import CodexMonitor.Install.Publication
import CodexMonitor.Lib.Framing
import CodexMonitor.Collector.Pipe
import CodexMonitor.Collector.Framing
import CodexMonitor.Collector.Samplable
import CodexMonitor.Discord.Message
import CodexMonitor.Discord.Tables
import CodexMonitor.Discord.Worker
import CodexMonitor.Discord.Backlog
import CodexMonitor.Discord.System
import CodexMonitor.Discord.Cycle
import CodexMonitor.Discord.Durability
import CodexMonitor.Discord.Recovery
import CodexMonitor.Discord.Requests
import CodexMonitor.Discord.Posting
import CodexMonitor.Discord.Receipts
import CodexMonitor.OwnerHealth.Health
import CodexMonitor.OwnerHealth.Probe
import CodexMonitor.OwnerHealth.Evidence
import CodexMonitor.OwnerHealth.Cache
import CodexMonitor.OwnerHealth.Snapshots
import CodexMonitor.Collector.Signals
import CodexMonitor.Collector.Fence
