import Ingest4x.Bytes.Layout
import Ingest4x.Bytes.UrlEncoded
import Ingest4x.Bytes.Wire
import Ingest4x.Db.Bindings
import Ingest4x.Db.Reseed
import Ingest4x.Db.Seed
import Ingest4x.Db.SeedPhases
import Ingest4x.Db.SeedProcessors
import Ingest4x.Db.SeedSinks
import Ingest4x.Effect.Command
import Ingest4x.Effect.Interference
import Ingest4x.Effect.Maintains
import Ingest4x.Effect.Pool
import Ingest4x.Effect.Program
import Ingest4x.Effect.Refresh
import Ingest4x.Effect.Result
import Ingest4x.Effect.Snapshot
import Ingest4x.Ingest.Authorization
import Ingest4x.Ingest.Endpoint
import Ingest4x.Ingest.Event
import Ingest4x.Ingest.Request
import Ingest4x.Ingest.Secrecy
import Ingest4x.Json
import Ingest4x.Json.Serde
import Ingest4x.Lifecycle.Answers
import Ingest4x.Lifecycle.Calls
import Ingest4x.Lifecycle.Concurrent
import Ingest4x.Lifecycle.Crash
import Ingest4x.Lifecycle.Execution
import Ingest4x.Lifecycle.Guarantees
import Ingest4x.Lifecycle.Journal
import Ingest4x.Lifecycle.Replaying
import Ingest4x.Lifecycle.Restart
import Ingest4x.Lifecycle.Running
import Ingest4x.Lifecycle.Serving
import Ingest4x.Lifecycle.System
import Ingest4x.Number.Binary64
import Ingest4x.Number.Rounding
import Ingest4x.Registry.Coherence
import Ingest4x.Registry.Deliverable
import Ingest4x.Registry.Node
import Ingest4x.Registry.Processors
import Ingest4x.Registry.Projects
import Ingest4x.Registry.Sinks
import Ingest4x.Registry.Versions
import Ingest4x.Replay.Alignment
import Ingest4x.Replay.Batches
import Ingest4x.Replay.Call
import Ingest4x.Replay.Context
import Ingest4x.Replay.Deferral
import Ingest4x.Replay.Delivery
import Ingest4x.Replay.Keeps
import Ingest4x.Replay.Once
import Ingest4x.Replay.Outcome
import Ingest4x.Replay.Plan
import Ingest4x.Replay.Program
import Ingest4x.Replay.Progress
import Ingest4x.Replay.Redelivery
import Ingest4x.Replay.Resume
import Ingest4x.Replay.Run
import Ingest4x.Replay.Safety
import Ingest4x.Replay.Save
import Ingest4x.Replay.Send
import Ingest4x.Replay.Sound
import Ingest4x.Replay.Spec
import Ingest4x.Replay.Start
import Ingest4x.Replay.View
import Ingest4x.Replay.Waiting
import Ingest4x.Replay.Window
import Ingest4x.Repositories.Bindings
import Ingest4x.Repositories.EventSinks
import Ingest4x.Repositories.Processors
import Ingest4x.Repositories.Project
import Ingest4x.Repositories.Projects
import Ingest4x.Repositories.Routing
import Ingest4x.Repositories.RuntimeScripts
import Ingest4x.Repositories.Schema
import Ingest4x.Repositories.StoredProjects
import Ingest4x.Rhai.Chain
import Ingest4x.Rhai.Constants
import Ingest4x.Rhai.EventValidation
import Ingest4x.Rhai.Exactness
import Ingest4x.Rhai.Lint
import Ingest4x.Rhai.Presence
import Ingest4x.Rhai.Scope
import Ingest4x.Settings
import Ingest4x.Sinks.Buildable
import Ingest4x.Sinks.Config
import Ingest4x.Sinks.Normalized
import Ingest4x.Sinks.Parquet
import Ingest4x.Sinks.ParquetNames
import Ingest4x.Sinks.ParquetReplay
import Ingest4x.Sinks.ParquetSink
import Ingest4x.Sinks.Router
import Ingest4x.Sinks.Uploads
import Ingest4x.Storage.Objects
import Ingest4x.Table.Greedy
import Ingest4x.Table.Ranges
import Ingest4x.Table.Rows
import Ingest4x.Table.Sorted
import Ingest4x.Text
import Ingest4x.Wal.Answer
import Ingest4x.Wal.Bounds
import Ingest4x.Wal.Checkpoint
import Ingest4x.Wal.CheckpointJson
import Ingest4x.Wal.Chunks
import Ingest4x.Wal.Codec
import Ingest4x.Wal.Directory
import Ingest4x.Wal.FailedFlush
import Ingest4x.Wal.Flush
import Ingest4x.Wal.Frame
import Ingest4x.Wal.GroupAnswers
import Ingest4x.Wal.GroupCommit
import Ingest4x.Wal.Growth
import Ingest4x.Wal.Identity
import Ingest4x.Wal.Issue
import Ingest4x.Wal.Log
import Ingest4x.Wal.LogSegment
import Ingest4x.Wal.NodeId
import Ingest4x.Wal.Opening
import Ingest4x.Wal.Order
import Ingest4x.Wal.Placement
import Ingest4x.Wal.Positions
import Ingest4x.Wal.Prefix
import Ingest4x.Wal.Record
import Ingest4x.Wal.Recovery
import Ingest4x.Wal.Reference
import Ingest4x.Wal.Repair
import Ingest4x.Wal.Resume
import Ingest4x.Wal.Rules
import Ingest4x.Wal.Segment
import Ingest4x.Wal.Shutdown
import Ingest4x.Wal.Starts
import Ingest4x.Wal.System
import Ingest4x.Wal.Tail
import Ingest4x.Wal.Writer
import Ingest4x.Wal.Writing
