import AdaptiveLlm.Lib.Runs
import AdaptiveLlm.Lib.Serial
import AdaptiveLlm.Routing.Breakers
import AdaptiveLlm.Routing.Canary
import AdaptiveLlm.Routing.CanaryMonitor
import AdaptiveLlm.Routing.BreakerRuns
import AdaptiveLlm.Datasets.Curation
import AdaptiveLlm.Datasets.JointSplit
import AdaptiveLlm.Contracts.Attempts
import AdaptiveLlm.Routing.Chain
import AdaptiveLlm.Routing.ChainBounds
import AdaptiveLlm.Contracts.Models
import AdaptiveLlm.Registry.State
import AdaptiveLlm.Registry.Store
import AdaptiveLlm.Training.Worker
import AdaptiveLlm.Training.TerminalJobs
import AdaptiveLlm.Training.ModelPublication
import AdaptiveLlm.Registry.Transitions
import AdaptiveLlm.Lib.Regex
import AdaptiveLlm.Lib.Slots
import AdaptiveLlm.Registry.Runs
import AdaptiveLlm.Registry.Deployments
import AdaptiveLlm.Registry.History
import AdaptiveLlm.Contracts.Interactions
import AdaptiveLlm.Storage.Crypto
import AdaptiveLlm.Storage.Persistence
import AdaptiveLlm.Gateway.Feedback
import AdaptiveLlm.Storage.Tombstones
import AdaptiveLlm.Storage.Privacy
import AdaptiveLlm.Storage.Operations
import AdaptiveLlm.Events.Dispatcher
import AdaptiveLlm.Events.Ordering
import AdaptiveLlm.Events.Sink
import AdaptiveLlm.Contracts.Routes
import AdaptiveLlm.Lib.LastWrite
import AdaptiveLlm.Lib.Bytes
import AdaptiveLlm.Lib.JsonText
import AdaptiveLlm.Lib.JsonRoundTrip
import AdaptiveLlm.Routing.Control
import AdaptiveLlm.Routing.Disablement
import AdaptiveLlm.Routing.DisablementLimit
import AdaptiveLlm.Routing.SnapshotCache
import AdaptiveLlm.Routing.Live
import AdaptiveLlm.Routing.ChainCalls
import AdaptiveLlm.Routing.LiveSafety
import AdaptiveLlm.Training.Retries
import AdaptiveLlm.Training.RetryFailures
import AdaptiveLlm.Training.PostgresClaims
import AdaptiveLlm.Python.Float
import AdaptiveLlm.Python.Json
import AdaptiveLlm.Signing.Records
import AdaptiveLlm.Signing.LocalKeys
import AdaptiveLlm.Providers.FakeProvider
import AdaptiveLlm.Datasets.Deduplication
import AdaptiveLlm.Gateway.ReplayFidelity
import AdaptiveLlm.Gateway.Replays
import AdaptiveLlm.Gateway.RouteDecisions
import AdaptiveLlm.Storage.Eviction
import AdaptiveLlm.Storage.KeyRotation
import AdaptiveLlm.Storage.Changes
import AdaptiveLlm.Storage.Idempotence
import AdaptiveLlm.Storage.PrivacyEvents
import AdaptiveLlm.Storage.Retention
import AdaptiveLlm.Storage.Sealing
import AdaptiveLlm.Storage.BackupPairs
import AdaptiveLlm.Storage.Migrations
import AdaptiveLlm.Datasets.Eligibility
import AdaptiveLlm.Datasets.Construction
import AdaptiveLlm.Datasets.Builder
import AdaptiveLlm.Datasets.Publication
import AdaptiveLlm.Evaluation.Publication
import AdaptiveLlm.Routing.ShadowWorker
import AdaptiveLlm.Routing.Specialists
import AdaptiveLlm.Storage.InteractionUpdates
import AdaptiveLlm.Datasets.Manifests
import AdaptiveLlm.Datasets.Artifacts
import AdaptiveLlm.Datasets.ShardRoundTrip
import AdaptiveLlm.Datasets.ShardReads
import AdaptiveLlm.Policy.PhoneNeighbours
import AdaptiveLlm.Training.Outcomes
import AdaptiveLlm.Training.Resume
import AdaptiveLlm.Registry.Rollbacks
import AdaptiveLlm.Retrieval.Retriever
import AdaptiveLlm.Lib.JsonWriter
import AdaptiveLlm.Registry.SignedMetadata
import AdaptiveLlm.Lib.SlidingWindow
import AdaptiveLlm.Routing.BreakerWindows
import AdaptiveLlm.Lib.Interpolation
import AdaptiveLlm.Evaluation.Bootstrap
import AdaptiveLlm.Lib.Filling
import AdaptiveLlm.Datasets.SplitProportions
import AdaptiveLlm.Routing.Cohorts
import AdaptiveLlm.Lib.Inventory
import AdaptiveLlm.Metrics.InProcess
import AdaptiveLlm.Metrics.Totals
import AdaptiveLlm.Routing.Calibration
import AdaptiveLlm.Routing.RouterModel
import AdaptiveLlm.Routing.RouterTraining
import AdaptiveLlm.Training.CheckpointMoves
import AdaptiveLlm.Evaluation.Gate
import AdaptiveLlm.Evaluation.GateCoverage
import AdaptiveLlm.Lib.Selection
import AdaptiveLlm.Lib.Names
import AdaptiveLlm.Research.Tensors
import AdaptiveLlm.Research.Exports
import AdaptiveLlm.Research.ExportedShapes
import AdaptiveLlm.Research.MaskedModel
import AdaptiveLlm.Lib.Worklist
import AdaptiveLlm.Structured.Schemas
import AdaptiveLlm.Python.Slices
import AdaptiveLlm.Training.Truncation
import AdaptiveLlm.Lib.Blocks
import AdaptiveLlm.Lib.Numerals
import AdaptiveLlm.Lib.Calendar
import AdaptiveLlm.Python.Datetime
import AdaptiveLlm.Storage.Timestamps
import AdaptiveLlm.Gateway.StoredTimes
import AdaptiveLlm.Python.Replace
import AdaptiveLlm.Contracts.Messages
import AdaptiveLlm.Datasets.Sources
import AdaptiveLlm.Datasets.Candidates
import AdaptiveLlm.Datasets.Constructor
import AdaptiveLlm.Evaluation.HeldOut
import AdaptiveLlm.Evaluation.SourceRoundTrip
import AdaptiveLlm.Distillation.BenchmarkGate
import AdaptiveLlm.Datasets.TeacherExamples
import AdaptiveLlm.Lib.RoundRobin
