import IctAlgo.Lib.Runs
import IctAlgo.Execution.KillSwitch
import IctAlgo.Lib.Exn
import IctAlgo.Execution.Broker
import IctAlgo.Execution.Engine
import IctAlgo.Execution.Proof.Rules
import IctAlgo.Execution.Proof.Stages
import IctAlgo.Execution.Proof.KillSwitchGate
import IctAlgo.Execution.Proof.FillStatus
import IctAlgo.Execution.Proof.Protocol
import IctAlgo.Execution.Proof.Abandoned
import IctAlgo.Stage10.Controller
import IctAlgo.Stage10.Proof.Counters
import IctAlgo.Stage10.Proof.LossCap
import IctAlgo.Stage10.Proof.Fills
import IctAlgo.Lib.FirstMatch
import IctAlgo.Orchestrator.Dlq
import IctAlgo.Orchestrator.Proof.Conservation
import IctAlgo.Lib.Custody
import IctAlgo.Orchestrator.Proof.StoreLedger
import IctAlgo.Orchestrator.Proof.StoreAttempts
import IctAlgo.Orchestrator.Proof.TwoStores
import IctAlgo.Orchestrator.Proof.TrackedEvents
import IctAlgo.Replay.Signal
import IctAlgo.Replay.Tagger
import IctAlgo.Replay.Proof.Direction
import IctAlgo.Replay.Metrics
import IctAlgo.Replay.Proof.Expectancy
import IctAlgo.Deadletter.Poll
import IctAlgo.Deadletter.Proof.Cursor
import IctAlgo.Lib.PyVal
import IctAlgo.PlanExec.Schema
import IctAlgo.PlanExec.Validate
import IctAlgo.PlanExec.Execute
import IctAlgo.PlanExec.Proof.Result
import IctAlgo.Orchestrator.Decision
import IctAlgo.Orchestrator.Policy
import IctAlgo.Orchestrator.Proof.Deferral
import IctAlgo.Orchestrator.Process
import IctAlgo.Orchestrator.Proof.Gate
import IctAlgo.Orchestrator.Proof.Accounting
import IctAlgo.Orchestrator.EventTracker
import IctAlgo.Orchestrator.Proof.EventLimit
import IctAlgo.Orchestrator.Dedup
import IctAlgo.Orchestrator.Proof.Duplicates
import IctAlgo.Orchestrator.Allowlist
import IctAlgo.Orchestrator.Proof.RoundTrip
import IctAlgo.Orchestrator.Storage
import IctAlgo.Orchestrator.Proof.Persistence
import IctAlgo.Orchestrator.Proof.RetriedOnce
import IctAlgo.Orchestrator.Proof.StoredOnce
import IctAlgo.Approval.Manager
import IctAlgo.Approval.Proof.Frozen
import IctAlgo.Approval.Proof.Agreement
import IctAlgo.Redis.Wrapper
import IctAlgo.Redis.Proof.Circuit
import IctAlgo.Boundary.Guards
import IctAlgo.Boundary.Proof.Authorised
import IctAlgo.Boundary.KillSwitch
import IctAlgo.Boundary.Proof.Replay
import IctAlgo.Memory.AlertStore
import IctAlgo.Memory.Proof.RingBuffer
import IctAlgo.Memory.Script
import IctAlgo.Memory.Proof.LostScript
import IctAlgo.Memory.Fusion
import IctAlgo.Memory.Proof.Newest
import IctAlgo.Memory.Proof.Covers
import IctAlgo.Memory.Proof.Fusion
import IctAlgo.Lib.Decimal
import IctAlgo.Lib.Calendar
import IctAlgo.Analytics.Outcomes
import IctAlgo.Analytics.Confidence
import IctAlgo.Analytics.Proof.ErrorRates
import IctAlgo.Analytics.Proof.Instability
import IctAlgo.Reports.Timeline
import IctAlgo.Reports.Proof.Sequence
import IctAlgo.Reports.Governance
import IctAlgo.Reports.Report
import IctAlgo.Reports.Proof.Verdict
import IctAlgo.Reports.Archive
import IctAlgo.Reports.Proof.Trends
import IctAlgo.Reports.Offline
import IctAlgo.Reports.Proof.Evaluated
import IctAlgo.Lib.Sorting
import IctAlgo.Lib.Strptime
import IctAlgo.Merge.Chunks
import IctAlgo.Merge.Proof.Rows
import IctAlgo.Merge.Proof.OrderIndependent
import IctAlgo.Review.Service
import IctAlgo.Review.Proof.AppendOnly
import IctAlgo.PlanExec.Boundary
import IctAlgo.PlanExec.Proof.Boundary
import IctAlgo.PlanExec.Event
import IctAlgo.PlanExec.Proof.Accepted
import IctAlgo.PlanExec.Proof.Loop
import IctAlgo.PlanExec.Proof.StatusRules
import IctAlgo.PlanExec.Proof.Ordered
import IctAlgo.Orchestrator.Proof.History
import IctAlgo.Orchestrator.Proof.Attribution
import IctAlgo.Orchestrator.Proof.DuplicateEffects
import IctAlgo.Execution.Proof.Reconciliation
import IctAlgo.Stage10.Proof.Forwards
import IctAlgo.Replay.Proof.FirstTouch
import IctAlgo.Lib.Trail
import IctAlgo.PlanRun.Executor
import IctAlgo.PlanRun.Proof.Terminates
import IctAlgo.Paper.Adapter
import IctAlgo.Paper.Proof.Signs
import IctAlgo.Lib.Filters
import IctAlgo.Lib.PartialSums
import IctAlgo.Replay.Proof.Drawdown
import IctAlgo.Replay.Proof.GroupCounts
import IctAlgo.Execution.Proof.ResultLog
import IctAlgo.PlanRun.Proof.DeadLetters
import IctAlgo.Analytics.Heatmap
import IctAlgo.Analytics.Proof.Tabulations
import IctAlgo.Reports.Proof.TimeWindow
import IctAlgo.Orchestrator.SignalFilter
import IctAlgo.Orchestrator.Proof.SignalFilter
import IctAlgo.Memory.Analytics
import IctAlgo.Memory.Proof.Analytics
import IctAlgo.Deadletter.Retries
import IctAlgo.Deadletter.Proof.Fates
import IctAlgo.Deadletter.Proof.Conservation
import IctAlgo.Deadletter.Proof.OnDemand
import IctAlgo.Analytics.Stats
import IctAlgo.Analytics.Proof.Partitions
import IctAlgo.Candles.Ticks
import IctAlgo.Candles.Proof.Exact
import IctAlgo.Lib.Strftime
import IctAlgo.Candles.Convert
import IctAlgo.Candles.Proof.Instants
import IctAlgo.Candles.Merge
import IctAlgo.Candles.Proof.Keyed
import IctAlgo.Lib.Raising
import IctAlgo.PlanExec.Proof.Documented
import IctAlgo.Orchestrator.Proof.DedupKeys
import IctAlgo.Orchestrator.Proof.Normalised
import IctAlgo.Reports.Counterfactual
import IctAlgo.Reports.Proof.Impact
import IctAlgo.Lib.FloatSum
import IctAlgo.Reports.Proof.LastTimes
import IctAlgo.Reports.Proof.Answers
import IctAlgo.Reports.Proof.Tightening
import IctAlgo.Reports.Proof.Restamping
import IctAlgo.Memory.Proof.Majority
import IctAlgo.Analytics.Policy
import IctAlgo.Analytics.Proof.Vetoes
import IctAlgo.Reasoning.Manager
import IctAlgo.Reasoning.Proof.Corresponds
import IctAlgo.Lib.Isoformat
import IctAlgo.Signals.Screening
import IctAlgo.Signals.Proof.Notations
import IctAlgo.Signals.Worker
import IctAlgo.Signals.Proof.Marks
import IctAlgo.Signals.Proof.Ordinary
import IctAlgo.Lib.Format
import IctAlgo.PlanRun.Notify
import IctAlgo.PlanRun.Proof.Rendered
import IctAlgo.Lib.Retry
import IctAlgo.Llm.Client
import IctAlgo.Llm.Proof.Streams
import IctAlgo.Lib.SlidingWindow
import IctAlgo.Lib.Recency
import IctAlgo.Llm.Gpt
import IctAlgo.Llm.Proof.Cached
import IctAlgo.Lib.Escape
import IctAlgo.Alerts.Notifiers
import IctAlgo.Alerts.Proof.ReadBack
import IctAlgo.Alerts.Proof.Delivered
import IctAlgo.Analytics.Shadow
import IctAlgo.Analytics.Proof.Shadow
import IctAlgo.Orchestrator.Recorder
import IctAlgo.Orchestrator.Proof.Recorder
import IctAlgo.Orchestrator.Proof.Recalled
import IctAlgo.Reports.Proof.Histories
import IctAlgo.Orchestrator.Proof.QuietHours
import IctAlgo.Lib.JsonText
import IctAlgo.Lib.Json
import IctAlgo.Replay.Export
import IctAlgo.Replay.Proof.Exported
import IctAlgo.Replay.Proof.ExportedLongs
import IctAlgo.Lib.Lease
import IctAlgo.Memory.Proof.Exclusive
import IctAlgo.Boundary.AuditLog
import IctAlgo.Boundary.Proof.AuditLog
