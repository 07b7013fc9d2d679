import ForgeOS.Library.Effect
import ForgeOS.Library.Dict
import ForgeOS.Library.Tally
import ForgeOS.Library.Checkpoint
import ForgeOS.Library.Reach
import ForgeOS.Library.Worklist
import ForgeOS.Library.Relaxation
import ForgeOS.Library.Records
import ForgeOS.Library.Trim
import ForgeOS.Library.Statistics
import ForgeOS.Library.Packing
import ForgeOS.Library.Halving
import ForgeOS.Library.Lines
import ForgeOS.Library.Rounding
import ForgeOS.Library.Folds
import ForgeOS.Library.Coroutine
import ForgeOS.Library.FirstFree
import ForgeOS.Library.Firsts
import ForgeOS.Library.Upserts
import ForgeOS.Library.Retention
import ForgeOS.Library.Admission
import ForgeOS.Library.Numerals
import ForgeOS.Library.LexicalPaths
import ForgeOS.Json
import ForgeOS.Fields
import ForgeOS.Floats
import ForgeOS.Datetime
import ForgeOS.JsonText
import ForgeOS.JsonReading
import ForgeOS.Schemas.State
import ForgeOS.Project.Scaffold
import ForgeOS.Events.Model
import ForgeOS.Events.Store
import ForgeOS.Events.Replay
import ForgeOS.Events.Concurrent
import ForgeOS.Hooks.Registry
import ForgeOS.Project.Disk
import ForgeOS.Events.Bus
import ForgeOS.Events.Timings
import ForgeOS.Gates.Models
import ForgeOS.Gates.Coordinator
import ForgeOS.Core.StateManager
import ForgeOS.Core.Lifecycle
import ForgeOS.Core.Persistence
import ForgeOS.Core.Refinement
import ForgeOS.Core.Runs
import ForgeOS.Core.Invariants
import ForgeOS.Core.Atomicity
import ForgeOS.Core.LifecycleLog
import ForgeOS.Gates.FailClosed
import ForgeOS.Core.DualWrite
import ForgeOS.Context.Registry
import ForgeOS.Context.Pruner
import ForgeOS.Context.Propagation
import ForgeOS.Context.Staleness
import ForgeOS.Context.Loading
import ForgeOS.Context.Registrations
import ForgeOS.Context.Runs
import ForgeOS.Context.Acyclic
import ForgeOS.Context.Statuses
import ForgeOS.Text
import ForgeOS.Yaml
import ForgeOS.Context.Selection
import ForgeOS.Context.PrunerRuns
import ForgeOS.Context.Tables
import ForgeOS.Context.Spellings
import ForgeOS.Project.Initialize
import ForgeOS.Project.Backtrack
import ForgeOS.Project.Rework
import ForgeOS.Project.Closure
import ForgeOS.Project.Tickets
import ForgeOS.Project.OpenRework
import ForgeOS.Project.SecurityEnforcer
import ForgeOS.Extensions.Manifest
import ForgeOS.Extensions.Store
import ForgeOS.Extensions.Installer
import ForgeOS.Extensions.Atomicity
import ForgeOS.Channels.Identity
import ForgeOS.Config.Schema
import ForgeOS.Config.Loader
import ForgeOS.Config.Writer
import ForgeOS.Memory.Models
import ForgeOS.Memory.GlobalStore
import ForgeOS.Memory.Promotions
import ForgeOS.Memory.Recovery
import ForgeOS.Memory.Lessons
import ForgeOS.Memory.Suggestions
import ForgeOS.Memory.LessonContext
import ForgeOS.Memory.ReflectionPaths
import ForgeOS.Memory.Reflections
import ForgeOS.Context.Lazy
import ForgeOS.Memory.ProjectProfiles
import ForgeOS.Memory.Skills
import ForgeOS.Context.LazyTrimming
import ForgeOS.Agents.StageContext
import ForgeOS.Dreamer.Decay
import ForgeOS.Memory.LessonLives
import ForgeOS.Dreamer.Schedule
import ForgeOS.Dreamer.Revival
import ForgeOS.Dreamer.Tensions
import ForgeOS.Dreamer.Idempotence
import ForgeOS.Kernel.Events
import ForgeOS.Kernel.AcpReader
import ForgeOS.Kernel.AcpClient
import ForgeOS.Adapters.CodexTransport
import ForgeOS.Adapters.CodexSession
import ForgeOS.Agents.Models
import ForgeOS.Adapters.Bridge
import ForgeOS.Adapters.Driving
import ForgeOS.Harness.Recorder
import ForgeOS.Harness.Comparison
import ForgeOS.Adapters.CodexApproval
import ForgeOS.Adapters.CodexReader
import ForgeOS.Adapters.ClaudeRunner
import ForgeOS.Adapters.ClaudeSdk
import ForgeOS.Adapters.ClaudeSdkRouting
import ForgeOS.Adapters.ClaudeSdkEnding
import ForgeOS.Adapters.ClaudeFraming
import ForgeOS.Adapters.ClaudeHooks
import ForgeOS.JsonLines
import ForgeOS.Events.Log
import ForgeOS.Hooks.Timing
import ForgeOS.Tracing.Sink
import ForgeOS.Tracing.Index
import ForgeOS.Tracing.Tracer
import ForgeOS.Tracing.Collect
import ForgeOS.Project.AuditIdentities
import ForgeOS.Channels.Policy
import ForgeOS.Channels.Intake
import ForgeOS.Channels.RateLimit
import ForgeOS.Adapters.ClaudeRaw
import ForgeOS.Adapters.ClaudeReplay
import ForgeOS.Adapters.ClaudeOutputs
import ForgeOS.Kernel.AcpFailures
import ForgeOS.Adapters.Selection
import ForgeOS.Adapters.FreshSelection
import ForgeOS.Adapters.OpenClaw
import ForgeOS.Adapters.OpenClawPaths
import ForgeOS.Adapters.OpenClawGuard
import ForgeOS.Adapters.OpenCodeCorrelation
import ForgeOS.Adapters.OpenCodeRuns
import ForgeOS.Agents.Executor
import ForgeOS.Daemon.Start
import ForgeOS.Daemon.Scheduler
import ForgeOS.Daemon.State
import ForgeOS.Daemon.Alerts
import ForgeOS.Observer.Monitor
import ForgeOS.Observer.Sessions
import ForgeOS.Cost.Aggregator
import ForgeOS.Cost.Report
import ForgeOS.Cost.Raising
import ForgeOS.Cost.Agreement
import ForgeOS.Health.CostCap
import ForgeOS.Health.Monitor
import ForgeOS.Health.Remediation
import ForgeOS.Daemon.Throttle
import ForgeOS.Daemon.Tasks
import ForgeOS.Daemon.Runner
import ForgeOS.Daemon.Lockout
