import ForgeOS.Daemon.Alerts
import ForgeOS.Daemon.Scheduler
import ForgeOS.Daemon.Throttle
import ForgeOS.Health.Monitor

/-!
The built-in tasks of the daemon. The dreamer's tasks may cost money and stand
behind the throttle; the observer and the health monitor must go on when there
is none left. Whatever a task does, it leaves the runs counted in the daemon's
file alone.
-/

namespace ForgeOS

open Library DaemonStateStore

/-- What the run of a task returns. -/
abbrev TaskSummary := Option JsonObject

abbrev DaemonTask (τ ω ε : Type) := ScheduledTask τ (DaemonWorld ω) (TaskFault ε) TaskSummary

/-- A run of the observer: what it returns or raises, and the alerts it submits
on the way. -/
abbrev ObserverRun (ω ε : Type) := ω → (Except ε TaskSummary × List DaemonAlert) × ω

/-- `load_observer_config`, and the runs of the monitor built with it. -/
structure ObserverSetup (τ ω ε : Type) where
  enabled : Bool
  pollIntervalSeconds : τ
  acpSessionCleanupIntervalSeconds : τ
  acpAgentHealthIntervalSeconds : τ
  metricsIntervalSeconds : τ
  checkRegistry : ObserverRun ω ε
  cleanupStaleSessions : ObserverRun ω ε
  restartUnhealthyAgents : ObserverRun ω ε
  collectMetrics : ObserverRun ω ε

/-- The parts of the daemon: what its tasks run, and how it reads its
configuration. -/
structure DaemonSetup (τ ω ε : Type) where
  host : DaemonHost ω ε
  rnd : Rounding
  /-- `CostThrottle(project_root).evaluate()` -/
  evaluate : ω → Except ε ThrottleDecision
  digest : Effect ω ε TaskSummary
  decay : Effect ω ε TaskSummary
  reingest : Effect ω ε TaskSummary
  observer : ω → Except ε (ObserverSetup τ ω ε)
  healthMonitorEnabled : ω → Except ε Bool
  healthMonitor : HealthMonitor ω ε

def ThrottleReason.value : ThrottleReason → String
  | .overCap => "over_cap"
  | .storeUnreadable => "store_unreadable"

/-- `_ALERT_MESSAGES.get(reason, _ALERT_MESSAGES[REASON_OVER_CAP])` -/
def throttleMessage : Option ThrottleReason → String
  | some .storeUnreadable =>
      "Recorded spend is unreadable (corrupt events.db); throttling daemon maintenance as a " ++
        "precaution until spend can be metered."
  | _ => "Always-on cost cap reached; throttling daemon maintenance."

/-- `_decision_metrics(decision)` -/
def ThrottleDecision.metrics (rnd : Rounding) (decision : ThrottleDecision) : JsonObject :=
  [("spent_usd", .float (decision.spentUsd.round rnd 6)), ("cost_cap_usd", decision.costCapUsd),
    ("ratio", match decision.ratio with
      | some ratio => .float (ratio.round rnd 3)
      | none => .null)]

/-- What a sweep returns, as an object. -/
def SweepReport.summary (report : SweepReport) : JsonObject :=
  [("checked", .int report.checked), ("unhealthy", .int report.unhealthy),
    ("alerted", .int report.alerted)]

namespace DaemonSetup

variable {τ ω ε : Type} (setup : DaemonSetup τ ω ε)

def heartbeat : DaemonEffect ω ε TaskSummary := do
  match ← onState (do Effect.ofExcept (load (← get))) with
  | none => throw .heartbeat
  | some state =>
      let now ← reading setup.host.utcNow
      onState (save { state with lastHeartbeat := some now })
      return some [("last_heartbeat", .str now)]

def recordThrottleAlert (taskName : String) (decision : ThrottleDecision) :
    DaemonEffect ω ε Bool := do
  let alertId ← reading setup.host.uuid4
  let createdAt ← reading setup.host.utcNow
  submitAlert {
    alertId
    createdAt
    source := "cost-throttle"
    severity := .warning
    message := throttleMessage decision.reason
    metadata := .json ([("task", .str taskName),
      ("reason", .optional (decision.reason.map ThrottleReason.value))] ++
        decision.metrics setup.rnd) }

def throttleGate (taskName : String) (run : Effect ω ε TaskSummary) :
    DaemonEffect ω ε TaskSummary := do
  let decision ← onProject (do Effect.ofExcept (setup.evaluate (← get)))
  if !decision.throttled then onProject run
  else
    let _ ← setup.recordThrottleAlert taskName decision
    return some ([("throttled", .bool true), ("task", .str taskName),
      ("reason", .optional (decision.reason.map ThrottleReason.value))] ++
        decision.metrics setup.rnd)

def observe (run : ObserverRun ω ε) : DaemonEffect ω ε TaskSummary := do
  let (outcome, alerts) ← onProject (ExceptT.mk fun project =>
    (.ok (run project).1, (run project).2))
  let _ ← alerts.mapM submitAlert
  Effect.ofExcept (outcome.mapError .foreign)

def monitorHealth : DaemonEffect ω ε TaskSummary := do
  let report ← setup.healthMonitor.check
  return some report.summary

section Build

variable [NatCast τ]

def dreamerTasks : List (DaemonTask τ ω ε) :=
  [⟨"dreamer-digest", (86400 : Nat), setup.throttleGate "dreamer-digest" setup.digest⟩,
    ⟨"dreamer-decay", (86400 : Nat), setup.throttleGate "dreamer-decay" setup.decay⟩,
    ⟨"dreamer-reingest", (604800 : Nat), setup.throttleGate "dreamer-reingest" setup.reingest⟩]

omit [NatCast τ] in
def observerTasks (config : ObserverSetup τ ω ε) : List (DaemonTask τ ω ε) :=
  if config.enabled then
    [⟨"observer-registry", config.pollIntervalSeconds, observe config.checkRegistry⟩,
      ⟨"observer-session-cleanup", config.acpSessionCleanupIntervalSeconds,
        observe config.cleanupStaleSessions⟩,
      ⟨"observer-agent-health", config.acpAgentHealthIntervalSeconds,
        observe config.restartUnhealthyAgents⟩,
      ⟨"observer-metrics", config.metricsIntervalSeconds, observe config.collectMetrics⟩]
  else []

def healthMonitorTasks (enabled : Bool) : List (DaemonTask τ ω ε) :=
  if enabled then [⟨"health-monitor", (3600 : Nat), setup.monitorHealth⟩] else []

/-- `build_scheduled_tasks`, with the configuration as it stands. -/
def buildScheduledTasks (project : ω) : Except ε (List (DaemonTask τ ω ε)) := do
  let config ← setup.observer project
  let enabled ← setup.healthMonitorEnabled project
  return ⟨"heartbeat", (30 : Nat), setup.heartbeat⟩ :: setup.dreamerTasks ++
    observerTasks config ++ setup.healthMonitorTasks enabled

end Build

/-! ### What the tasks leave alone -/

/-- Saving the state that is in the file, at another heartbeat. -/
theorem keepsLedger_save {world : DaemonWorld ω} {state : DaemonState}
    (hstate : world.state = some state) (now : String) :
    KeepsLedger world { world with
      state := ((save { state with lastHeartbeat := some now }).exec world.state).2 } := by
  rw [exec_save]
  split
  · exact ⟨by rw [hstate]; rfl, fun hclean => by rwa [hstate] at hclean⟩
  · exact ⟨rfl, id⟩

theorem ledgerKept_heartbeat : LedgerKept setup.heartbeat := by
  refine Effect.keeps_of_related fun world => ?_
  have hloaded : (onState (do Effect.ofExcept (load (← get))) :
      DaemonEffect ω ε (Option DaemonState)).exec world =
        ((load world.state).mapError TaskFault.state, world) := rfl
  rw [heartbeat, Effect.exec_bind, hloaded]
  cases hload : load world.state with
  | error fault => exact .refl world
  | ok found =>
      cases found with
      | none => exact .refl world
      | some state =>
          simp only [Except.mapError]
          rw [Effect.exec_bind_ok _ (exec_reading _ world), Effect.exec_bind_pure_snd]
          have hstamped := keepsLedger_save (eq_of_load hload) (setup.host.utcNow world.project).1
          exact ⟨hstamped.ledger, hstamped.clean⟩

theorem ledgerKept_throttleGate (taskName : String) (run : Effect ω ε TaskSummary) :
    LedgerKept (setup.throttleGate taskName run) := by
  refine (ledgerKept_onProject _).bind fun decision => ?_
  split
  · exact ledgerKept_onProject run
  · refine LedgerKept.bind ?_ fun _ => .pure _
    exact (ledgerKept_reading _).bind fun _ => (ledgerKept_reading _).bind fun _ =>
      ledgerKept_submitAlert _

theorem ledgerKept_observe (run : ObserverRun ω ε) : LedgerKept (observe run) := by
  refine (ledgerKept_onProject _).bind fun ran => LedgerKept.bind ?_ fun _ => ?_
  · exact Effect.keeps_mapM KeepsLedger.refl KeepsLedger.trans ledgerKept_submitAlert ran.2
  · exact Effect.keeps_of_related KeepsLedger.refl

theorem ledgerKept_monitorHealth : LedgerKept setup.monitorHealth :=
  setup.healthMonitor.ledgerKept_check.bind fun _ => .pure _

section Built

variable [NatCast τ] {setup}

/-- A daemon that has been given its tasks: the heartbeat, the dreamer's, those
of the observer and the health monitor where they are on. -/
theorem built_cases {project : ω} {tasks : List (DaemonTask τ ω ε)}
    (h : setup.buildScheduledTasks project = .ok tasks) :
    ∃ config enabled, tasks = ⟨"heartbeat", (30 : Nat), setup.heartbeat⟩ :: setup.dreamerTasks ++
      observerTasks config ++ setup.healthMonitorTasks enabled := by
  obtain ⟨config, -, h⟩ := bind_eq_ok_iff.mp h
  obtain ⟨enabled, -, h⟩ := bind_eq_ok_iff.mp h
  exact ⟨config, enabled, (Except.ok.inj h).symm⟩

/-- Whatever is configured, no two tasks share a name. -/
theorem names_nodup {project : ω} {tasks : List (DaemonTask τ ω ε)}
    (h : setup.buildScheduledTasks project = .ok tasks) :
    (tasks.map ScheduledTask.name).Nodup := by
  obtain ⟨config, enabled, rfl⟩ := built_cases h
  unfold observerTasks healthMonitorTasks dreamerTasks
  cases config.enabled <;> cases enabled <;> simp

/-- No task of the daemon touches the runs counted in the file. -/
theorem ledgerKept_of_mem {project : ω} {tasks : List (DaemonTask τ ω ε)}
    (h : setup.buildScheduledTasks project = .ok tasks) {task : DaemonTask τ ω ε}
    (htask : task ∈ tasks) : LedgerKept task.run := by
  obtain ⟨config, enabled, rfl⟩ := built_cases h
  have hobserver : task ∈ observerTasks config → LedgerKept task.run := by
    unfold observerTasks
    split
    · rintro hmem
      simp only [List.mem_cons, List.not_mem_nil, or_false] at hmem
      rcases hmem with rfl | rfl | rfl | rfl <;> exact ledgerKept_observe _
    · exact nofun
  have hmonitor : task ∈ setup.healthMonitorTasks enabled → LedgerKept task.run := by
    unfold healthMonitorTasks
    split
    · intro hmem
      rw [List.mem_singleton.mp hmem]
      exact setup.ledgerKept_monitorHealth
    · exact nofun
  have hdreamer : task ∈ setup.dreamerTasks → LedgerKept task.run := by
    intro hmem
    simp only [dreamerTasks, List.mem_cons, List.not_mem_nil, or_false] at hmem
    rcases hmem with rfl | rfl | rfl <;> exact setup.ledgerKept_throttleGate _ _
  simp only [List.mem_append, List.mem_cons] at htask
  rcases htask with ((rfl | htask) | htask) | htask
  · exact setup.ledgerKept_heartbeat
  · exact hdreamer htask
  · exact hobserver htask
  · exact hmonitor htask

end Built

end DaemonSetup

end ForgeOS
