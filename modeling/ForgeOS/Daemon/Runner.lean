import ForgeOS.Daemon.Tasks

/-!
The daemon itself: it enters itself in the state file, runs its tasks until it
is stopped, and stamps a last heartbeat. However its tasks fail, the file tells
at the end who the daemon was and how each execution of a task ended.
-/

namespace ForgeOS

open Library DaemonStateStore

/-- What the daemon's process is started with. -/
structure DaemonProcess where
  daemonId : String
  pid : Int
  projectRoot : String

/-- The state that is written at the start. -/
def DaemonProcess.state (process : DaemonProcess) (startedAt : String) : DaemonState where
  daemonId := process.daemonId
  pid := process.pid
  projectRoot := process.projectRoot
  startedAt := startedAt

/-- An execution of a task, and the text of what it raised. -/
structure TaskExecution where
  name : String
  raised : Option String
deriving DecidableEq, Repr

/-- The counters of a task, without the time of its last run. -/
structure TaskCounters where
  runs : Int
  failures : Int
  lastStatus : Option String
  lastError : Option String
deriving DecidableEq, Repr

def DaemonTaskState.counters (task : DaemonTaskState) : TaskCounters :=
  ⟨task.runs, task.failures, task.lastStatus, task.lastError⟩

def TaskExecution.status (execution : TaskExecution) : String :=
  match execution.raised with
  | none => "ok"
  | some _ => "error"

/-- What the executions of a task come to. -/
def tally (executions : List TaskExecution) : TaskCounters where
  runs := executions.length
  failures := executions.countP fun execution => execution.raised.isSome
  lastStatus := executions.getLast?.map TaskExecution.status
  lastError := (executions.filterMap TaskExecution.raised).getLast?

/-- One more execution is counted as `record_task_run` does. -/
theorem tally_snoc (executions : List TaskExecution) (execution : TaskExecution)
    {task : DaemonTaskState} (htask : task.counters = tally executions) (now : String) :
    (ran now execution.status execution.raised task).counters =
      tally (executions ++ [execution]) := by
  have hruns : task.runs = executions.length := congrArg TaskCounters.runs htask
  have hfailures : task.failures = executions.countP fun execution => execution.raised.isSome :=
    congrArg TaskCounters.failures htask
  have herror : task.lastError = (executions.filterMap TaskExecution.raised).getLast? :=
    congrArg TaskCounters.lastError htask
  obtain ⟨name, raised⟩ := execution
  cases raised with
  | none =>
      simp [tally, ran, DaemonTaskState.counters, TaskExecution.status, hruns, hfailures, herror]
  | some text =>
      simp [tally, ran, DaemonTaskState.counters, TaskExecution.status, hruns, hfailures]

namespace DaemonSetup

variable {τ ω ε : Type} (setup : DaemonSetup τ ω ε)

/-- `store.record_task_run(name, …)`, best-effort. -/
def recordRun (name status : String) (error : Option String) : DaemonEffect ω ε Unit :=
  dropStateErrors (do
    let now ← reading setup.host.utcNow
    onState (recordTaskRun now name status error)) ()

/-- The scheduler, with `_on_result` and `_on_error`. -/
def taskRunner (tasks : List (DaemonTask τ ω ε)) :
    TaskRunner τ (DaemonWorld ω) (TaskFault ε) TaskSummary where
  tasks
  onResult := some fun name _ => setup.recordRun name "ok" none
  onError := some fun name error => setup.recordRun name "error" (some (setup.host.message error))

/-- The heartbeat of a graceful stop. -/
def stampFinal : DaemonEffect ω ε Unit :=
  dropStateErrors (do
    match ← onState (do Effect.ofExcept (load (← get))) with
    | none => return ()
    | some finalState =>
        let now ← reading setup.host.utcNow
        onState (save { finalState with lastHeartbeat := some now })) ()

section Main

variable [LT τ] [DecidableLT τ] [Add τ] [NatCast τ]

omit [NatCast τ] in
/-- `runner.run_forever(stop_event)` -/
def serve (tasks : List (DaemonTask τ ω ε)) (ticks : List (SchedulerTick τ))
    (world : DaemonWorld ω) : List (PendingCall τ) × SchedulerState τ (DaemonWorld ω) :=
  (setup.taskRunner tasks).runForever ticks (TaskRunner.start world)

/-- `main`, for the ticks given. -/
def main (process : DaemonProcess) (ticks : List (SchedulerTick τ)) : DaemonEffect ω ε Unit := do
  let startedAt ← reading setup.host.utcNow
  onState (save (process.state startedAt))
  let tasks ← onProject (do Effect.ofExcept (setup.buildScheduledTasks (← get)))
  modify fun world => (setup.serve tasks ticks world).2.world
  setup.stampFinal

end Main

/-! ### The books the daemon keeps -/

def outcome (world : DaemonWorld ω) (task : DaemonTask τ ω ε) : List TaskExecution :=
  [{ name := task.name
     raised := match (task.run.exec world).1 with
      | .ok _ => none
      | .error error => some (setup.host.message error) }]

/-- How the executions of a run of the scheduler end, in their order. -/
def history (tasks : List (DaemonTask τ ω ε)) (world : DaemonWorld ω)
    (log : List (PendingCall τ)) : List TaskExecution :=
  collect (setup.taskRunner tasks).execute setup.outcome world
    ((setup.taskRunner tasks).executed log)

end DaemonSetup

/-- Who the daemon is. -/
def DaemonState.identity (state : DaemonState) : DaemonState :=
  { state with lastHeartbeat := none, tasks := [], alerts := [] }

/-- The daemon's file has been kept from some start on, and its counters are
those of the executions since. -/
structure Recorded {ω : Type} (initial : DaemonState) (executions : List TaskExecution)
    (world : DaemonWorld ω) : Prop where
  ready : Ready world
  kept : ∃ state, world.state = some state ∧ state.identity = initial.identity ∧
    ∀ name, ((state.tasks.get? name).getD {}).counters =
      tally (executions.filter fun execution => execution.name = name)

section Books

variable {ω ε : Type} {initial : DaemonState} {executions : List TaskExecution}
  {world after : DaemonWorld ω}

theorem Recorded.of_keepsLedger (h : Recorded initial executions world)
    (hkept : KeepsLedger world after) : Recorded initial executions after := by
  obtain ⟨state, hstate, hidentity, hcounters⟩ := h.kept
  have hledger := hkept.ledger
  rw [hstate] at hledger
  obtain ⟨state', hstate', hsame⟩ := Option.map_eq_some_iff.mp hledger
  have hthe := congrArg DaemonState.identity hsame
  have htasks : state'.tasks = state.tasks := (congrArg DaemonState.tasks hsame :)
  exact {
    ready := h.ready.of_keepsLedger hkept
    kept := ⟨state', hstate', hthe.trans hidentity, by rwa [htasks]⟩ }

theorem exec_load_of_ready (h : Ready world) : ∃ state, world.state = some state ∧
    (onState (do Effect.ofExcept (load (← get))) :
      DaemonEffect ω ε (Option DaemonState)).exec world = (.ok (some state), world) := by
  obtain ⟨state, hload⟩ := h.readable
  refine ⟨state, eq_of_load hload, ?_⟩
  change ((load world.state).mapError TaskFault.state, world) = _
  rw [hload]
  rfl

theorem exec_save_of_clean {state : DaemonState}
    (h : ∀ alert ∈ state.alerts, alert.metadata.isJson = true) :
    (onState (save state) : DaemonEffect ω ε Unit).exec world =
      (.ok (), { world with state := some state }) := by
  unfold save
  rw [if_pos (List.all_eq_true.mpr h)]
  rfl

/-- The counters of one more task are saved where the file is sound. -/
theorem readable_set {state : DaemonState} (h : Readable (some state)) (name : String)
    {task : DaemonTaskState} (htask : task.validates = true) :
    Readable (some { state with tasks := state.tasks.set name task }) := by
  obtain ⟨loaded, hload⟩ := h
  have hall : (state.tasks.all fun entry => entry.2.validates) = true := by
    by_contra hnot
    rw [load, if_neg hnot] at hload
    cases hload
  refine ⟨_, if_pos (List.all_eq_true.mpr fun entry hentry => ?_)⟩
  rcases Dict.mem_set hentry with rfl | hold
  · exact htask
  · exact List.all_eq_true.mp hall entry hold

end Books

namespace DaemonSetup

variable {τ ω ε : Type} (setup : DaemonSetup τ ω ε) {initial : DaemonState}
  {executions : List TaskExecution} {world : DaemonWorld ω}

/-- Recording how an execution ended keeps the books. -/
theorem recorded_recordRun (h : Recorded initial executions world) (execution : TaskExecution) :
    Recorded initial (executions ++ [execution])
      ((setup.recordRun execution.name execution.status execution.raised).exec world).2 := by
  obtain ⟨state, hstate, hidentity, hcounters⟩ := h.kept
  obtain ⟨loaded, hload⟩ := h.ready.readable
  obtain rfl : loaded = state := Option.some.inj ((eq_of_load hload).symm.trans hstate)
  have hclean := h.ready.clean
  have hreadable := h.ready.readable
  rw [hstate] at hclean hreadable
  have hdumped : (loaded.alerts.all fun alert => alert.metadata.isJson) = true :=
    List.all_eq_true.mpr hclean
  let now := (setup.host.utcNow world.project).1
  let task := ran now execution.status execution.raised
    ((loaded.tasks.get? execution.name).getD {})
  let counted : DaemonState := { loaded with tasks := loaded.tasks.set execution.name task }
  have hvalid : task.validates = true := by
    obtain ⟨name, raised⟩ := execution
    cases raised with
    | none => rfl
    | some text => rfl
  have hexec : ((setup.recordRun execution.name execution.status execution.raised).exec
      world).2 = ⟨some counted, (setup.host.utcNow world.project).2⟩ := by
    have hsaved : ((recordTaskRun now execution.name execution.status
        execution.raised).exec world.state).2 = some counted := by
      unfold recordTaskRun
      rw [Effect.exec_bind_ok _ (exec_loadRequired_of_ok hload _), exec_save]
      exact if_pos hdumped
    rw [recordRun, dropStateErrors, Effect.exec_recover_snd,
      Effect.exec_bind_ok _ (exec_reading _ world)]
    change DaemonWorld.mk ((recordTaskRun now execution.name execution.status
        execution.raised).exec world.state).2 _ = _
    rw [hsaved]
  rw [hexec]
  refine ⟨⟨readable_set hreadable execution.name hvalid, hclean⟩, counted, rfl, hidentity, ?_⟩
  intro name
  change (((loaded.tasks.set execution.name task).get? name).getD {}).counters = _
  rw [Dict.get?_set, List.filter_append]
  by_cases hname : execution.name = name
  · subst hname
    rw [if_pos rfl, List.filter_singleton, decide_eq_true rfl]
    exact tally_snoc _ execution (hcounters execution.name) now
  · rw [if_neg hname, List.filter_singleton, decide_eq_false hname, cond_false, List.append_nil]
    exact hcounters name

/-- So does an execution of a task that leaves the counters alone. -/
theorem recorded_execute (h : Recorded initial executions world)
    (tasks : List (DaemonTask τ ω ε)) {task : DaemonTask τ ω ε} (htask : LedgerKept task.run) :
    Recorded initial (executions ++ setup.outcome world task)
      ((setup.taskRunner tasks).execute world task) := by
  have hran := h.of_keepsLedger (htask world).2
  unfold TaskRunner.execute outcome
  rcases hrun : task.run.exec world with ⟨error | result, after⟩
  · rw [hrun] at hran
    exact setup.recorded_recordRun hran ⟨task.name, some (setup.host.message error)⟩
  · rw [hrun] at hran
    exact setup.recorded_recordRun hran ⟨task.name, none⟩

theorem recorded_run (h : Recorded initial [] world) (tasks executed : List (DaemonTask τ ω ε))
    (hexecuted : ∀ task ∈ executed, LedgerKept task.run) :
    Recorded initial (collect (setup.taskRunner tasks).execute setup.outcome world executed)
      (run (setup.taskRunner tasks).execute world executed) := by
  induction executed using List.reverseRecOn with
  | nil => exact h
  | append_singleton earlier task ih =>
      rw [collect_snoc, run_snoc]
      refine setup.recorded_execute (ih fun other hother => ?_) tasks (hexecuted task (by simp))
      exact hexecuted other (by simp [hother])

/-- Every execution of the daemon's tasks is one of a task it was built with. -/
theorem ledgerKept_executed [NatCast τ] {project : ω} {tasks : List (DaemonTask τ ω ε)}
    (h : setup.buildScheduledTasks project = .ok tasks) (log : List (PendingCall τ)) :
    ∀ task ∈ (setup.taskRunner tasks).executed log, LedgerKept task.run := by
  intro task htask
  obtain ⟨pending, -, hran⟩ := List.mem_flatMap.mp htask
  exact ledgerKept_of_mem h (List.mem_filter.mp hran).1

theorem names_history (tasks : List (DaemonTask τ ω ε)) (world : DaemonWorld ω)
    (log : List (PendingCall τ)) :
    (setup.history tasks world log).map TaskExecution.name =
      ((setup.taskRunner tasks).executed log).map ScheduledTask.name := by
  unfold history
  induction (setup.taskRunner tasks).executed log generalizing world with
  | nil => rfl
  | cons task rest ih => exact congrArg (task.name :: ·) (ih _)

theorem exec_stampFinal (h : Recorded initial executions world) :
    ∃ final, setup.stampFinal.exec world =
        (.ok (), ⟨some final, (setup.host.utcNow world.project).2⟩) ∧
      final.identity = initial.identity ∧
      final.lastHeartbeat = some (setup.host.utcNow world.project).1 ∧
      ∀ name, ((final.tasks.get? name).getD {}).counters =
        tally (executions.filter fun execution => execution.name = name) := by
  obtain ⟨state, hstate, hidentity, hcounters⟩ := h.kept
  obtain ⟨loaded, hloaded, hload⟩ := exec_load_of_ready (ε := ε) h.ready
  obtain rfl : loaded = state := Option.some.inj (hloaded.symm.trans hstate)
  have hclean : ∀ alert ∈ loaded.alerts, alert.metadata.isJson = true := by
    have hclean := h.ready.clean
    rwa [hstate] at hclean
  let now := (setup.host.utcNow world.project).1
  let final : DaemonState := { loaded with lastHeartbeat := some now }
  have hsaved : (onState (save final) : DaemonEffect ω ε Unit).exec
      { world with project := (setup.host.utcNow world.project).2 } =
        (.ok (), ⟨some final, (setup.host.utcNow world.project).2⟩) := exec_save_of_clean hclean
  refine ⟨final, ?_, hidentity, rfl, hcounters⟩
  rw [stampFinal, dropStateErrors, Effect.exec_recover, Effect.exec_bind_ok _ hload,
    Effect.exec_bind_ok _ (exec_reading _ world), hsaved]

section Main

variable [LT τ] [DecidableLT τ] [Add τ] [NatCast τ]

def startWorld (process : DaemonProcess) (world : DaemonWorld ω) : DaemonWorld ω where
  state := some (process.state (setup.host.utcNow world.project).1)
  project := (setup.host.utcNow world.project).2

theorem exec_main (process : DaemonProcess) (ticks : List (SchedulerTick τ))
    (world : DaemonWorld ω) :
    (setup.main process ticks).exec world =
      match (setup.buildScheduledTasks (setup.startWorld process world).project).map fun tasks =>
        (setup.serve tasks ticks (setup.startWorld process world)).2.world with
      | .error error => (.error (.foreign error), setup.startWorld process world)
      | .ok after => setup.stampFinal.exec after := by
  have hsaved : (onState (save (process.state (setup.host.utcNow world.project).1)) :
      DaemonEffect ω ε Unit).exec { world with project := (setup.host.utcNow world.project).2 } =
        (.ok (), setup.startWorld process world) := exec_save_of_clean nofun
  have hbuilt : (onProject (do Effect.ofExcept (setup.buildScheduledTasks (← get))) :
      DaemonEffect ω ε (List (DaemonTask τ ω ε))).exec (setup.startWorld process world) =
        ((setup.buildScheduledTasks (setup.startWorld process world).project).mapError
          TaskFault.foreign, setup.startWorld process world) := rfl
  rw [main, Effect.exec_bind_ok _ (exec_reading _ world), Effect.exec_bind_ok _ hsaved,
    Effect.exec_bind, hbuilt]
  cases setup.buildScheduledTasks (setup.startWorld process world).project with
  | error error => rfl
  | ok tasks => rfl

/-- Whatever the tasks do and raise and however often the daemon ticks, when it
has stopped its file tells who it was and when it stopped, and of every task
how often it was executed, how often it raised, how its last execution ended
and what it raised last; and each task was executed in just the calls that
found it due. -/
theorem main_recorded (process : DaemonProcess) (ticks : List (SchedulerTick τ))
    (world : DaemonWorld ω) {tasks : List (DaemonTask τ ω ε)}
    (h : setup.buildScheduledTasks (setup.startWorld process world).project = .ok tasks) :
    let start := setup.startWorld process world
    let life := setup.serve tasks ticks start
    let executions := setup.history tasks start life.1
    ∃ final project, (setup.main process ticks).exec world = (.ok (), ⟨some final, project⟩) ∧
      final.identity = process.state (setup.host.utcNow world.project).1 ∧
      final.lastHeartbeat = some (setup.host.utcNow life.2.world.project).1 ∧
      (∀ name, ((final.tasks.get? name).getD {}).counters =
        tally (executions.filter fun execution => execution.name = name)) ∧
      ∀ task ∈ tasks, (executions.countP fun execution => execution.name = task.name) =
        life.1.countP fun pending => task.name ∈ pending.ran := by
  intro start life executions
  let initial := process.state (setup.host.utcNow world.project).1
  have hnames := names_nodup h
  have hstart : Recorded initial [] start := {
    ready := ⟨⟨initial, rfl⟩, nofun⟩
    kept := ⟨initial, rfl, rfl, fun _ => rfl⟩ }
  have hworld : life.2.world = run (setup.taskRunner tasks).execute start
      ((setup.taskRunner tasks).executed life.1) := TaskRunner.runForever_world hnames start ticks
  have hlife : Recorded initial executions life.2.world := by
    rw [hworld]
    exact setup.recorded_run hstart tasks _ (setup.ledgerKept_executed h life.1)
  obtain ⟨final, hstamped, hidentity, hheartbeat, hcounters⟩ := setup.exec_stampFinal hlife
  refine ⟨final, (setup.host.utcNow life.2.world.project).2, ?_, hidentity, hheartbeat,
    hcounters, ?_⟩
  · rw [exec_main, h]
    exact hstamped
  · intro task htask
    have hcount : ((setup.taskRunner tasks).executed life.1).countP _ = _ :=
      TaskRunner.countP_executed hnames life.1 htask
    rw [← hcount]
    have hmapped := congrArg (List.countP fun name => name = task.name)
      (setup.names_history tasks start life.1)
    rwa [List.countP_map, List.countP_map] at hmapped

end Main

/-- A host that counts its readings. -/
def counting : DaemonHost Nat String where
  utcNow count := (toString count, count + 1)
  uuid4 count := (toString count, count + 1)
  message
    | .foreign error => error
    | _ => "no daemon state"

/-- A daemon of which the digest fails for want of a model. -/
def withoutModel : DaemonSetup Int Nat String where
  host := counting
  rnd := exactly
  evaluate _ := .ok {
    throttled := false
    spentUsd := .finite 0
    costCapUsd := .null
    ratio := none }
  digest := throw "no model"
  decay := pure none
  reingest := pure none
  observer _ := .ok {
    enabled := false
    pollIntervalSeconds := 60
    acpSessionCleanupIntervalSeconds := 60
    acpAgentHealthIntervalSeconds := 60
    metricsIntervalSeconds := 60
    checkRegistry := fun count => ((.ok none, []), count)
    cleanupStaleSessions := fun count => ((.ok none, []), count)
    restartUnhealthyAgents := fun count => ((.ok none, []), count)
    collectMetrics := fun count => ((.ok none, []), count) }
  healthMonitorEnabled _ := .ok false
  healthMonitor := ⟨counting, [], List.nodup_nil⟩

/-- Two ticks and a third that finds it stopped: two heartbeats, and a digest
that has failed. -/
theorem main_recorded_withoutModel :
    ∃ final project, (withoutModel.main ⟨"daemon-1", 1, "/project"⟩
        [⟨0, false, false⟩, ⟨40, false, false⟩, ⟨80, true, true⟩]).exec ⟨none, 0⟩ =
          (.ok (), ⟨some final, project⟩) ∧
      ((final.tasks.get? "heartbeat").getD {}).counters = ⟨2, 0, some "ok", none⟩ ∧
      ((final.tasks.get? "dreamer-digest").getD {}).counters =
        ⟨1, 1, some "error", some "no model"⟩ := by
  obtain ⟨final, project, hexec, -, -, hcounters, -⟩ := withoutModel.main_recorded
    ⟨"daemon-1", 1, "/project"⟩ [⟨0, false, false⟩, ⟨40, false, false⟩, ⟨80, true, true⟩]
    ⟨none, 0⟩ rfl
  refine ⟨final, project, hexec, (hcounters "heartbeat").trans ?_,
    (hcounters "dreamer-digest").trans ?_⟩
  · decide +kernel
  · decide +kernel

end DaemonSetup

end ForgeOS
