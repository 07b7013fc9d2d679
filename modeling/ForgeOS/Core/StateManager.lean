import ForgeOS.Gates.Coordinator
import ForgeOS.Project.Scaffold

/-!
The deterministic pipeline state manager. Every operation loads
`.forge/state.json`, checks its guards, and persists in the order of the
source: `state.json`, the configuration, `state.md`, the event store; then the
transition event with its hooks, and `state.json` again with the event's id.
What the clock, the file system, the configuration and foreign code answer is
given separately for each place that asks.
-/

namespace ForgeOS

open Library

/-- The parts of the project configuration that the state mirror shows. -/
structure ForgeConfig where
  projectName : String
  profile : String
deriving Repr

/-- What the outside world does during one `save`. -/
structure SaveEnv where
  updatedAt : String
  stateWrite : WriteOutcome
  /-- The configuration, or the text of the `ConfigError`. -/
  config : Except String ForgeConfig
  markdownWrite : WriteOutcome
  /-- Whether the event store accepts the append, and its clock. -/
  storeWrites : Bool
  createdAt : String

/-- The state as `save` stamps it. -/
def SaveEnv.stamp (env : SaveEnv) (state : PipelineState) : PipelineState :=
  { state with updatedAt := env.updatedAt }

/-- What the outside world does during one `log_transition`. -/
structure LogEnv where
  emit : EmitEnv
  stateWrite : WriteOutcome

/-- What the outside world does while one transition is persisted. -/
structure TransitionEnv where
  now : String
  save : SaveEnv
  log : LogEnv

/-- What the outside world does during one `complete_stage`. -/
structure CompleteEnv where
  gates : GateEnv
  transition : TransitionEnv
  /-- How the reflection and lesson stores answer. -/
  reflection : Except String Unit

/-- What the outside world does during one `advance`. -/
structure AdvanceEnv where
  complete : CompleteEnv
  start : TransitionEnv
  /-- The save after the last stage has completed. -/
  final : SaveEnv

structure StateManager where
  projectRoot : String
  hookRegistry : HookRegistry := []

/-- `value or now`, for an optional string. -/
def orNow (value : Option String) (now : String) : Option String :=
  match value with
  | some text => if text = "" then some now else some text
  | none => some now

def renderStateMarkdown (config : ForgeConfig) (state : PipelineState) : String :=
  let current := match state.currentStageId with
    | some id => if id = "" then "none" else id
    | none => "none"
  "\n".intercalate ([
    "# Forge Pipeline State",
    "",
    "This file is generated from `.forge/state.json`. Do not treat it as canonical.",
    "",
    s!"- Project: {config.projectName}",
    s!"- Profile: {config.profile}",
    s!"- State schema version: {state.schemaVersion}",
    s!"- Current stage: {current}",
    s!"- Updated at: {state.updatedAt}",
    "",
    "## Stages",
    ""] ++
    (state.stages.map fun stage =>
      let status := stage.status.value
      s!"- {stage.stageId}: {status}") ++ [""])

/-- The stream of a project in the event store. -/
def projectStream (projectId : String) : String := s!"project/{projectId}"

/-- The dual write of `save`: append the state to the event store. A failing
append is swallowed. -/
def Disk.storeState (d : Disk) (env : SaveEnv) (state : PipelineState) : Disk :=
  if env.storeWrites then
    d.writeDb (d.eventsDb.appendStateEvent env.createdAt (projectStream state.projectId)
      state.modelDump).2
  else d

/-- `_stage_index`: the first stage with the id. `_stage` finds the same one. -/
def stageIndex (state : PipelineState) (stageId : String) :
    Except Failure (Fin state.stages.length) :=
  match state.stages.findFinIdx? fun stage => stage.stageId = stageId with
  | some index => .ok index
  | none => .error (.stateTransition s!"Unknown stage `{stageId}`.")

def firstNotStartedStage (state : PipelineState) : Option StageState :=
  state.stages.find? fun stage => stage.status = .notStarted

def gateBlockReason (results : List GateResult) : String :=
  let blocking := results.filter GateResult.blocking
  if blocking.isEmpty then "Gate evaluation blocked this stage."
  else "; ".intercalate (blocking.map GateResult.summary)

/-- The latest gate results of a stage, as persisted in the state. -/
def recordGateResults (state : PipelineState) (stageId : String)
    (results : List GateResult) : PipelineState :=
  { state with gates := state.gates.set stageId (.obj [
      ("blocked", .bool (hasBlockingFailures results)),
      ("results", .arr (results.map GateResult.modelDump))]) }

/-- `state.stages[index - 1]`. -/
def previousStage (state : PipelineState) (index : Fin state.stages.length) : StageState :=
  state.stages[index.val - 1]

/-- The guards of `start_stage`, and the state it goes on to persist. -/
def markStarted (now : String) (state : PipelineState) (stageId : String) :
    Except Failure PipelineState := do
  let index ← stageIndex state stageId
  let stage := state.stages.get index
  let previous := previousStage state index
  if stage.status = .active then
    .error (.stateTransition s!"Stage `{stageId}` is already active.")
  else if stage.status = .complete then
    .error (.stateTransition s!"Stage `{stageId}` is already complete.")
  else if state.stages.any fun candidate => candidate.status = .active then
    .error (.stateTransition
      "Another stage is already active. Complete it before starting a new stage.")
  else if 0 < index.val ∧ previous.status ≠ .complete then
    .error (.stateTransition s!"Previous stage `{previous.stageId}` must be complete first.")
  else
    return { state with
      stages := state.stages.set index { stage with
        status := .active, enteredAt := orNow stage.enteredAt now, blockedReason := none }
      currentStageId := some stage.stageId }

/-- The state `complete_stage` persists when a gate blocks. -/
def markBlocked (state : PipelineState) (index : Fin state.stages.length)
    (stageId : String) (results : List GateResult) : PipelineState :=
  { recordGateResults state stageId results with
    stages := state.stages.set index { state.stages.get index with
      status := .blocked, blockedReason := some (gateBlockReason results) } }

/-- The state `complete_stage` persists when no gate blocks. -/
def markCompleted (now : String) (state : PipelineState) (index : Fin state.stages.length)
    (stageId : String) (results : List GateResult) : PipelineState :=
  { recordGateResults state stageId results with
    stages := state.stages.set index { state.stages.get index with
      status := .complete, completedAt := some now, blockedReason := none }
    currentStageId := none }

/-- The state `override_stage` persists: the target is active, and every other
active stage is blocked. -/
def markOverridden (now : String) (state : PipelineState) (stageId : String) :
    PipelineState :=
  { state with
    stages := state.stages.map fun stage =>
      if stage.stageId = stageId then
        { stage with
          status := .active, enteredAt := orNow stage.enteredAt now, blockedReason := none }
      else if stage.status = .active then
        { stage with
          status := .blocked
          blockedReason := some s!"Superseded by override to `{stageId}`." }
      else stage
    currentStageId := some stageId }

namespace StateManager

variable (manager : StateManager)

def statePath : String := s!"{manager.projectRoot}/.forge/state.json"

def stateMarkdownPath : String := s!"{manager.projectRoot}/pipeline/state.md"

def load : Forge PipelineState := do
  return (← get).stateJson

/-- Persist state atomically, sync the markdown mirror, and dual-write the
event store. -/
def save (env : SaveEnv) (state : PipelineState) : Forge PipelineState := do
  let stamped := env.stamp state
  atomicWrite env.stateWrite manager.statePath fun d => d.writeState stamped
  let config ← Effect.ofExcept (env.config.mapError .config)
  atomicWrite env.markdownWrite manager.stateMarkdownPath fun d =>
    d.writeMarkdown (renderStateMarkdown config stamped)
  modify fun d => d.storeState env stamped
  return stamped

/-- Append a transition event, run its hooks, and persist the event's id. -/
def logTransition (env : LogEnv) (eventType : EventType) (state : PipelineState)
    (stageId : String) (reason : Option String) : Forge PipelineState := do
  let (event, _) ← emitTransition manager.hookRegistry env.emit eventType state stageId reason
  let logged := { state with lastEventId := some event.eventId }
  atomicWrite env.stateWrite manager.statePath fun d => d.writeState logged
  return logged

/-- Start a not-yet-started stage when the transition rules allow it. -/
def startStage (env : TransitionEnv) (stageId : String) : Forge PipelineState := do
  let state ← load
  let state ← Effect.ofExcept (markStarted env.now state stageId)
  let state ← manager.save env.save state
  manager.logTransition env.log .stageStarted state stageId none

/-- Complete an active stage, or block it when a gate does not let it pass. -/
def completeStage (env : CompleteEnv) (stageId : String) : Forge PipelineState := do
  let state ← load
  let index ← Effect.ofExcept (stageIndex state stageId)
  if (state.stages.get index).status ≠ .active then
    throw (.stateTransition s!"Stage `{stageId}` must be active before it can complete.")
  else
    let results ← evaluateStage manager.hookRegistry env.gates stageId
    if results.any GateResult.blocking then
      let blocked ← manager.save env.transition.save
        (markBlocked state index stageId results)
      let _ ← manager.logTransition env.transition.log .stageBlocked blocked stageId none
      throw (.stateTransition (gateBlockReason results))
    else
      let completed ← manager.save env.transition.save
        (markCompleted env.transition.now state index stageId results)
      let logged ← manager.logTransition env.transition.log .stageCompleted completed stageId none
      Effect.ofExcept (env.reflection.mapError .memory)
      return logged

/-- Advance from the current active stage to the next one. -/
def advance (env : AdvanceEnv) : Forge PipelineState := do
  let state ← load
  match state.currentStageId with
  | none =>
      match firstNotStartedStage state with
      | none => throw (.stateTransition "Pipeline is already complete.")
      | some next => manager.startStage env.start next.stageId
  | some currentId =>
      let index ← Effect.ofExcept (stageIndex state currentId)
      if (state.stages.get index).status ≠ .active then
        throw (.stateTransition s!"Current stage `{currentId}` is not active.")
      else
        let _ ← manager.completeStage env.complete currentId
        if h : index.val + 1 < state.stages.length then
          manager.startStage env.start state.stages[index.val + 1].stageId
        else
          let completed ← load
          manager.save env.final { completed with currentStageId := none }

/-- Force a stage to be the active one, with a required audit reason. -/
def overrideStage (env : TransitionEnv) (stageId reason : String) : Forge PipelineState := do
  if pyStrip reason = "" then
    throw (.stateTransition "Override requires a non-empty reason.")
  else
    let state ← load
    let _ ← Effect.ofExcept (stageIndex state stageId)
    let state ← manager.save env.save (markOverridden env.now state stageId)
    manager.logTransition env.log .stageOverride state stageId (some (pyStrip reason))

end StateManager

/-- The transitions a project can be asked for. -/
inductive Request where
  | startStage (env : TransitionEnv) (stageId : String)
  | completeStage (env : CompleteEnv) (stageId : String)
  | advance (env : AdvanceEnv)
  | overrideStage (env : TransitionEnv) (stageId reason : String)

def Request.perform (manager : StateManager) : Request → Forge PipelineState
  | .startStage env stageId => manager.startStage env stageId
  | .completeStage env stageId => manager.completeStage env stageId
  | .advance env => manager.advance env
  | .overrideStage env stageId reason => manager.overrideStage env stageId reason

/-- One call, each through a manager of its own. -/
structure Call where
  manager : StateManager
  request : Request

/-- How a call ends, and the files it leaves behind. -/
def Call.exec (call : Call) (d : Disk) : Except Failure PipelineState × Disk :=
  (call.request.perform call.manager).exec d

/-- The files after a call, whether it returned or raised. -/
def Call.step (d : Disk) (call : Call) : Disk := (call.exec d).2

/-! ### A world in which nothing fails -/

/-- An `emit` that is logged and meets no failing hook. -/
def EmitEnv.calm (uuid : String) : EmitEnv where
  stamp := ⟨uuid, "2025-01-01T00:00:00Z"⟩
  append := .ok ()
  hookCalls := ⟨fun _ _ => .returned, fun _ => 0⟩
  timingsWritable := true
  recordedAt := fun _ => "2025-01-01T00:00:00Z"

def SaveEnv.calm : SaveEnv where
  updatedAt := "2025-01-01T00:00:00Z"
  stateWrite := .written
  config := .ok ⟨"demo", "minimal"⟩
  markdownWrite := .written
  storeWrites := true
  createdAt := "2025-01-01T00:00:00Z"

def TransitionEnv.calm (uuid : String) : TransitionEnv where
  now := "2025-01-01T00:00:00Z"
  save := .calm
  log := ⟨.calm uuid, .written⟩

/-- A project without files and commands: every check of a file fails. -/
def GateCheck.calm : GateCheck where
  startedAt := "2025-01-01T00:00:00Z"
  finishedAt := "2025-01-01T00:00:00Z"
  durationMs := 0
  isFile := fun _ => .ok false
  readText := fun path => .error s!"No such file or directory: {path}"
  search := fun _ _ => .ok false
  commandGate := fun _ _ => .error "1 validation error for ExternalCommandGate"
  runCommand := fun _ => .raised "No such file or directory"
  metricGate := fun _ _ _ _ => .error "1 validation error for MetricThresholdGate"
  fileExists := fun _ => .ok false
  readJson := fun path => .error s!"No such file or directory: {path}"
  pyStr := Json.typeName

/-- A `complete_stage` under the given gates, in which nothing else fails. -/
def CompleteEnv.calm (uuid : String) (gates : List GateCriterion) : CompleteEnv where
  gates := ⟨.calm "gates-started", .ok gates, fun _ => .calm, .calm "gates-completed"⟩
  transition := .calm uuid
  reflection := .ok ()

def AdvanceEnv.calm (completed started : String) : AdvanceEnv where
  complete := .calm completed []
  start := .calm started
  final := .calm

def StateManager.demo : StateManager := ⟨"/demo", []⟩

/-- A fresh project of the minimal profile. -/
def Disk.demo : Disk :=
  .scaffolded (buildStateOf "minimal" "0" "2025-01-01T00:00:00Z" minimalStages) ""

/-! ### A world in which something fails -/

/-- A manager with a blocking hook on `StageCompleted`. -/
def StateManager.guarded : StateManager where
  projectRoot := "/demo"
  hookRegistry := [{ eventType := "StageCompleted", name := "audit", blocking := true }]

/-- Completing a stage while the blocking hook raises. -/
def CompleteEnv.hookRaises : CompleteEnv :=
  let calm := CompleteEnv.calm "1" []
  { calm with transition := { calm.transition with log :=
      ⟨{ EmitEnv.calm "1" with hookCalls := ⟨fun _ _ => .raised "denied", fun _ => 0⟩ },
        .written⟩ } }

/-- The pipeline advances; then a start is refused, for its stage is not the next
one, and a completion raises, for a blocking hook does. -/
def troubledCalls : List Call := [
  ⟨.demo, .advance (.calm "1" "2")⟩,
  ⟨.demo, .startStage (.calm "3") "deploy"⟩,
  ⟨.guarded, .completeStage .hookRaises "build"⟩]

end ForgeOS
