import ForgeOS.Events.Bus
import ForgeOS.Gates.Models

/-!
The deterministic gate coordinator: select the gates of a stage, run the
checker of each, and turn what it found into a result that may block the
stage. Files, regular expressions, commands and the schema library are
foreign; a `GateCheck` says how they answer while one gate is evaluated.
-/

namespace ForgeOS

open Library

/-- How an external command ended. -/
inductive CommandOutcome where
  | exited (returncode : Int) (stdout stderr : String)
  | timedOut
  | raised (error : String)
deriving DecidableEq, Repr

/-- What the outside world answers while one gate is evaluated. Paths are
relative to the project root. An error is the text of the exception raised. -/
structure GateCheck where
  startedAt : String
  finishedAt : String
  durationMs : Int
  isFile : String → Except String Bool
  readText : String → Except String String
  /-- `re.search` with `re.MULTILINE`, of a pattern in a text. -/
  search : String → String → Except String Bool
  /-- Validation of an `ExternalCommandGate`'s command and timeout. -/
  commandGate : List Json → Json → Except String ExternalCommandGate
  runCommand : ExternalCommandGate → CommandOutcome
  /-- Validation of a `MetricThresholdGate`'s file, key, threshold and operator. -/
  metricGate : Json → Json → Json → Json → Except String MetricThresholdGate
  fileExists : String → Except String Bool
  /-- `json.loads` of a file's text. -/
  readJson : String → Except String Json
  /-- `str` of a decoded value. -/
  pyStr : Json → String

/-- What a checker reports: status, summary, fix hint and details. -/
structure CheckOutcome where
  status : GateStatus
  summary : String
  fixHint : Option String := none
  details : JsonObject := []
deriving Repr

def checkRequiredFile (check : GateCheck) (gate : GateCriterion) :
    Except String CheckOutcome :=
  match (gate.criteria.get? "path").bind Json.str? with
  | none => .ok ⟨.error, s!"Gate `{gate.id}` requires criteria.path.", none, []⟩
  | some path =>
      if pyStrip path = "" then
        .ok ⟨.error, s!"Gate `{gate.id}` requires criteria.path.", none, []⟩
      else do
        if ← check.isFile path then
          return ⟨.pass, s!"Required file exists: {path}", none, [("path", .str path)]⟩
        return ⟨.fail, s!"Required file is missing: {path}",
          some s!"Create `{path}` before completing this stage.", [("path", .str path)]⟩

def checkPattern (check : GateCheck) (gate : GateCriterion) : Except String CheckOutcome :=
  match (gate.criteria.get? "path").bind Json.str? with
  | none => .ok ⟨.error, s!"Gate `{gate.id}` requires criteria.path.", none, []⟩
  | some path =>
      if pyStrip path = "" then
        .ok ⟨.error, s!"Gate `{gate.id}` requires criteria.path.", none, []⟩
      else match (gate.criteria.get? "pattern").bind Json.str? with
        | none => .ok ⟨.error, s!"Gate `{gate.id}` requires criteria.pattern.", none, []⟩
        | some pattern =>
            if pattern = "" then
              .ok ⟨.error, s!"Gate `{gate.id}` requires criteria.pattern.", none, []⟩
            else do
              let details : JsonObject := [("path", .str path), ("pattern", .str pattern)]
              if !(← check.isFile path) then
                return ⟨.fail, s!"Pattern file is missing: {path}",
                  some s!"Create `{path}` and include pattern `{pattern}`.", details⟩
              let content ← check.readText path
              if ← check.search pattern content then
                return ⟨.pass, s!"Pattern `{pattern}` found in {path}", none, details⟩
              return ⟨.fail, s!"Pattern `{pattern}` not found in {path}",
                some s!"Update `{path}` so it matches `{pattern}`.", details⟩

/-- `GateEvaluator.evaluate_external_command`, which catches everything. -/
def evaluateExternalCommand (check : GateCheck) (gate : ExternalCommandGate) : CheckOutcome :=
  match check.runCommand gate with
  | .exited returncode stdout stderr =>
      ⟨if returncode = 0 then .pass else .fail, s!"Command exited with {returncode}", none,
        [("stdout", .str stdout), ("stderr", .str stderr)]⟩
  | .timedOut => ⟨.error, s!"Command timed out after {gate.timeoutSeconds}s", none, []⟩
  | .raised error => ⟨.error, error, none, []⟩

/-- `value <operator> threshold`. An operator outside the five never passes;
an order between a number and anything else raises. -/
def compareMetric (operator : String) (value : Json) (threshold : PyFloat) :
    Except String Bool :=
  let ordered (test : PyFloat → Bool) : Except String Bool :=
    match value.number? with
    | some number => .ok (test number)
    | none =>
        let typeName := value.typeName
        .error s!"'{operator}' not supported between instances of '{typeName}' and 'float'"
  if operator = ">=" then ordered fun number => threshold.le number
  else if operator = ">" then ordered fun number => threshold.lt number
  else if operator = "<=" then ordered fun number => number.le threshold
  else if operator = "<" then ordered fun number => number.lt threshold
  else if operator = "==" then .ok (value.number?.any fun number => number.eq threshold)
  else .ok false

/-- The `try` block of `GateEvaluator.evaluate_metric_threshold`. -/
def measureMetric (check : GateCheck) (gate : MetricThresholdGate) :
    Except String CheckOutcome := do
  if !(← check.fileExists gate.metricFile) then
    return ⟨.error, s!"Metric file {gate.metricFile} not found", none, []⟩
  match ← check.readJson gate.metricFile with
  | .obj data =>
      match (Dict.get? data gate.metricKey).getD .null with
      | .null =>
          return ⟨.error, s!"Metric key {gate.metricKey} not found in {gate.metricFile}", none, []⟩
      | value =>
          let passed ← compareMetric gate.operator value gate.threshold
          let shown := check.pyStr value
          let threshold := check.pyStr (.float gate.threshold)
          return ⟨if passed then .pass else .fail,
            s!"Metric {gate.metricKey} is {shown} (Threshold {gate.operator} {threshold})",
            none, []⟩
  | other =>
      let typeName := other.typeName
      .error s!"'{typeName}' object has no attribute 'get'"

def evaluateMetricThreshold (check : GateCheck) (gate : MetricThresholdGate) : CheckOutcome :=
  match measureMetric check gate with
  | .ok outcome => outcome
  | .error error => ⟨.error, error, none, []⟩

/-- The checker of a gate's type. -/
def runChecker (check : GateCheck) (gate : GateCriterion) : Except String CheckOutcome :=
  if gate.type = "required_file" then checkRequiredFile check gate
  else if gate.type = "pattern" then checkPattern check gate
  else if gate.type = "external_command" then do
    let command := (gate.criteria.get? "command").getD (.arr [])
    match command.toList? with
    | some items =>
        let timeout := (gate.criteria.get? "timeout").getD (.int 30)
        let commandGate ← check.commandGate items timeout
        return evaluateExternalCommand check commandGate
    | none =>
        let typeName := command.typeName
        .error s!"'{typeName}' object is not iterable"
  else if gate.type = "metric_threshold" then do
    let metricGate ← check.metricGate
      ((gate.criteria.get? "metric_file").getD (.str ""))
      ((gate.criteria.get? "metric_key").getD (.str ""))
      ((gate.criteria.get? "threshold").getD (.float (.finite 0)))
      ((gate.criteria.get? "operator").getD (.str ">="))
    return evaluateMetricThreshold check metricGate
  else .ok ⟨.error, s!"Unsupported gate type `{gate.type}`.",
    some "Use: required_file, pattern, external_command, or metric_threshold.", []⟩

/-- A failure of a gate that only warns or advises is downgraded. -/
def downgrade (severity : String) (status : GateStatus) : GateStatus :=
  if status = .fail ∧ (severity = "warning" ∨ severity = "advisory") then
    if severity = "warning" then .warn else .skipped
  else status

/-- Evaluate one gate criterion. A checker that raises is an error. -/
def evaluateGate (check : GateCheck) (gate : GateCriterion) : GateResult :=
  let outcome := match runChecker check gate with
    | .ok outcome => outcome
    | .error exc => ⟨.error, s!"Gate `{gate.id}` errored: {exc}",
        some "Inspect the gate criteria and project files.", [("error", .str exc)]⟩
  let status := downgrade gate.severity outcome.status
  { gateId := gate.id
    stageId := gate.stageId
    status := status
    summary := outcome.summary
    details := outcome.details
    startedAt := check.startedAt
    finishedAt := check.finishedAt
    durationMs := check.durationMs
    blocking := (status = .fail || status = .error) && gate.severity = "blocking"
    fixHint := outcome.fixHint
    metadata := [("severity", .str gate.severity), ("type", .str gate.type)] }

/-- Enabled gates for a stage, sorted by id. -/
def gatesForStage (gates : List GateCriterion) (stageId : String) : List GateCriterion :=
  (gates.filter fun gate => gate.enabled &&
    (gate.stageId = none || gate.stageId = some stageId)).insertionSort fun a b => a.id ≤ b.id

/-- Return true if any result blocks progression. -/
def hasBlockingFailures (results : List GateResult) : Bool := results.any GateResult.blocking

/-- What the outside world does during one `evaluate_stage`. -/
structure GateEnv where
  started : EmitEnv
  /-- The criteria loaded from `gates.yaml`, or the text of the load error. -/
  gates : Except String (List GateCriterion)
  checks : Nat → GateCheck
  completed : EmitEnv

/-- The results of a stage's gates, in order. -/
def gateResults (env : GateEnv) (stageId : String) : Except String (List GateResult) :=
  env.gates.map fun gates =>
    (gatesForStage gates stageId).mapIdx fun position gate =>
      evaluateGate (env.checks position) gate

/-- `_emit`: the events of the coordinator. -/
def emitGateEvent (registry : HookRegistry) (env : EmitEnv) (eventType : EventType)
    (stageId : String) (payload : JsonObject) : Forge Unit := do
  let _ ← emit registry env
    (newEvent env.stamp eventType (some stageId) "core" "gate-coordinator" payload)

def evaluateStage (registry : HookRegistry) (env : GateEnv) (stageId : String) :
    Forge (List GateResult) := do
  emitGateEvent registry env.started .gateStarted stageId [("stage_id", .str stageId)]
  let results ← Effect.ofExcept ((gateResults env stageId).mapError .gateLoad)
  emitGateEvent registry env.completed .gateCompleted stageId [
    ("stage_id", .str stageId),
    ("blocking_failed", .bool (hasBlockingFailures results)),
    ("result_count", .int results.length)]
  return results

end ForgeOS
