import ForgeOS.Json

/-!
Gate criteria of `pipeline/gates.yaml` and the results of evaluating them.
-/

namespace ForgeOS

open Library

/-- A single gate criterion loaded from `pipeline/gates.yaml`. `severity` and
`type` are free strings: the schema restricts neither. -/
structure GateCriterion where
  id : String
  name : String
  type : String
  stageId : Option String := none
  severity : String := "blocking"
  enabled : Bool := true
  criteria : JsonObject := []
deriving Repr

inductive GateStatus where
  | pass
  | fail
  | error
  | warn
  | skipped
deriving DecidableEq, Repr

/-- The literal each status is persisted as. -/
def GateStatus.value : GateStatus → String
  | .pass => "pass"
  | .fail => "fail"
  | .error => "error"
  | .warn => "warn"
  | .skipped => "skipped"

/-- Result of evaluating a single gate criterion. -/
structure GateResult where
  gateId : String
  stageId : Option String := none
  status : GateStatus
  summary : String
  details : JsonObject := []
  startedAt : String
  finishedAt : String
  durationMs : Int := 0
  blocking : Bool := false
  fixHint : Option String := none
  metadata : JsonObject := []
deriving Repr

def GateResult.modelDump (result : GateResult) : Json := .obj [
  ("gate_id", .str result.gateId),
  ("stage_id", .optional result.stageId),
  ("status", .str result.status.value),
  ("summary", .str result.summary),
  ("details", .obj result.details),
  ("started_at", .str result.startedAt),
  ("finished_at", .str result.finishedAt),
  ("duration_ms", .int result.durationMs),
  ("blocking", .bool result.blocking),
  ("fix_hint", .optional result.fixHint),
  ("metadata", .obj result.metadata)]

/-- Gate that executes an external command and checks for success. -/
structure ExternalCommandGate where
  command : List String
  timeoutSeconds : Int
deriving Repr

/-- Gate that parses a metric from a file and checks a threshold. -/
structure MetricThresholdGate where
  metricFile : String
  metricKey : String
  threshold : PyFloat
  operator : String
deriving Repr

end ForgeOS
