import ForgeOS.Json

/-!
Normalized lifecycle events, one JSON line each in `.forge/events.jsonl`.
-/

namespace ForgeOS

open Library

inductive EventType where
  | sessionStart | userPromptSubmit | stageStarted | stageCompleted | stageBlocked
  | stageOverride | gateStarted | gateCompleted | stop | subagentStop | sessionEnd
  | artifactChanged | hookStarted | hookCompleted | hookFailed | hookTimedOut
  | backtrackTicketCreated | backtrackTicketApproved | backtrackReworkStarted
  | backtrackReworkCompleted | securityActionAudited | acpRegistryDiscovered
  | acpAgentInstalled | acpSessionStarted | acpSessionClosed
  | externalCommandGateEvaluated | metricThresholdGateEvaluated | stateSaved
  | tokenBudgetExceeded
deriving DecidableEq, Repr

/-- The literal each event type is persisted as. -/
def EventType.value : EventType → String
  | .sessionStart => "SessionStart"
  | .userPromptSubmit => "UserPromptSubmit"
  | .stageStarted => "StageStarted"
  | .stageCompleted => "StageCompleted"
  | .stageBlocked => "StageBlocked"
  | .stageOverride => "StageOverride"
  | .gateStarted => "GateStarted"
  | .gateCompleted => "GateCompleted"
  | .stop => "Stop"
  | .subagentStop => "SubagentStop"
  | .sessionEnd => "SessionEnd"
  | .artifactChanged => "ArtifactChanged"
  | .hookStarted => "HookStarted"
  | .hookCompleted => "HookCompleted"
  | .hookFailed => "HookFailed"
  | .hookTimedOut => "HookTimedOut"
  | .backtrackTicketCreated => "BacktrackTicketCreated"
  | .backtrackTicketApproved => "BacktrackTicketApproved"
  | .backtrackReworkStarted => "BacktrackReworkStarted"
  | .backtrackReworkCompleted => "BacktrackReworkCompleted"
  | .securityActionAudited => "SecurityActionAudited"
  | .acpRegistryDiscovered => "ACPRegistryDiscovered"
  | .acpAgentInstalled => "ACPAgentInstalled"
  | .acpSessionStarted => "ACPSessionStarted"
  | .acpSessionClosed => "ACPSessionClosed"
  | .externalCommandGateEvaluated => "ExternalCommandGateEvaluated"
  | .metricThresholdGateEvaluated => "MetricThresholdGateEvaluated"
  | .stateSaved => "StateSaved"
  | .tokenBudgetExceeded => "TokenBudgetExceeded"

structure EventActor where
  type : String
  id : String
deriving Repr

structure LifecycleEvent where
  schemaVersion : String := "0.1"
  eventId : String
  correlationId : Option String := none
  eventType : EventType
  timestamp : String
  sessionId : Option String := none
  stageId : Option String := none
  actor : EventActor
  payload : JsonObject := []
  redactions : List String := []
deriving Repr

/-- What `uuid4` and the clock return while an event is built. -/
structure EventStamp where
  uuid : String
  timestamp : String

/-- `new_event`, for the arguments the core passes. -/
def newEvent (stamp : EventStamp) (eventType : EventType) (stageId : Option String)
    (actorType actorId : String) (payload : JsonObject) : LifecycleEvent where
  eventId := s!"evt-{stamp.uuid}"
  eventType := eventType
  timestamp := stamp.timestamp
  stageId := stageId
  actor := { type := actorType, id := actorId }
  payload := payload

end ForgeOS
