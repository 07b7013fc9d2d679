import ForgeOS.Json

/-!
The pipeline state document of `.forge/state.json`, and its view as a
sequence of stage statuses with a pointer to the current stage.
-/

namespace ForgeOS

open Library

inductive StageStatus where
  | notStarted
  | active
  | blocked
  | reviewNeeded
  | complete
  | skipped
deriving DecidableEq, Repr

/-- The literal each status is persisted as. -/
def StageStatus.value : StageStatus → String
  | .notStarted => "not_started"
  | .active => "active"
  | .blocked => "blocked"
  | .reviewNeeded => "review_needed"
  | .complete => "complete"
  | .skipped => "skipped"

structure StageState where
  stageId : String
  status : StageStatus := .notStarted
  enteredAt : Option String := none
  completedAt : Option String := none
  blockedReason : Option String := none
  artifacts : List String := []
deriving Repr

structure PipelineState where
  schemaVersion : String := "0.1"
  projectId : String
  profile : String
  currentStageId : Option String
  stages : List StageState
  gates : JsonObject := []
  lastEventId : Option String := none
  createdAt : String
  updatedAt : String
  metadata : JsonObject := []
deriving Repr

def StageState.modelDump (stage : StageState) : Json := .obj [
  ("stage_id", .str stage.stageId),
  ("status", .str stage.status.value),
  ("entered_at", .optional stage.enteredAt),
  ("completed_at", .optional stage.completedAt),
  ("blocked_reason", .optional stage.blockedReason),
  ("artifacts", .arr (stage.artifacts.map .str))]

def PipelineState.modelDump (state : PipelineState) : JsonObject := [
  ("schema_version", .str state.schemaVersion),
  ("project_id", .str state.projectId),
  ("profile", .str state.profile),
  ("current_stage_id", .optional state.currentStageId),
  ("stages", .arr (state.stages.map StageState.modelDump)),
  ("gates", .obj state.gates),
  ("last_event_id", .optional state.lastEventId),
  ("created_at", .str state.createdAt),
  ("updated_at", .str state.updatedAt),
  ("metadata", .obj state.metadata)]

/-- Every state document has the same keys. -/
theorem PipelineState.modelDump_keys (s t : PipelineState) :
    s.modelDump.map Prod.fst = t.modelDump.map Prod.fst := rfl

theorem PipelineState.modelDump_keys_nodup (s : PipelineState) :
    (s.modelDump.map Prod.fst).Nodup := by
  simp only [modelDump, List.map_cons, List.map_nil]
  decide

/-- What a state says about the lifecycle: the status of each stage in
pipeline order, and the current stage. -/
structure View where
  stages : Dict String StageStatus
  current : Option String
deriving DecidableEq, Repr

def StageState.entry (stage : StageState) : String × StageStatus :=
  (stage.stageId, stage.status)

def PipelineState.view (state : PipelineState) : View :=
  ⟨state.stages.map StageState.entry, state.currentStageId⟩

def View.ids (v : View) : List String := v.stages.map Prod.fst

def View.statuses (v : View) : List StageStatus := v.stages.map Prod.snd

@[simp]
theorem PipelineState.view_stages (s : PipelineState) :
    s.view.stages = s.stages.map StageState.entry := rfl

@[simp]
theorem PipelineState.view_current (s : PipelineState) :
    s.view.current = s.currentStageId := rfl

theorem PipelineState.view_ids (s : PipelineState) :
    s.view.ids = s.stages.map StageState.stageId := by
  simp only [View.ids, view_stages, List.map_map]
  rfl

end ForgeOS
