import ForgeOS.Schemas.State

/-!
The state `forge init` starts a project with. The stages are those of the
profile, in order; the first one is active.
-/

namespace ForgeOS

def minimalStages : List String := ["srs", "build", "deploy"]

def standardStages : List String :=
  ["srs", "product", "architecture", "spec", "plan", "build", "eval", "deploy", "monitor",
    "feedback", "resolve", "release"]

def expertStages : List String := standardStages

/-- The ids of the stage templates of a profile, or the error text of the
`ValueError` for an unsupported one. -/
def getProfileStages (profile : String) : Except String (List String) :=
  if profile = "minimal" then .ok minimalStages
  else if profile = "standard" then .ok standardStages
  else if profile = "expert" then .ok expertStages
  else .error s!"Unsupported profile: {profile}"

/-- `_build_state`, over the stage ids the profile yields. `uuid` and
`timestamp` are what `uuid4` and the clock return. -/
def buildStateOf (profile uuid timestamp : String) (stages : List String) : PipelineState where
  schemaVersion := "0.1"
  projectId := s!"forge-{uuid}"
  profile := profile
  currentStageId := stages.head?
  stages := stages.mapIdx fun index id => {
    stageId := id
    status := if index = 0 then .active else .notStarted
    enteredAt := if index = 0 then some timestamp else none }
  gates := []
  lastEventId := none
  createdAt := timestamp
  updatedAt := timestamp
  metadata := [("created_by", .str "forge init")]

def buildState (profile uuid timestamp : String) : Except String PipelineState := do
  let stages ← getProfileStages profile
  return buildStateOf profile uuid timestamp stages

/-- The lifecycle view of a fresh project: the first stage is active and
current, the others have not started. -/
theorem buildStateOf_view (profile uuid timestamp : String) (stages : List String) :
    (buildStateOf profile uuid timestamp stages).view =
      ⟨match stages with
        | [] => []
        | first :: rest => (first, .active) :: rest.map fun id => (id, .notStarted),
        stages.head?⟩ := by
  cases stages with
  | nil => rfl
  | cons first rest =>
      simp only [PipelineState.view, View.mk.injEq]
      refine ⟨?_, rfl⟩
      apply List.ext_getElem
      · simp [buildStateOf]
      · intro i _ _
        cases i with
        | zero => simp [buildStateOf, StageState.entry]
        | succ i => simp [buildStateOf, StageState.entry]

theorem buildStateOf_ids (profile uuid timestamp : String) (stages : List String) :
    (buildStateOf profile uuid timestamp stages).view.ids = stages := by
  rw [buildStateOf_view]
  cases stages with
  | nil => rfl
  | cons first rest =>
      simp only [View.ids, List.map_cons, List.map_map, Function.comp_def, List.map_id']

end ForgeOS
