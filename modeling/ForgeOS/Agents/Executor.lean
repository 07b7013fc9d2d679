import ForgeOS.Adapters.Bridge
import ForgeOS.Context.Runs
import ForgeOS.Events.Model

/-!
One run of a stage agent, from the spawn on: the handle of the adapter, the
check of the output contract, the registration of the outputs, the record of
the run and its event. What is prepared before the spawn (configuration,
persona, contract, context) is given, the metadata of a handle is JSON data, and
the files under `.forge` take what is written to them.
-/

namespace ForgeOS

open Library

/-- Record persisted to `.forge/agent-runs.jsonl`. -/
structure AgentRunRecord where
  runId : String
  adapter : String
  handleId : String
  personaId : String
  stageId : String
  status : String
  startedAt : String
  completedAt : Option String
  outputs : List OutputArtifact
  contract : Option ContractValidationResult
  metadata : JsonObject

/-- What a run of an agent reads and writes: the artifact registry with its
project, the paths that exist under the project root, and the two logs. -/
structure StageWorkspace where
  project : Project
  onDisk : String → Except PyError Bool
  agentRuns : List AgentRunRecord
  events : List LifecycleEvent

/-- What an adapter raises while it spawns an agent. -/
inductive SpawnError where
  /-- `AdapterRegistryError`. -/
  | registry (message : String)
  | other (error : PyError)

/-- What `run_stage_agent` raises. -/
inductive StageRunError where
  /-- `AgentExecutionError`, for an adapter that is not available. -/
  | adapter (message : String)
  /-- `AgentExecutionError`, for outputs the registry refuses. -/
  | outputs (error : RegistryError)
  /-- `AgentExecutionError`, for a contract that is not met. -/
  | contract (summaries : String)
  /-- A `ValidationError` of the registry. -/
  | validation (message : String)
  /-- Any other exception, of the adapter or of a path that is looked up. -/
  | uncaught (error : PyError)

def StageRunError.isAgentExecutionError : StageRunError → Bool
  | .adapter _ | .outputs _ | .contract _ => true
  | .validation _ | .uncaught _ => false

/-- A computation of the executor. -/
abbrev StageRun (α : Type) := Effect StageWorkspace StageRunError α

/-- The run that has been prepared. An adapter may change the workspace while
its agent works. -/
structure StageLaunch where
  stageId : String
  persona : AgentDefinition
  contract : OutputContract
  context : String
  defaultTools : List String
  spawnAgent : AgentDefinition → String → List String →
    Effect StageWorkspace SpawnError AgentHandle
  runUuid : String
  startedAt : String
  completedAt : String
  stamp : EventStamp
  /-- The entries of the record's metadata that are about the context. -/
  contextMetadata : JsonObject

/-- `except AdapterRegistryError`. -/
def StageRunError.ofSpawn : SpawnError → StageRunError
  | .registry message => .adapter message
  | .other error => .uncaught error

/-- `except ArtifactRegistryError`. -/
def StageRunError.ofRegistry : RegistryError → StageRunError
  | .validation message => .validation message
  | .uncaught error => .uncaught error
  | error => .outputs error

def registerAgentOutputs (host : Host) (stageId : String) (outputPaths : List String) :
    StageRun (List Artifact) :=
  ((registerStageOutputs host stageId outputPaths).mapError StageRunError.ofRegistry).within
    StageWorkspace.project fun project workspace => { workspace with project := project }

def appendAgentRecord (record : AgentRunRecord) : StageRun Unit :=
  modify fun workspace => { workspace with agentRuns := workspace.agentRuns ++ [record] }

/-- The payload of the `SubagentStop` event. -/
def AgentRunRecord.stopPayload (record : AgentRunRecord) : JsonObject :=
  [("run_id", .str record.runId), ("persona_id", .str record.personaId),
    ("status", .str record.status),
    ("contract_passed", match record.contract with
      | some contract => .bool contract.passed
      | none => .null)]

def appendAgentEvent (stamp : EventStamp) (record : AgentRunRecord) : StageRun Unit :=
  modify fun workspace => { workspace with
    events := workspace.events ++ [newEvent stamp .subagentStop (some record.stageId) "adapter"
      record.adapter record.stopPayload] }

def contractMessage (contract : OutputContract) (validation : ContractValidationResult) :
    String :=
  let summaries := String.intercalate "; "
    ((validation.checks.filter fun check => !check.passed).map ContractCheck.summary)
  if summaries = "" then s!"Output contract `{contract.id}` failed." else summaries

def StageLaunch.record (launch : StageLaunch) (handle : AgentHandle)
    (validation : ContractValidationResult) : AgentRunRecord where
  runId := s!"run-{launch.runUuid}"
  adapter := handle.provider
  handleId := handle.handleId
  personaId := launch.persona.id
  stageId := launch.stageId
  status :=
    if validation.passed && handle.status = "completed" then "completed" else "contract_failed"
  startedAt := launch.startedAt
  completedAt := some launch.completedAt
  outputs := handle.outputs
  contract := some validation
  metadata := ("adapter_metadata", .obj handle.metadata) :: launch.contextMetadata

/-- `run_stage_agent` once its agent has stopped. -/
def finishStageRun (host : Host) (launch : StageLaunch) (handle : AgentHandle) :
    StageRun AgentRunRecord := do
  let validation ← Effect.ofExcept
    ((validateContract (← get).onDisk launch.contract).mapError .uncaught)
  let record := launch.record handle validation
  let _ ← registerAgentOutputs host launch.stageId (handle.outputs.map OutputArtifact.path)
  appendAgentRecord record
  appendAgentEvent launch.stamp record
  if !validation.passed then throw (.contract (contractMessage launch.contract validation))
  return record

/-- `persona.default_tools or adapter.get_default_tools()`. -/
def StageLaunch.tools (launch : StageLaunch) : List String :=
  if launch.persona.defaultTools = [] then launch.defaultTools else launch.persona.defaultTools

/-- `adapter.spawn_agent(persona, context, tools)`. -/
def StageLaunch.spawn (launch : StageLaunch) : Effect StageWorkspace SpawnError AgentHandle :=
  launch.spawnAgent launch.persona launch.context launch.tools

def runStageAgent (host : Host) (launch : StageLaunch) : StageRun AgentRunRecord := do
  let handle ← launch.spawn.mapError StageRunError.ofSpawn
  finishStageRun host launch handle

/-! ### What the registry raises -/

/-- The error is an `ArtifactRegistryError`. -/
def RegistryError.isArtifactRegistryError : RegistryError → Bool
  | .validation _ | .uncaught _ => false
  | _ => true

/-- What the registry raises of some outputs: what it raises as it is loaded, if
there are any, or else what the first of them raises, in the order of their
registration. -/
def Project.outputsError (host : Host) (project : Project) (outputPaths : List String) :
    Option RegistryError :=
  if outputPaths = [] then none
  else match project.load with
    | .error error => some error
    | .ok _ => (distinctOutputs outputPaths).findSome? fun path => errorOf (host.locate path)

section Outputs

variable {host : Host} {project : Project} {stageId : String}

/-- What is entered under an accepted path can be loaded again. -/
private theorem load_of_entered {project' : Project} {document : ArtifactDocument}
    {path normalized : String} {dependencies : List String} (hload : project.load = .ok document)
    (hpath : host.locate path = .ok normalized)
    (hholds : project'.Holds (rebuildDependents
      (entered host project document normalized (some stageId) dependencies))) :
    ∃ document', project'.load = .ok document' := by
  refine ⟨_, Project.load_of_holds hholds ?_⟩
  intro path hentered
  rw [entered_paths] at hentered
  split at hentered
  · exact Project.accepted_of_load hload path hentered
  · rcases List.mem_append.mp hentered with hold | hnew
    · exact Project.accepted_of_load hload path hold
    · rw [List.mem_singleton.mp hnew]
      exact Artifact.normalizePath_of_accepted (Host.locate_eq_ok.mp hpath).1

variable (host stageId) in
private theorem exec_registerOutput {document : ArtifactDocument} {path normalized : String}
    (hload : project.load = .ok document) (hpath : host.locate path = .ok normalized) :
    ∃ artifact project', (registerOutput host stageId path).exec project =
      (.ok artifact, project') ∧ ∃ document', project'.load = .ok document' := by
  obtain ⟨dependencies, hdefaults⟩ : ∃ dependencies,
      project.defaultDependencies stageId = .ok dependencies :=
    ⟨_, Project.defaultDependencies_of_load hload stageId⟩
  simp only [registerOutput, Effect.exec_bind, Effect.exec_get, Effect.exec_ofExcept, hdefaults]
  obtain ⟨artifact, project', hexec, -, hholds⟩ :=
    exec_register host (some stageId) (some dependencies) hload hpath
  exact ⟨artifact, project', hexec, load_of_entered hload hpath hholds⟩

private theorem exec_registerOutput_of_path_error {document : ArtifactDocument} {path : String}
    {error : RegistryError} (hload : project.load = .ok document)
    (hpath : host.locate path = .error error) :
    (registerOutput host stageId path).exec project = (.error error, project) := by
  have hdefaults := Project.defaultDependencies_of_load hload stageId
  simp only [registerOutput, Effect.exec_bind, Effect.exec_get, Effect.exec_ofExcept, hdefaults]
  exact exec_register_of_path_error hload hpath

variable (host stageId) in
/-- The loop over the outputs returns when all of them can be located, and
raises what the first other one raises. -/
private theorem exec_outputs {document : ArtifactDocument} (paths : List String)
    (hload : project.load = .ok document) :
    (∃ error, (paths.findSome? fun path => errorOf (host.locate path)) = some error ∧
      (Effect.exec (paths.mapM (registerOutput host stageId)) project).1 = .error error) ∨
    ((paths.findSome? fun path => errorOf (host.locate path)) = none ∧ ∃ artifacts,
      (Effect.exec (paths.mapM (registerOutput host stageId)) project).1 = .ok artifacts) := by
  induction paths generalizing project document with
  | nil => exact Or.inr ⟨rfl, [], rfl⟩
  | cons path rest ih =>
      rw [List.mapM_cons, List.findSome?_cons]
      cases hpath : host.locate path with
      | error error =>
          rw [Effect.exec_bind_error _ (exec_registerOutput_of_path_error hload hpath)]
          exact Or.inl ⟨error, rfl, rfl⟩
      | ok normalized =>
          obtain ⟨artifact, project', hexec, document', hload'⟩ :=
            exec_registerOutput host stageId hload hpath
          rw [Effect.exec_bind_ok _ hexec, Effect.exec_bind]
          have hrest := ih hload'
          rcases hrun : Effect.exec (rest.mapM (registerOutput host stageId)) project' with
            ⟨outcome, project''⟩
          rw [hrun] at hrest
          rcases hrest with ⟨error, hfirst, herror⟩ | ⟨hfirst, artifacts, hartifacts⟩
          · obtain rfl : outcome = .error error := herror
            exact Or.inl ⟨error, hfirst, rfl⟩
          · obtain rfl : outcome = .ok artifacts := hartifacts
            exact Or.inr ⟨hfirst, artifact :: artifacts, rfl⟩

/-- A registry that cannot be loaded refuses every output. -/
private theorem exec_registerOutput_of_load_error {error : RegistryError}
    (hload : project.load = .error error) (path : String) :
    (registerOutput host stageId path).exec project = (.error error, project) := by
  simp only [registerOutput, Effect.exec_bind, Effect.exec_get, Effect.exec_ofExcept,
    Project.defaultDependencies]
  split
  · rename_i dependencies project' hdefaults
    obtain ⟨hdefaults, rfl⟩ := Prod.mk.inj hdefaults
    simp only [register, Effect.exec_bind, Effect.exec_get, Effect.exec_ofExcept, hload]
  · rename_i other project' hdefaults
    obtain ⟨hdefaults, rfl⟩ := Prod.mk.inj hdefaults
    split at hdefaults
    · cases hdefaults
    · split at hdefaults
      · cases hdefaults
      · rw [hload] at hdefaults
        cases hdefaults
        rfl

variable (host project stageId) in
/-- The outputs of a stage are registered when the registry raises nothing of
them. -/
theorem registerStageOutputs_cases (paths : List String) :
    (∃ error, project.outputsError host paths = some error ∧
      ((registerStageOutputs host stageId paths).exec project).1 = .error error) ∨
    (project.outputsError host paths = none ∧
      ∃ artifacts, ((registerStageOutputs host stageId paths).exec project).1 =
        .ok artifacts) := by
  unfold registerStageOutputs Project.outputsError
  by_cases hempty : paths = []
  · subst hempty
    exact Or.inr ⟨if_pos rfl, [], rfl⟩
  · rw [if_neg hempty]
    cases hload : project.load with
    | ok document => exact exec_outputs host stageId (distinctOutputs paths) hload
    | error error =>
        refine Or.inl ⟨error, rfl, ?_⟩
        cases hdistinct : distinctOutputs paths with
        | nil =>
            have hlength : (distinctOutputs paths).length = paths.dedup.length :=
              List.length_insertionSort _ _
            rw [hdistinct, eq_comm, List.length_nil, List.length_eq_zero_iff,
              List.dedup_eq_nil] at hlength
            exact absurd hlength hempty
        | cons path rest =>
            rw [List.mapM_cons,
              Effect.exec_bind_error _ (exec_registerOutput_of_load_error hload path)]

end Outputs

/-! ### How a run ends -/

section Runs

variable {host : Host} {launch : StageLaunch} {handle : AgentHandle} {s : StageWorkspace}

/-- Once its agent has stopped, a run returns its record, or raises for a path
that cannot be looked up, for the outputs, or for the contract. -/
theorem finishStageRun_cases (host : Host) (launch : StageLaunch) (handle : AgentHandle)
    (s : StageWorkspace) :
    (∃ error, launch.contract.lookError s.onDisk = some error ∧
      ((finishStageRun host launch handle).exec s).1 = .error (.uncaught error)) ∨
    launch.contract.lookError s.onDisk = none ∧
      ((∃ error, s.project.outputsError host (handle.outputs.map OutputArtifact.path) =
          some error ∧
        ((finishStageRun host launch handle).exec s).1 = .error (.ofRegistry error)) ∨
      s.project.outputsError host (handle.outputs.map OutputArtifact.path) = none ∧
        ((launch.contract.MissesOutput s.onDisk ∧ ∃ message,
          ((finishStageRun host launch handle).exec s).1 = .error (.contract message)) ∨
        ¬launch.contract.MissesOutput s.onDisk ∧ ∃ validation, validation.passed = true ∧
          ((finishStageRun host launch handle).exec s).1 =
            .ok (launch.record handle validation))) := by
  simp only [finishStageRun, registerAgentOutputs, appendAgentRecord, appendAgentEvent,
    Effect.exec_bind, Effect.exec_get, Effect.exec_ofExcept, Effect.exec_within,
    Effect.exec_mapError, Effect.exec_modify]
  rcases validateContract_cases s.onDisk launch.contract with
    ⟨error, hlook, hvalidate⟩ | ⟨hlook, validation, hvalidate, hpassed⟩
  · refine Or.inl ⟨error, hlook, ?_⟩
    simp only [hvalidate, error_mapError]
  refine Or.inr ⟨hlook, ?_⟩
  simp only [hvalidate, ok_mapError]
  rcases registerStageOutputs_cases host s.project launch.stageId
      (handle.outputs.map OutputArtifact.path) with
    ⟨error, hrefused, houtcome⟩ | ⟨hregistered, artifacts, houtcome⟩
  · refine Or.inl ⟨error, hrefused, ?_⟩
    simp only [houtcome, error_mapError]
  refine Or.inr ⟨hregistered, ?_⟩
  simp only [houtcome, ok_mapError]
  by_cases hmisses : launch.contract.MissesOutput s.onDisk
  · have hfailed : validation.passed = false :=
      Bool.eq_false_iff.mpr fun h => hpassed.mp h hmisses
    refine Or.inl ⟨hmisses, ?_⟩
    simp only [hfailed, Bool.not_false, if_true, Effect.exec_bind, Effect.exec_throw]
    exact ⟨_, rfl⟩
  · refine Or.inr ⟨hmisses, validation, hpassed.mpr hmisses, ?_⟩
    simp only [hpassed.mpr hmisses, Bool.not_true, Bool.false_eq_true, if_false,
      Effect.exec_pure]

/-- A run with a handle of the adapter returns only a completed record, and
raises `AgentExecutionError` otherwise, exactly in these cases. Every path of
the contract can be looked up, and either the registry refuses the outputs with
an error of its own, or it raises nothing of them and the handle is completed or
a blocking output is missing. -/
theorem returns_only_completed_iff {s s' : StageWorkspace}
    (hspawn : launch.spawn.exec s = (.ok handle, s')) :
    ((∀ record, ((runStageAgent host launch).exec s).1 = .ok record →
        record.status = "completed") ∧
      (∀ error, ((runStageAgent host launch).exec s).1 = .error error →
        error.isAgentExecutionError = true)) ↔
      launch.contract.lookError s'.onDisk = none ∧
        match s'.project.outputsError host (handle.outputs.map OutputArtifact.path) with
        | some error => error.isArtifactRegistryError = true
        | none => handle.status = "completed" ∨ launch.contract.MissesOutput s'.onDisk := by
  have hrun : (runStageAgent host launch).exec s = (finishStageRun host launch handle).exec s' := by
    have hmapped : (launch.spawn.mapError StageRunError.ofSpawn).exec s = (.ok handle, s') := by
      rw [Effect.exec_mapError, hspawn]
      rfl
    exact Effect.exec_bind_ok _ hmapped
  rw [hrun]
  rcases finishStageRun_cases host launch handle s' with
    ⟨error, hlook, houtcome⟩ | ⟨hlook, ⟨error, hrefused, houtcome⟩ |
      ⟨hregistered, ⟨hmisses, message, houtcome⟩ | ⟨hmisses, validation, hpassed, houtcome⟩⟩⟩
  · simp [houtcome, hlook, StageRunError.isAgentExecutionError]
  · rw [hrefused, houtcome]
    cases error <;> simp [hlook, StageRunError.ofRegistry, StageRunError.isAgentExecutionError,
      RegistryError.isArtifactRegistryError]
  · simp [houtcome, hlook, hregistered, hmisses, StageRunError.isAgentExecutionError]
  · simp [houtcome, hlook, hregistered, hmisses, StageLaunch.record, hpassed]

end Runs

/-- A kernel that fails the run at once. -/
def crashing : Bridge where
  inner := fun _ _ _ aggregateId =>
    .yield (.event ⟨.agentFailed, aggregateId, [("reason", .str "rate limited")]⟩) fun _ => .stop
  adapterId := "bridge:claude_raw"
  autoDecline := true
  proposalHandler := none
  strPayload := fun _ => ""
  reprError := PyError.message
  reprText := id
  handleId := "agent-1"

/-- A stage that has to write `docs/srs.md`. -/
def srsLaunch (bridge : Bridge) : StageLaunch where
  stageId := "srs"
  persona := ⟨"srs-author", "author", "analyst", "write the SRS", []⟩
  contract := ⟨"srs-output", "srs", "srs-author",
    [⟨"srs-doc", .fileExists, "docs/srs.md", none, true⟩]⟩
  context := ""
  defaultTools := []
  spawnAgent := fun persona context tools => pure (bridge.spawnAgent persona context tools)
  runUuid := "0"
  startedAt := "t0"
  completedAt := "t1"
  stamp := ⟨"0", "t1"⟩
  contextMetadata := []

/-- A workspace with some files in it. -/
def workspaceWith (paths : List String) : StageWorkspace :=
  ⟨⟨fun _ => none, .absent, none, 0⟩, fun path => .ok (path ∈ paths), [], []⟩

def plainHost : Host := ⟨fun _ => "", fun _ => "", fun _ => "", fun _ => none⟩

/-- Where no earlier run has left the output, the failed run raises. -/
theorem returns_only_completed_iff_crashing :
    (∀ record, ((runStageAgent plainHost (srsLaunch crashing)).exec (workspaceWith [])).1 =
        .ok record → record.status = "completed") ∧
      (∀ error, ((runStageAgent plainHost (srsLaunch crashing)).exec (workspaceWith [])).1 =
        .error error → error.isAgentExecutionError = true) := by
  have hspawn : (srsLaunch crashing).spawn.exec (workspaceWith []) =
      (.ok (crashing.spawnAgent (srsLaunch crashing).persona "" []), workspaceWith []) := rfl
  exact (returns_only_completed_iff hspawn).mpr
    ⟨rfl, Or.inr ⟨_, List.mem_singleton_self _, rfl, rfl⟩⟩

/-- Where an earlier run has left it, the failed run is returned as a record
that says the contract failed. -/
theorem failed_run_is_returned :
    ¬((∀ record, ((runStageAgent plainHost (srsLaunch crashing)).exec
          (workspaceWith ["docs/srs.md"])).1 = .ok record → record.status = "completed") ∧
      (∀ error, ((runStageAgent plainHost (srsLaunch crashing)).exec
          (workspaceWith ["docs/srs.md"])).1 = .error error →
        error.isAgentExecutionError = true)) := by
  intro h
  have hstatus := h.1 ((srsLaunch crashing).record
    (crashing.spawnAgent (srsLaunch crashing).persona "" [])
    ⟨"srs-output", "srs", true,
      [⟨"srs-doc", true, true, "Required output exists: docs/srs.md"⟩]⟩) rfl
  exact absurd hstatus (by decide)

end ForgeOS
