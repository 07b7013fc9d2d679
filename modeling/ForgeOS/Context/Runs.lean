import ForgeOS.Context.Registrations

/-!
Runs of registry calls, with every registration of a stage a call of its own,
and what all of them keep: the registry is absent, or it holds a rebuilt
document with distinct normalised paths, and the graph next to it.
-/

namespace ForgeOS

open Library

namespace Project

section Calls

variable (host : Host)

/-- The outputs a loop registers before it ends or raises, the one it raises at
included, each as a call with that output only. -/
def outputCalls (stageId : String) : List String → Project → List Action
  | [], _ => []
  | outputPath :: rest, project =>
      .registerStageOutputs stageId [outputPath] ::
        match (registerOutput host stageId outputPath).exec project with
        | (.ok _, project') => outputCalls stageId rest project'
        | (.error _, _) => []

def singleCalls (project : Project) : Action → List Action
  | .registerStageOutputs stageId outputPaths =>
      project.outputCalls host stageId (distinctOutputs outputPaths)
  | action => [action]

/-- A run as calls that register one path at most. -/
def singleRun (project : Project) : List Action → List Action
  | [] => []
  | action :: rest =>
      project.singleCalls host action ++ singleRun (project.perform host action) rest

end Calls

end Project

def Action.Single : Action → Prop
  | .registerStageOutputs _ outputPaths => ∃ outputPath, outputPaths = [outputPath]
  | _ => True

namespace Project

variable {host : Host}

variable (host) in
private theorem perform_output (project : Project) (stageId outputPath : String) :
    project.perform host (.registerStageOutputs stageId [outputPath]) =
      ((registerOutput host stageId outputPath).exec project).2 := by
  have hdistinct : distinctOutputs [outputPath] = [outputPath] := rfl
  rw [perform, registerStageOutputs, hdistinct, List.mapM_cons, Effect.exec_bind]
  cases (registerOutput host stageId outputPath).exec project with
  | mk outcome project' =>
      cases outcome with
      | error error => rfl
      | ok artifact => rfl

private theorem run_outputCalls (stageId : String) (outputPaths : List String)
    (project : Project) :
    run (perform host) project (project.outputCalls host stageId outputPaths) =
      (Effect.exec (outputPaths.mapM (registerOutput host stageId)) project).2 := by
  induction outputPaths generalizing project with
  | nil => rfl
  | cons outputPath rest ih =>
      have hfirst := perform_output host project stageId outputPath
      rw [outputCalls, List.mapM_cons, Effect.exec_bind]
      cases hexec : (registerOutput host stageId outputPath).exec project with
      | mk outcome project' =>
          rw [hexec] at hfirst
          cases outcome with
          | error error => exact hfirst
          | ok artifact =>
              change run (perform host) (project.perform host _) _ = _
              rw [hfirst]
              refine (ih project').trans ?_
              dsimp only
              rw [Effect.exec_bind]
              cases Effect.exec (rest.mapM (registerOutput host stageId)) project' with
              | mk outcome project'' =>
                  cases outcome with
                  | error error => rfl
                  | ok artifacts => rfl

/-- Registering one path at a time comes to the same. -/
theorem run_singleRun (project : Project) (actions : List Action) :
    run (perform host) project (project.singleRun host actions) =
      run (perform host) project actions := by
  induction actions generalizing project with
  | nil => rfl
  | cons action rest ih =>
      have haction : run (perform host) project (project.singleCalls host action) =
          project.perform host action := by
        cases action with
        | registerStageOutputs stageId outputPaths => exact run_outputCalls stageId _ project
        | edit location file => rfl
        | register path stageId dependencies => rfl
        | refresh => rfl
      rw [singleRun, run_append, haction]
      exact ih (project.perform host action)

theorem single_of_mem_singleRun {project : Project} {actions : List Action} {action : Action}
    (h : action ∈ project.singleRun host actions) : action.Single := by
  have houtputs (stageId : String) (outputPaths : List String) (project : Project)
      (h : action ∈ project.outputCalls host stageId outputPaths) : action.Single := by
    induction outputPaths generalizing project with
    | nil => cases h
    | cons outputPath rest ih =>
        rw [outputCalls, List.mem_cons] at h
        rcases h with rfl | h
        · exact ⟨outputPath, rfl⟩
        · cases hexec : (registerOutput host stageId outputPath).exec project with
          | mk outcome project' =>
              rw [hexec] at h
              cases outcome with
              | error error => cases h
              | ok artifact => exact ih project' h
  induction actions generalizing project with
  | nil => cases h
  | cons first rest ih =>
      rw [singleRun, List.mem_append] at h
      rcases h with h | h
      · cases first with
        | registerStageOutputs stageId outputPaths => exact houtputs stageId _ project h
        | edit location file =>
            obtain rfl := List.mem_singleton.mp h
            trivial
        | register path stageId dependencies =>
            obtain rfl := List.mem_singleton.mp h
            trivial
        | refresh =>
            obtain rfl := List.mem_singleton.mp h
            trivial
      · exact ih h

/-! ### What each call does -/

def otherOutputs (document : ArtifactDocument) (stageId : String) : List Artifact :=
  document.filter fun artifact => artifact.stageId.isSome ∧ artifact.stageId ≠ some stageId

theorem defaultDependencies_of_load {project : Project} {document : ArtifactDocument}
    (hload : project.load = .ok document) (stageId : String) :
    project.defaultDependencies stageId = .ok (if stageId = "srs" ∨
        project.files ["pipeline", "stages.yaml"] = none then []
      else ((otherOutputs document stageId).map Artifact.path).insertionSort (· ≤ ·)) := by
  unfold defaultDependencies
  by_cases hsrs : stageId = "srs"
  · rw [if_pos hsrs, if_pos (Or.inl hsrs)]
  · rw [if_neg hsrs]
    cases hstages : project.files ["pipeline", "stages.yaml"] with
    | none => simp
    | some file =>
        simp only [Option.isNone_some, Bool.false_eq_true, if_false, hsrs, reduceCtorEq, or_self,
          hload]
        rfl

theorem perform_register_of_path_error {project : Project} {document : ArtifactDocument}
    {path : String} {error : RegistryError} (hload : project.load = .ok document)
    (hpath : host.locate path = .error error) (stageId : Option String)
    (dependencies : Option (List String)) :
    project.perform host (.register path stageId dependencies) = project := by
  rw [perform, exec_register_of_path_error hload hpath]

theorem perform_register {project : Project} {document : ArtifactDocument}
    {path normalized : String} (hload : project.load = .ok document)
    (hpath : host.locate path = .ok normalized) (stageId : Option String)
    (dependencies : Option (List String)) :
    (project.perform host (.register path stageId dependencies)).Holds (rebuildDependents
      (entered host project document normalized stageId (dependencies.getD []))) := by
  obtain ⟨artifact, project', hexec, -, hholds⟩ := exec_register host stageId dependencies
    hload hpath
  rw [perform, hexec]
  exact hholds

theorem perform_output_of_defaults {project : Project} {stageId : String}
    {dependencies : List String}
    (hdefaults : project.defaultDependencies stageId = .ok dependencies) (outputPath : String) :
    project.perform host (.registerStageOutputs stageId [outputPath]) =
      project.perform host (.register outputPath (some stageId) (some dependencies)) := by
  simp only [perform_output, registerOutput, Effect.exec_bind, Effect.exec_get,
    Effect.exec_ofExcept, hdefaults]
  rfl

theorem perform_output_of_error {project : Project} {stageId : String} {error : RegistryError}
    (hdefaults : project.defaultDependencies stageId = .error error) (outputPath : String) :
    project.perform host (.registerStageOutputs stageId [outputPath]) = project := by
  simp only [perform_output, registerOutput, Effect.exec_bind, Effect.exec_get,
    Effect.exec_ofExcept, hdefaults]

theorem perform_refresh {project : Project} {document : ArtifactDocument}
    (hload : project.load = .ok document) :
    (project.perform host .refresh).Holds
      (rebuildDependents (refreshDocument host project.files document)) := by
  simp only [perform, refresh, saveRegistry, Effect.exec_bind, Effect.exec_get,
    Effect.exec_ofExcept, Effect.exec_modify, Effect.exec_pure, hload]
  exact ⟨rfl, rfl⟩

/-! ### What they keep -/

variable (host) in
/-- What the registry leaves behind: there is none yet, or it holds a rebuilt
document with distinct normalised paths that can be looked at, and the graph
next to it. A project that has just been initialised holds the empty document. -/
def WellKept (project : Project) : Prop :=
  project.registry = .absent ∨ ∃ table, project.Holds (rebuildDependents table) ∧
    (table.map Artifact.path).Nodup ∧
    ∀ path ∈ table.map Artifact.path, host.locate path = .ok path

theorem wellKept_of_initialized {project : Project} (hregistry : project.registry = .document [])
    (hgraph : project.graph = some ⟨[], []⟩) : project.WellKept host :=
  Or.inr ⟨[], ⟨hregistry, hgraph⟩, List.nodup_nil, by simp⟩

/-- What is loaded after a save. -/
theorem load_of_holds {project : Project} {table : ArtifactDocument}
    (hholds : project.Holds (rebuildDependents table))
    (haccepted : ∀ path ∈ table.map Artifact.path, Artifact.normalizePath path = .ok path) :
    project.load = .ok ((rebuildDependents table).map Artifact.normalizeTables) := by
  rw [load, hholds.1]
  apply validateDocument_of_accepted
  intro artifact hartifact
  apply haccepted
  rw [← (rebuildDependents_sameEdges table).paths]
  exact List.mem_map_of_mem hartifact

theorem loaded_paths (table : ArtifactDocument) :
    ((rebuildDependents table).map Artifact.normalizeTables).map Artifact.path =
      table.map Artifact.path := by
  rw [List.map_map, ← (rebuildDependents_sameEdges table).paths]
  rfl

theorem mem_loaded_edges {table : ArtifactDocument} {path : String} {dependencies : List String} :
    (path, dependencies) ∈ ((rebuildDependents table).map Artifact.normalizeTables).map
        Artifact.edge ↔
      ∃ stored, (path, stored) ∈ table.map Artifact.edge ∧
        Artifact.normalizeEdges stored = dependencies := by
  have hloaded : ((rebuildDependents table).map Artifact.normalizeTables).map Artifact.edge =
      ((rebuildDependents table).map Artifact.edge).map fun edge =>
        (edge.1, Artifact.normalizeEdges edge.2) := by
    rw [List.map_map, List.map_map]
    rfl
  rw [hloaded, rebuildDependents_sameEdges table, List.mem_map]
  constructor
  · rintro ⟨edge, hedge, hpair⟩
    obtain ⟨rfl, rfl⟩ := Prod.mk.inj hpair
    exact ⟨edge.2, hedge, rfl⟩
  · rintro ⟨stored, hstored, rfl⟩
    exact ⟨_, hstored, rfl⟩

/-- A path that is located under itself is normalised. -/
theorem accepted_of_located {paths : List String}
    (h : ∀ path ∈ paths, host.locate path = .ok path) :
    ∀ path ∈ paths, Artifact.normalizePath path = .ok path := fun path hpath =>
  Artifact.normalizePath_of_accepted (Host.locate_eq_ok.mp (h path hpath)).1

theorem WellKept.load {project : Project} (h : project.WellKept host) :
    ∃ document, project.load = .ok document ∧ (document.map Artifact.path).Nodup ∧
      ∀ path ∈ document.map Artifact.path, host.locate path = .ok path := by
  rcases h with habsent | ⟨table, hholds, hnodup, hlocated⟩
  · exact ⟨[], by rw [Project.load, habsent], List.nodup_nil, by simp⟩
  · exact ⟨_, load_of_holds hholds (accepted_of_located hlocated), by rwa [loaded_paths],
      by rwa [loaded_paths]⟩

/-- The table of a registration keeps the paths distinct and located. -/
theorem entered_located {document : ArtifactDocument} {path normalized : String}
    (hpath : host.locate path = .ok normalized) (hnodup : (document.map Artifact.path).Nodup)
    (hlocated : ∀ path ∈ document.map Artifact.path, host.locate path = .ok path)
    (project : Project) (stageId : Option String) (dependencies : List String) :
    ((entered host project document normalized stageId dependencies).map
        Artifact.path).Nodup ∧
      ∀ path ∈ (entered host project document normalized stageId dependencies).map Artifact.path,
        host.locate path = .ok path := by
  rw [entered_paths]
  split
  · exact ⟨hnodup, hlocated⟩
  · rename_i hnew
    refine ⟨hnodup.append (List.nodup_singleton _) (by simpa using hnew), ?_⟩
    intro other hother
    rcases List.mem_append.mp hother with hold | hself
    · exact hlocated other hold
    · rw [List.mem_singleton.mp hself]
      exact Host.locate_of_located hpath

/-- What a project loads is in the state validation leaves it in. -/
theorem accepted_of_load {project : Project} {document : ArtifactDocument}
    (hload : project.load = .ok document) :
    ∀ path ∈ document.map Artifact.path, Artifact.normalizePath path = .ok path := by
  intro path hpath
  obtain ⟨artifact, hartifact, rfl⟩ := List.mem_map.mp hpath
  exact (normalized_of_load hload artifact hartifact).path

theorem normalized_row {project : Project} {document : ArtifactDocument} {path : String}
    {dependencies : List String} (hload : project.load = .ok document)
    (hrow : (path, dependencies) ∈ document.map Artifact.edge) :
    Artifact.normalizeEdges dependencies = dependencies := by
  obtain ⟨artifact, hartifact, hpair⟩ := List.mem_map.mp hrow
  obtain ⟨-, rfl⟩ := Prod.mk.inj hpair
  exact (normalized_of_load hload artifact hartifact).dependencies

theorem WellKept.perform_register {project : Project} (h : project.WellKept host) (path : String)
    (stageId : Option String) (dependencies : Option (List String)) :
    (project.perform host (.register path stageId dependencies)).WellKept host := by
  obtain ⟨document, hload, hnodup, hlocated⟩ := h.load
  cases hpath : host.locate path with
  | error error =>
      rw [perform_register_of_path_error hload hpath]
      exact h
  | ok normalized =>
      exact Or.inr ⟨_, Project.perform_register hload hpath stageId dependencies,
        entered_located hpath hnodup hlocated project stageId (dependencies.getD [])⟩

theorem load_after_register {project : Project} {document : ArtifactDocument}
    {path normalized : String} (hkept : project.WellKept host)
    (hload : project.load = .ok document)
    (hpath : host.locate path = .ok normalized) (stageId : Option String)
    (dependencies : Option (List String)) :
    (project.perform host (.register path stageId dependencies)).load =
      .ok ((rebuildDependents (entered host project document normalized stageId
        (dependencies.getD []))).map Artifact.normalizeTables) := by
  obtain ⟨same, hsame, hnodup, hlocated⟩ := hkept.load
  rw [hload, Except.ok.injEq] at hsame
  subst hsame
  exact load_of_holds (Project.perform_register hload hpath stageId dependencies)
    (accepted_of_located (entered_located hpath hnodup hlocated project stageId _).2)

theorem refreshDocument_sameEdges (host : Host) (files : Files) (document : ArtifactDocument) :
    SameEdges document (refreshDocument host files document) :=
  refreshRounds_sameEdges host files document.length

theorem load_after_refresh {project : Project} {document : ArtifactDocument}
    (hload : project.load = .ok document) :
    (project.perform host .refresh).load =
      .ok ((rebuildDependents (refreshDocument host project.files document)).map
        Artifact.normalizeTables) := by
  apply load_of_holds (perform_refresh hload)
  rw [(refreshDocument_sameEdges host project.files document).paths]
  exact accepted_of_load hload

theorem WellKept.perform {project : Project} (h : project.WellKept host) {action : Action}
    (hsingle : action.Single) : (project.perform host action).WellKept host := by
  cases action with
  | edit location file => exact h
  | register path stageId dependencies => exact h.perform_register path stageId dependencies
  | registerStageOutputs stageId outputPaths =>
      obtain ⟨outputPath, rfl⟩ := hsingle
      cases hdefaults : project.defaultDependencies stageId with
      | error error =>
          rw [perform_output_of_error hdefaults]
          exact h
      | ok dependencies =>
          rw [perform_output_of_defaults hdefaults]
          exact h.perform_register outputPath (some stageId) (some dependencies)
  | refresh =>
      obtain ⟨document, hload, hdistinct⟩ := h.load
      refine Or.inr ⟨_, perform_refresh hload, ?_⟩
      rw [(refreshDocument_sameEdges host project.files document).paths]
      exact hdistinct

/-! ### Properties along a run -/

/-- A registration of a path that is not located changes nothing; of another
one it is enough to know what it asks of the loaded document. -/
theorem after_register_iff {project : Project} {document : ArtifactDocument}
    (hload : project.load = .ok document) {I : Project → Prop}
    {P : ArtifactDocument → String → Prop} (hbefore : I project) {path : String}
    {stageId : Option String} {dependencies : Option (List String)}
    (hlocated : ∀ normalized, host.locate path = .ok normalized →
      (I (project.perform host (.register path stageId dependencies)) ↔ P document normalized)) :
    I (project.perform host (.register path stageId dependencies)) ↔
      ∀ document, project.load = .ok document → ∀ normalized, host.locate path = .ok normalized →
        P document normalized := by
  cases hpath : host.locate path with
  | error error =>
      rw [perform_register_of_path_error hload hpath]
      exact iff_of_true hbefore fun _ _ _ h => nomatch h
  | ok normalized =>
      refine (hlocated normalized hpath).trans ⟨?_, fun h => h document hload normalized rfl⟩
      intro h same hsame normalized' hnormalized'
      rw [hload, Except.ok.injEq] at hsame
      rw [Except.ok.injEq] at hnormalized'
      exact hsame ▸ hnormalized' ▸ h

/-- A property holds all along a run exactly when it holds at the start and
every call meets the condition under which a call keeps it. -/
theorem throughout_singleRun_iff (host : Host) {start : Project}
    (hstart : start.WellKept host) (actions : List Action) {I : Project → Prop}
    {R : Project → Action → Prop}
    (hedit : ∀ project location file, I project →
      (I (project.perform host (.edit location file)) ↔ R project (.edit location file)))
    (hregister : ∀ project path stageId dependencies, WellKept host project → I project →
      (I (project.perform host (.register path stageId dependencies)) ↔
        R project (.register path stageId dependencies)))
    (houtput : ∀ project stageId outputPath, WellKept host project → I project →
      (I (project.perform host (.registerStageOutputs stageId [outputPath])) ↔
        R project (.registerStageOutputs stageId [outputPath])))
    (hrefresh : ∀ project, WellKept host project → I project →
      (I (project.perform host .refresh) ↔ R project .refresh)) :
    (∀ before after, start.singleRun host actions = before ++ after →
        I (run (perform host) start before)) ↔
      I start ∧ ∀ before action after,
        start.singleRun host actions = before ++ action :: after →
          R (run (perform host) start before) action := by
  have hruns (hbefore : I start) := run_throughout_iff (perform host) (K := WellKept host)
    (I := I) (R := R) (start.singleRun host actions) ?_ ?_ hstart hbefore
  · constructor
    · intro hstays
      have hbefore : I start := hstays [] _ rfl
      exact ⟨hbefore, (hruns hbefore).mp hstays⟩
    · rintro ⟨hbefore, hkeeps⟩
      exact (hruns hbefore).mpr hkeeps
  · intro project action haction hkept
    exact hkept.perform (single_of_mem_singleRun haction)
  · intro project action haction hkept hI
    cases action with
    | edit location file => exact hedit project location file hI
    | register path stageId dependencies =>
        exact hregister project path stageId dependencies hkept hI
    | registerStageOutputs stageId outputPaths =>
        obtain ⟨outputPath, rfl⟩ := single_of_mem_singleRun haction
        exact houtput project stageId outputPath hkept hI
    | refresh => exact hrefresh project hkept hI

end Project

end ForgeOS
