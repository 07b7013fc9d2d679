import ForgeOS.Context.Runs

/-!
Cycles among the recorded dependencies. A registration replaces the edges into
one path, so whether it closes a cycle is decided by what lies downstream of
that path right before it.
-/

namespace ForgeOS

open Library

/-- A path is the other one or downstream of it. -/
def Reaches (document : ArtifactDocument) (path other : String) : Prop :=
  Relation.ReflTransGen (Edge (dependentPaths document)) path other

/-- No artifact is a transitive dependent of itself. -/
def Acyclic (document : ArtifactDocument) : Prop :=
  ∀ artifact ∈ document, ¬Downstream document artifact.path artifact

theorem acyclic_iff (document : ArtifactDocument) :
    Acyclic document ↔
      ∀ path, ¬Relation.TransGen (Edge (dependentPaths document)) path path := by
  constructor
  · intro hacyclic path hcycle
    obtain ⟨dependency, hreach, hedge⟩ := Relation.TransGen.tail'_iff.mp hcycle
    obtain ⟨dependencies, hrow, hdependency⟩ := edge_dependentPaths.mp hedge
    obtain ⟨artifact, hmember, hpair⟩ := List.mem_map.mp hrow
    obtain ⟨rfl, rfl⟩ := Prod.mk.inj hpair
    exact hacyclic artifact hmember ⟨dependency, hdependency, hreach⟩
  · rintro hacyclic artifact hmember ⟨dependency, hdependency, hreach⟩
    refine hacyclic artifact.path (Relation.TransGen.tail' hreach (edge_dependentPaths.mpr ?_))
    exact ⟨artifact.dependencies, List.mem_map_of_mem hmember, hdependency⟩

/-- Documents with the same rows have the same cycles. -/
theorem acyclic_congr {document document' : ArtifactDocument}
    (h : ∀ source target, Edge (dependentPaths document') source target ↔
      Edge (dependentPaths document) source target) :
    Acyclic document' ↔ Acyclic document := by
  have hsame : Edge (dependentPaths document') = Edge (dependentPaths document) :=
    funext fun source => funext fun target => propext (h source target)
  rw [acyclic_iff, acyclic_iff, hsame]

namespace Project

variable {host : Host}

/-- What a project loads has no cycle. -/
def Acyclic (project : Project) : Prop :=
  ∀ document, project.load = .ok document → ForgeOS.Acyclic document

/-- All along a run, registration by registration, there is no cycle. -/
def StaysAcyclic (host : Host) (start : Project) (actions : List Action) : Prop :=
  ∀ before after, start.singleRun host actions = before ++ after →
    (run (perform host) start before).Acyclic

/-- A registration gives its path no dependency that is that path or downstream
of it. The dependencies of a stage's output are the artifacts registered by
other stages, unless the stage is `srs` or there is no `stages.yaml`. -/
def KeepsAcyclic (host : Host) (project : Project) : Action → Prop
  | .register path _ dependencies => ∀ document, project.load = .ok document →
      ∀ normalized, host.locate path = .ok normalized →
        ∀ dependency ∈ Artifact.normalizeEdges (dependencies.getD []),
          ¬Reaches document normalized dependency
  | .registerStageOutputs stageId outputPaths => stageId ≠ "srs" →
      project.files ["pipeline", "stages.yaml"] ≠ none →
        ∀ document, project.load = .ok document → ∀ outputPath ∈ outputPaths, ∀ normalized,
          host.locate outputPath = .ok normalized →
            ∀ artifact ∈ otherOutputs document stageId, ¬Reaches document normalized artifact.path
  | _ => True

private theorem edge_after_register {project : Project} {document loaded : ArtifactDocument}
    {path normalized : String} (hkept : project.WellKept host) (hload : project.load = .ok document)
    (hpath : host.locate path = .ok normalized) {stageId : Option String}
    {dependencies : Option (List String)}
    (hloaded : (project.perform host (.register path stageId dependencies)).load = .ok loaded)
    (source target : String) :
    Edge (dependentPaths loaded) source target ↔
      target = normalized ∧ source ∈ Artifact.normalizeEdges
          (enteredDependencies document normalized (dependencies.getD [])) ∨
        target ≠ normalized ∧ Edge (dependentPaths document) source target := by
  obtain ⟨same, hsame, hnodup, -⟩ := hkept.load
  rw [hload, Except.ok.injEq] at hsame
  subst hsame
  rw [load_after_register hkept hload hpath, Except.ok.injEq] at hloaded
  subst hloaded
  simp only [edge_dependentPaths, mem_loaded_edges, mem_entered_edges hnodup]
  constructor
  · rintro ⟨_, ⟨stored, hrow | ⟨hother, hrow⟩, rfl⟩, hsource⟩
    · obtain ⟨rfl, rfl⟩ := Prod.mk.inj hrow
      exact Or.inl ⟨rfl, hsource⟩
    · exact Or.inr ⟨hother, stored, hrow, by rwa [normalized_row hload hrow] at hsource⟩
  · rintro (⟨rfl, hsource⟩ | ⟨hother, stored, hrow, hsource⟩)
    · exact ⟨_, ⟨_, Or.inl rfl, rfl⟩, hsource⟩
    · exact ⟨_, ⟨stored, Or.inr ⟨hother, hrow⟩, normalized_row hload hrow⟩, hsource⟩

/-- A registration keeps a project free of cycles exactly when it gives its
path no dependency downstream of it. -/
private theorem acyclic_after_register {project : Project} (hkept : project.WellKept host)
    (hacyclic : project.Acyclic) (path : String) (stageId : Option String)
    (dependencies : Option (List String)) :
    (project.perform host (.register path stageId dependencies)).Acyclic ↔
      project.KeepsAcyclic host (.register path stageId dependencies) := by
  obtain ⟨document, hload, -⟩ := hkept.load
  refine after_register_iff hload (I := Acyclic) hacyclic fun normalized hpath => ?_
  have hloaded : (project.perform host (.register path stageId dependencies)).load = .ok _ :=
    load_after_register hkept hload hpath stageId dependencies
  have hafter := acyclic_replace_iff (edge_after_register hkept hload hpath hloaded)
    ((acyclic_iff document).mp (hacyclic document hload))
  simp only [Acyclic, load_after_register hkept hload hpath, Except.ok.injEq, forall_eq',
    acyclic_iff]
  rw [hafter]
  rcases enteredDependencies_cases document normalized (dependencies.getD []) with
    hgiven | ⟨hempty, artifact, hartifact, rfl, hold⟩
  · rw [hgiven]
    rfl
  · -- nothing given: the edges are the old ones
    rw [hold, (normalized_of_load hload artifact hartifact).dependencies, hempty]
    refine iff_of_true ?_ ?_
    · intro source hsource hreach
      exact hacyclic document hload artifact hartifact ⟨source, hsource, hreach⟩
    · intro dependency hdependency
      cases hdependency

private theorem mem_defaults {project : Project} {document : ArtifactDocument} {stageId : String}
    {dependency : String} (hload : project.load = .ok document) :
    dependency ∈ Artifact.normalizeEdges (((otherOutputs document stageId).map
        Artifact.path).insertionSort (· ≤ ·)) ↔
      ∃ artifact ∈ otherOutputs document stageId, artifact.path = dependency := by
  rw [Artifact.mem_normalizeEdges]
  have hnormalized (artifact : Artifact) (h : artifact ∈ otherOutputs document stageId) :=
    Artifact.normalizePath_eq_ok.mp
      (normalized_of_load hload artifact (List.mem_of_mem_filter h)).path
  constructor
  · rintro ⟨-, item, hitem, rfl⟩
    rw [(List.perm_insertionSort _ _).mem_iff] at hitem
    obtain ⟨artifact, hartifact, rfl⟩ := List.mem_map.mp hitem
    exact ⟨artifact, hartifact, (hnormalized artifact hartifact).1.symm⟩
  · rintro ⟨artifact, hartifact, rfl⟩
    obtain ⟨hposix, -, hne⟩ := hnormalized artifact hartifact
    refine ⟨hne, artifact.path, ?_, hposix⟩
    rw [(List.perm_insertionSort _ _).mem_iff]
    exact List.mem_map_of_mem hartifact

/-- The same for the output of a stage. -/
private theorem acyclic_after_output {project : Project} (hkept : project.WellKept host)
    (hacyclic : project.Acyclic) (stageId outputPath : String) :
    (project.perform host (.registerStageOutputs stageId [outputPath])).Acyclic ↔
      project.KeepsAcyclic host (.registerStageOutputs stageId [outputPath]) := by
  obtain ⟨document, hload, -⟩ := hkept.load
  rw [perform_output_of_defaults (defaultDependencies_of_load hload stageId),
    acyclic_after_register hkept hacyclic]
  constructor
  · intro hregister hstage hstages same hsame path hpath normalized hnormalized artifact hartifact
    rw [hload, Except.ok.injEq] at hsame
    subst hsame
    rw [List.mem_singleton] at hpath
    subst hpath
    apply hregister document hload normalized hnormalized
    rw [Option.getD_some, if_neg (not_or.mpr ⟨hstage, hstages⟩), mem_defaults hload]
    exact ⟨artifact, hartifact, rfl⟩
  · intro houtput same hsame normalized hnormalized dependency hdependency
    rw [hload, Except.ok.injEq] at hsame
    subst hsame
    rw [Option.getD_some] at hdependency
    split at hdependency
    · cases hdependency
    · rename_i hstages
      rw [not_or] at hstages
      obtain ⟨artifact, hartifact, rfl⟩ := (mem_defaults hload).mp hdependency
      exact houtput hstages.1 hstages.2 document hload outputPath (by simp) normalized hnormalized
        artifact hartifact

/-- A refresh keeps the edges. -/
private theorem acyclic_after_refresh {project : Project} (hkept : project.WellKept host)
    (hacyclic : project.Acyclic) : (project.perform host .refresh).Acyclic := by
  obtain ⟨document, hload, -⟩ := hkept.load
  simp only [Acyclic, load_after_refresh hload, Except.ok.injEq, forall_eq']
  refine (acyclic_congr ?_).mpr (hacyclic document hload)
  intro source target
  simp only [edge_dependentPaths, mem_loaded_edges]
  rw [refreshDocument_sameEdges host project.files document]
  constructor
  · rintro ⟨_, ⟨stored, hrow, rfl⟩, hsource⟩
    exact ⟨stored, hrow, by rwa [normalized_row hload hrow] at hsource⟩
  · rintro ⟨stored, hrow, hsource⟩
    exact ⟨stored, ⟨stored, hrow, normalized_row hload hrow⟩, hsource⟩

/-- A run stays free of cycles exactly when there is none at its start and every
registration in it keeps it so. It may start from any project whose registry, if
there is one, was left by calls like these. -/
theorem staysAcyclic_iff (host : Host) (start : Project) (hstart : start.WellKept host)
    (actions : List Action) :
    start.StaysAcyclic host actions ↔
      start.Acyclic ∧ ∀ before action after,
        start.singleRun host actions = before ++ action :: after →
          (run (perform host) start before).KeepsAcyclic host action := by
  refine throughout_singleRun_iff host hstart actions (I := Acyclic)
    (R := KeepsAcyclic host) ?_ ?_ ?_ ?_
  · exact fun _ _ _ hacyclic => iff_of_true hacyclic trivial
  · intro project path stageId dependencies hkept hacyclic
    exact acyclic_after_register hkept hacyclic path stageId dependencies
  · intro project stageId outputPath hkept hacyclic
    exact acyclic_after_output hkept hacyclic stageId outputPath
  · intro project hkept hacyclic
    exact iff_of_true (acyclic_after_refresh hkept hacyclic) trivial

/-- An output on which nothing depends may be registered. -/
theorem keepsAcyclic_of_no_dependents {project : Project} {stageId outputPath : String}
    (h : ∀ document, project.load = .ok document → ∀ normalized,
      host.locate outputPath = .ok normalized → dependentPaths document normalized = [] ∧
        normalized ∉ (otherOutputs document stageId).map Artifact.path) :
    project.KeepsAcyclic host (.registerStageOutputs stageId [outputPath]) := by
  intro _ _ document hload path hpath normalized hnormalized artifact hartifact hreach
  rw [List.mem_singleton.mp hpath] at hnormalized
  obtain ⟨hnone, hother⟩ := h document hload normalized hnormalized
  rcases hreach.cases_head with hself | ⟨dependent, hedge, -⟩
  · exact hother (List.mem_map.mpr ⟨artifact, hartifact, hself.symm⟩)
  · rw [Edge, hnone] at hedge
    cases hedge

/-- A project as it is initialised. -/
def initialized : Project where
  files := fun location =>
    if location = ["pipeline", "stages.yaml"] then some ⟨[97], "2026-01-01T10:00:00Z"⟩ else none
  registry := .document []
  graph := some ⟨[], []⟩
  drawn := 0

/-- Three stages run one after the other, and the last one runs again. -/
def planRerun : List Action := [
  .registerStageOutputs "srs" ["srs.md"],
  .registerStageOutputs "architecture" ["architecture.md"],
  .registerStageOutputs "plan" ["plan.md"],
  .registerStageOutputs "plan" ["plan.md"]]

theorem staysAcyclic_planRerun : initialized.StaysAcyclic Host.demo planRerun := by
  have hsingle : initialized.singleRun Host.demo planRerun = planRerun := by
    decide +kernel
  refine (staysAcyclic_iff Host.demo initialized (wellKept_of_initialized rfl rfl) _).mpr ⟨?_, ?_⟩
  · intro document hload artifact hartifact
    obtain rfl : [] = document := Except.ok.inj hload
    cases hartifact
  · rw [hsingle]
    change Throughout (perform Host.demo) (KeepsAcyclic Host.demo) initialized planRerun
    simp only [planRerun, throughout_cons]
    refine ⟨?_, ?_, ?_, ?_, throughout_nil _ _ _⟩
    · exact fun hstage => absurd rfl hstage
    · exact keepsAcyclic_of_no_dependents (by decide +kernel)
    · exact keepsAcyclic_of_no_dependents (by decide +kernel)
    · exact keepsAcyclic_of_no_dependents (by decide +kernel)

end Project

/-- The stage `architecture` runs, then `plan`, then `architecture` again. -/
def architectureRerun : List Action := [
  .edit ["pipeline", "stages.yaml"] (some ⟨[97], "2026-01-01T10:00:00Z"⟩),
  .registerStageOutputs "architecture" ["architecture.md"],
  .registerStageOutputs "plan" ["plan.md"],
  .registerStageOutputs "architecture" ["architecture.md"]]

/-- Then each of the two outputs depends on the other. -/
theorem Project.not_staysAcyclic :
    ¬ Session.demo.project.StaysAcyclic Host.demo architectureRerun := by
  intro hstays
  have hfinal := hstays _ [] (List.append_nil _).symm
  rw [run_singleRun] at hfinal
  obtain ⟨document, hload, hrows⟩ : ∃ document,
      (run (perform Host.demo) Session.demo.project architectureRerun).load = .ok document ∧
        document.map Artifact.edge =
          [("architecture.md", ["plan.md"]), ("plan.md", ["architecture.md"])] :=
    exists_load_of_rows (by decide +kernel)
  have hedge (source target : String) (h : (target, [source]) ∈ document.map Artifact.edge) :
      Edge (dependentPaths document) source target :=
    edge_dependentPaths.mpr ⟨[source], h, by simp⟩
  refine (acyclic_iff document).mp (hfinal document hload)
    "architecture.md" (.tail (.single (hedge _
      "plan.md" ?_)) (hedge _ _ ?_))
  · rw [hrows]
    decide
  · rw [hrows]
    decide

end ForgeOS
