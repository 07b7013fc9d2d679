import ForgeOS.Context.Registry
import ForgeOS.Library.Relaxation

/-!
The priorities of the context pruner: the number of dependency steps from the
artifacts of a stage.
-/

namespace ForgeOS

open Library

/-! ### Spreading activation -/

/-- `{artifact.path: artifact ...}` -/
def artifactTable (artifacts : List Artifact) : Dict String Artifact :=
  Dict.update [] (artifacts.map fun artifact => (artifact.path, artifact))

/-- `stage_paths`: those of the stage, or all where it has none. -/
def stagePaths (stageId : String) (artifacts : List Artifact) : List String :=
  let ofStage := artifacts.filter fun artifact => artifact.stageId = some stageId
  if ofStage = [] then (artifacts.map Artifact.path).insertionSort (· ≤ ·)
  else (ofStage.map Artifact.path).insertionSort (· ≤ ·)

/-- The dependencies `visit` goes on to. A path without an entry has none. -/
def sortedDependencies (table : Dict String Artifact) (path : String) : List String :=
  match table.get? path with
  | some artifact => artifact.dependencies.insertionSort (· ≤ ·)
  | none => []

/-- `_spread_activation_priorities`. A call of `visit` that goes on gives its
path a smaller priority than it had, and those below it on the stack have still
smaller ones, so that the number of paths bounds its depth. CPython's recursion
limit is left out. -/
def spreadActivationPriorities (stageId : String) (artifacts : List Artifact) : Dict String ℕ :=
  let seeds := stagePaths stageId artifacts
  relaxAll (sortedDependencies (artifactTable artifacts))
    (seeds.length + (artifacts.flatMap Artifact.dependencies).length + 1) seeds

/-! ### Distances in the graph -/

/-- The first artifact lists the second as a dependency. -/
def DependsOn (artifacts : List Artifact) (path dependency : String) : Prop :=
  ∃ artifact ∈ artifacts, artifact.path = path ∧ dependency ∈ artifact.dependencies

/-- An artifact of the stage, or any where the stage has none. -/
def IsSeed (stageId : String) (artifacts : List Artifact) (path : String) : Prop :=
  ∃ artifact ∈ artifacts, artifact.path = path ∧
    (artifact.stageId = some stageId ∨ ∀ other ∈ artifacts, other.stageId ≠ some stageId)

section Priorities

variable {stageId : String} {artifacts : List Artifact}

theorem mem_stagePaths (path : String) :
    path ∈ stagePaths stageId artifacts ↔ IsSeed stageId artifacts path := by
  unfold stagePaths IsSeed
  by_cases hnone : ∀ other ∈ artifacts, other.stageId ≠ some stageId
  · have hempty : (artifacts.filter fun artifact => artifact.stageId = some stageId) = [] := by
      simpa [List.filter_eq_nil_iff] using hnone
    rw [if_pos hempty, (List.perm_insertionSort _ _).mem_iff, List.mem_map]
    refine exists_congr fun artifact => and_congr_right fun _ => ?_
    exact ⟨fun hpath => ⟨hpath, .inr hnone⟩, And.left⟩
  · have hsome : (artifacts.filter fun artifact => artifact.stageId = some stageId) ≠ [] := by
      simpa [List.filter_eq_nil_iff] using hnone
    rw [if_neg hsome, (List.perm_insertionSort _ _).mem_iff, List.mem_map]
    simp only [List.mem_filter, decide_eq_true_eq, hnone, or_false]
    exact exists_congr fun artifact => by rw [and_assoc, and_comm (a := artifact.path = path)]

theorem mem_artifactTable {path : String} {artifact : Artifact}
    (h : (artifactTable artifacts).get? path = some artifact) :
    artifact ∈ artifacts ∧ artifact.path = path := by
  have hentry := Dict.mem_update (Dict.mem_of_get? h)
  rcases hentry with hnothing | hlisted
  · cases hnothing
  · obtain ⟨listed, hmember, hpair⟩ := List.mem_map.mp hlisted
    cases hpair
    exact ⟨hmember, rfl⟩

theorem artifactTable_eq (hpaths : (artifacts.map Artifact.path).Nodup) :
    artifactTable artifacts = artifacts.map fun artifact => (artifact.path, artifact) := by
  rw [artifactTable, Dict.update_of_nodup, List.nil_append]
  simpa [Function.comp_def] using hpaths

theorem sortedDependencies_subset (path : String) :
    ∀ dependency ∈ sortedDependencies (artifactTable artifacts) path,
      dependency ∈ artifacts.flatMap Artifact.dependencies := by
  intro dependency hdependency
  unfold sortedDependencies at hdependency
  split at hdependency
  · rename_i artifact hget
    rw [(List.perm_insertionSort _ _).mem_iff] at hdependency
    exact List.mem_flatMap.mpr ⟨artifact, (mem_artifactTable hget).1, hdependency⟩
  · cases hdependency

/-- With one entry for a path, `visit` goes on along the dependencies. -/
theorem edge_sortedDependencies (hpaths : (artifacts.map Artifact.path).Nodup) :
    Edge (sortedDependencies (artifactTable artifacts)) = DependsOn artifacts := by
  funext path dependency
  apply propext
  unfold Edge sortedDependencies DependsOn
  constructor
  · intro hedge
    split at hedge
    · rename_i artifact hget
      obtain ⟨hartifact, hpath⟩ := mem_artifactTable hget
      rw [(List.perm_insertionSort _ _).mem_iff] at hedge
      exact ⟨artifact, hartifact, hpath, hedge⟩
    · cases hedge
  · rintro ⟨artifact, hartifact, rfl, hdependency⟩
    have hkeys : ((artifactTable artifacts).map Prod.fst).Nodup := by
      rw [artifactTable_eq hpaths]
      simpa [Function.comp_def] using hpaths
    have hentry : (artifact.path, artifact) ∈ artifactTable artifacts := by
      rw [artifactTable_eq hpaths]
      exact List.mem_map_of_mem hartifact
    rw [Dict.get?_of_mem hkeys hentry]
    exact (List.perm_insertionSort _ _).mem_iff.mpr hdependency

/-- What is computed of a list of artifacts: the calls end, the paths that get
a priority are those reached from a seed, and each gets its distance. -/
structure Distances (stageId : String) (artifacts : List Artifact)
    (priorities : Dict String ℕ) : Prop where
  runs : Relaxes (sortedDependencies (artifactTable artifacts))
    ((stagePaths stageId artifacts).map fun path => (path, 0)) [] priorities
  domain : ∀ path, path ∈ priorities.map Prod.fst ↔
    ∃ seed, IsSeed stageId artifacts seed ∧
      Relation.ReflTransGen (DependsOn artifacts) seed path
  least : ∀ path priority, priorities.get? path = some priority ↔
    IsLeast {count | ∃ seed, IsSeed stageId artifacts seed ∧
      Hops (DependsOn artifacts) seed count path} priority

/-- Spreading activation computes the distances from the seeds, on every graph
whose artifacts have different paths. The graph may have cycles and dangling
dependencies; a path that no seed leads to has no priority. -/
theorem spreadActivationPriorities_distances (stageId : String) (artifacts : List Artifact)
    (hpaths : (artifacts.map Artifact.path).Nodup) :
    Distances stageId artifacts (spreadActivationPriorities stageId artifacts) := by
  have hspace (node : String) : ∀ next ∈ sortedDependencies (artifactTable artifacts) node,
      next ∈ stagePaths stageId artifacts ++ artifacts.flatMap Artifact.dependencies :=
    fun next hnext => List.mem_append_right _ (sortedDependencies_subset node next hnext)
  have hseeds : ∀ seed ∈ stagePaths stageId artifacts,
      seed ∈ stagePaths stageId artifacts ++ artifacts.flatMap Artifact.dependencies :=
    fun seed hseed => List.mem_append_left _ hseed
  have hfuel : (stagePaths stageId artifacts ++ artifacts.flatMap Artifact.dependencies).length <
      (stagePaths stageId artifacts).length +
        (artifacts.flatMap Artifact.dependencies).length + 1 := by
    rw [List.length_append]
    omega
  refine ⟨(relaxed_relaxAll hspace hseeds hfuel).runs, ?_, ?_⟩
  · intro path
    have hreached := relaxAll_isSome_iff hspace hseeds hfuel path
    simp only [edge_sortedDependencies hpaths, mem_stagePaths] at hreached
    rw [← hreached, ← Dict.get?_isSome_iff]
    rfl
  · intro path priority
    have hleast := relaxAll_eq_some_iff hspace hseeds hfuel path priority
    simp only [edge_sortedDependencies hpaths, mem_stagePaths] at hleast
    exact hleast

end Priorities

/-- An artifact of which only the graph matters. -/
def linked (path stageId : String) (dependencies : List String) : Artifact where
  id := "artifact-" ++ path
  path := path
  stageId := some stageId
  status := .fresh
  dependencies := dependencies
  dependents := []
  contentHash := none
  modifiedAt := none
  tokenEstimate := 0

/-- `srs.md` is reached over `plan.md` first, and then directly; it depends on
`build.md` in turn, and on a path that is not registered. -/
def detour : List Artifact := [
  linked "build.md" "build" ["plan.md", "srs.md"],
  linked "plan.md" "plan" ["srs.md"],
  linked "srs.md" "srs" ["build.md", "vision.md"]]

example : spreadActivationPriorities "build" detour =
    [("build.md", 0), ("plan.md", 1), ("srs.md", 1), ("vision.md", 2)] := by decide

theorem spreadActivationPriorities_detour :
    Distances "build" detour (spreadActivationPriorities "build" detour) :=
  spreadActivationPriorities_distances "build" detour (by decide)

end ForgeOS
