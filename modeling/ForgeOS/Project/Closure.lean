import ForgeOS.Context.Registrations
import ForgeOS.Project.Rework

/-!
The two traversals of the artifact graph. The rework planner follows the listed
dependents with a queue, the registry marks stale by looking through the
dependencies with a recursion; where the one table is the inverse of the other
they reach the same artifacts.
-/

namespace ForgeOS

open Library

/-- The dependents that each entry lists are the entries that depend on it. -/
def InverseTables (document : ArtifactDocument) : Prop :=
  ∀ artifact ∈ document, ∀ path, path ∈ artifact.dependents ↔
    ∃ dependent ∈ document, dependent.path = path ∧ artifact.path ∈ dependent.dependencies

/-- What the planner finds for a stage: each artifact once and in order, those
of the stage and what is reached from them over the dependents, or visited when
the registry marks from one of them. -/
structure ReworkClosure (document : ArtifactDocument) (targetStageId : String)
    (affected : List String) : Prop where
  sorted : affected.Pairwise (· ≤ ·)
  nodup : affected.Nodup
  reached : ∀ path, path ∈ affected ↔ ∃ seed ∈ stageArtifacts document targetStageId,
    Relation.ReflTransGen (Edge (dependentsOf document)) seed path
  visited : ∀ fuel ≥ document.length + 1, ∀ path, path ∈ affected ↔
    path ∈ stageArtifacts document targetStageId ∨
      ∃ seed ∈ stageArtifacts document targetStageId,
        path ∈ (mark fuel seed ⟨[], document⟩).visited

section Closure

variable {document : ArtifactDocument} {targetStageId : String}

/-- Over the entries, the two traversals follow the same edges. -/
theorem mem_dependentsOf_iff (hpaths : (document.map Artifact.path).Nodup)
    (hinverse : InverseTables document) {path : String} (hpath : path ∈ document.map Artifact.path)
    (next : String) : next ∈ dependentsOf document path ↔ next ∈ dependentPaths document path := by
  obtain ⟨artifact, hartifact, rfl⟩ := List.mem_map.mp hpath
  have hlisted : dependentsOf document artifact.path = artifact.dependents := by
    rw [dependentsOf, find_of_nodup hpaths hartifact]
  rw [hlisted, hinverse artifact hartifact next, dependentPaths, List.mem_map]
  simp only [List.mem_filter, decide_eq_true_eq]
  grind

/-- What depends on an entry is an entry. -/
theorem dependentPaths_registered (path : String) :
    ∀ next ∈ dependentPaths document path, next ∈ document.map Artifact.path := by
  intro next hnext
  obtain ⟨artifact, hartifact, rfl⟩ := List.mem_map.mp hnext
  exact List.mem_map_of_mem (List.mem_of_mem_filter hartifact)

/-- From an entry on they reach the same artifacts. -/
theorem reaches_dependents_iff (hpaths : (document.map Artifact.path).Nodup)
    (hinverse : InverseTables document) {seed : String} (hseed : seed ∈ document.map Artifact.path)
    (path : String) :
    Relation.ReflTransGen (Edge (dependentsOf document)) seed path ↔
      Relation.ReflTransGen (Edge (dependentPaths document)) seed path := by
  have hsame {from' : String} (hfrom : from' ∈ document.map Artifact.path) (next : String) :
      Edge (dependentsOf document) from' next ↔ Edge (dependentPaths document) from' next :=
    mem_dependentsOf_iff hpaths hinverse hfrom next
  have hregistered {last : String}
      (hreach : Relation.ReflTransGen (Edge (dependentPaths document)) seed last) :
      last ∈ document.map Artifact.path := by
    cases hreach with
    | refl => exact hseed
    | tail _ hedge => exact dependentPaths_registered _ _ hedge
  constructor
  · intro hreach
    induction hreach with
    | refl => exact .refl
    | tail _ hedge ih => exact ih.tail ((hsame (hregistered ih) _).mp hedge)
  · intro hreach
    induction hreach with
    | refl => exact .refl
    | tail hbefore hedge ih => exact ih.tail ((hsame (hregistered hbefore) _).mpr hedge)

theorem stageArtifacts_registered :
    ∀ seed ∈ stageArtifacts document targetStageId, seed ∈ document.map Artifact.path := by
  intro seed hseed
  obtain ⟨artifact, hartifact, -, rfl⟩ := mem_stageArtifacts.mp hseed
  exact List.mem_map_of_mem hartifact

theorem affectedArtifacts_closure (hpaths : (document.map Artifact.path).Nodup)
    (hinverse : InverseTables document) :
    ReworkClosure document targetStageId (affectedArtifacts document targetStageId) where
  sorted := List.pairwise_insertionSort (· ≤ ·) _
  nodup := by
    rw [affectedArtifacts, (List.perm_insertionSort _ _).nodup_iff]
    exact nodup_sweep _ _ _ (List.nodup_dedup _)
  reached := fun path => mem_affectedArtifacts
  visited := by
    intro fuel hfuel path
    have hseeds (seed : String) (hseed : seed ∈ stageArtifacts document targetStageId) :=
      reaches_dependents_iff hpaths hinverse (stageArtifacts_registered seed hseed) path
    rw [mem_affectedArtifacts]
    constructor
    · rintro ⟨seed, hseed, hreach⟩
      refine .inr ⟨seed, hseed, ?_⟩
      rw [mem_mark_visited_of_le hfuel]
      exact (hseeds seed hseed).mp hreach
    · rintro (hseed | ⟨seed, hseed, hvisited⟩)
      · exact ⟨path, hseed, .refl⟩
      · rw [mem_mark_visited_of_le hfuel] at hvisited
        exact ⟨seed, hseed, (hseeds seed hseed).mpr hvisited⟩

end Closure

/-- With the dependents as the inverse of the dependencies, the loop of
`_get_affected_artifacts` ends, and what it returns is the closure of the
artifacts of the stage. It looks at each artifact once, and so it ends on cycles
as well. -/
theorem getAffectedArtifacts_closure (workspace : Workspace) (document : ArtifactDocument)
    (hload : workspace.project.load = .ok document)
    (hpaths : (document.map Artifact.path).Nodup) (hinverse : InverseTables document)
    (targetStageId : String) :
    ∃ affected seen,
      Sweeps (dependentsOf document) (stageArtifacts document targetStageId).dedup
        (stageArtifacts document targetStageId) seen ∧
      affected = seen.insertionSort (· ≤ ·) ∧
      (getAffectedArtifacts targetStageId).exec workspace =
        (.ok (affected, downstreamStages document targetStageId), workspace) ∧
      ReworkClosure document targetStageId affected := by
  have henough := unseen_le (document.flatMap Artifact.dependents)
    (stageArtifacts document targetStageId).dedup
  refine ⟨affectedArtifacts document targetStageId, _,
    sweeps_sweep (dependentsOf_subset document)
      ((stageArtifacts document targetStageId).length +
        (document.flatMap Artifact.dependents).length) _ _ ?_, rfl, ?_,
    affectedArtifacts_closure hpaths hinverse⟩
  · omega
  · rw [getAffectedArtifacts, Effect.exec_bind_ok _ (Effect.exec_get workspace), hload]
    rfl

/-- Two artifacts that depend on each other, the first also on itself. -/
def circular : ArtifactDocument := [
  { id := "artifact-1", path := "srs.md", stageId := some "srs", status := .fresh
    dependencies := ["srs.md", "plan.md"], dependents := ["plan.md", "srs.md"]
    contentHash := none, modifiedAt := none, tokenEstimate := 0 },
  { id := "artifact-2", path := "plan.md", stageId := some "plan", status := .fresh
    dependencies := ["srs.md"], dependents := ["srs.md"]
    contentHash := none, modifiedAt := none, tokenEstimate := 0 }]

def circularProject : Workspace where
  project := { files := fun _ => none, registry := .document circular, graph := none, drawn := 0 }
  backtrack := .absent

theorem circular_inverse : InverseTables circular := by
  intro artifact hartifact path
  simp only [circular, List.mem_cons, List.not_mem_nil, or_false] at hartifact
  rcases hartifact with rfl | rfl
  · simp [circular, or_comm, eq_comm]
  · simp [circular, eq_comm]

theorem getAffectedArtifacts_circular :
    ∃ affected seen,
      Sweeps (dependentsOf circular) (stageArtifacts circular "plan").dedup
        (stageArtifacts circular "plan") seen ∧
      affected = seen.insertionSort (· ≤ ·) ∧
      (getAffectedArtifacts "plan").exec circularProject =
        (.ok (affected, downstreamStages circular "plan"), circularProject) ∧
      ReworkClosure circular "plan" affected :=
  getAffectedArtifacts_closure circularProject circular rfl (by decide) circular_inverse "plan"

end ForgeOS
