import ForgeOS.Context.Loading
import ForgeOS.Library.Worklist
import ForgeOS.Project.Backtrack

/-!
The rework planner. A ticket lists the artifacts of the stage to be revisited
and everything downstream of them; running its rework marks them stale in the
artifact registry, and resolving it makes them fresh again.
-/

namespace ForgeOS

open Library

/-- The files the rework planner acts on. -/
structure Workspace where
  project : Project
  backtrack : BacktrackFile

/-- A computation of the rework planner. -/
abbrev Planner (α : Type) := Effect Workspace RegistryError α

/-- A computation of the artifact registry, as the planner makes it. -/
def inRegistry {α : Type} (computation : Registry α) : Planner α :=
  computation.within Workspace.project fun project workspace => { workspace with project }

/-- `BacktrackRegistry.update_ticket`, on the workspace. -/
def updateTicket (ticketId : String) (updates : List TicketUpdate) :
    Planner (Option BacktrackTicket) := do
  let updated := (← get).backtrack.updateTicket ticketId updates
  modify fun workspace => { workspace with backtrack := updated.2 }
  return updated.1

/-! ### The cascade -/

/-- The artifacts that an entry lists as its dependents, for the first entry of
a path. -/
def dependentsOf (document : ArtifactDocument) (path : String) : List String :=
  match document.find? fun artifact => artifact.path = path with
  | some artifact => artifact.dependents
  | none => []

def stageArtifacts (document : ArtifactDocument) (stageId : String) : List String :=
  (document.filter fun artifact => artifact.stageId = some stageId).map Artifact.path

/-- The first value of `_get_affected_artifacts`. -/
def affectedArtifacts (document : ArtifactDocument) (targetStageId : String) : List String :=
  let seeds := stageArtifacts document targetStageId
  let affected := sweep (dependentsOf document)
    (seeds.length + (document.flatMap Artifact.dependents).length) seeds.dedup seeds
  affected.insertionSort (· ≤ ·)

/-- The second value of `_get_affected_artifacts`. -/
def downstreamStages (document : ArtifactDocument) (targetStageId : String) : List String :=
  let affected := affectedArtifacts document targetStageId
  let stages := (document.filter fun artifact => artifact.path ∈ affected).filterMap
    Artifact.stageId
  (stages.filter fun stageId => stageId ≠ targetStageId).dedup.insertionSort (· ≤ ·)

def getAffectedArtifacts (targetStageId : String) : Planner (List String × List String) := do
  let document ← Effect.ofExcept (← get).project.load
  return (affectedArtifacts document targetStageId, downstreamStages document targetStageId)

def getDownstreamStages (targetStageId : String) : Planner (List String) := do
  let (_, stages) ← getAffectedArtifacts targetStageId
  return stages

/-! ### The calls -/

/-- `f"BT-{uuid.uuid4().hex[:6].upper()}"`. The first eight characters of an
identifier are the first eight of its `hex`. -/
def newTicketId (identifier : String) : String :=
  "BT-" ++ String.ofList ((identifier.toList.take 6).map Char.toUpper)

section Calls

variable (host : Host)

/-- `create_backtrack_ticket`; `now` is the time it is called at. -/
def createBacktrackTicket (now reason sourceStageId targetStageId : String) : Planner String := do
  let drawn := (← get).project.drawn
  inRegistry (modify fun project => { project with drawn := drawn + 1 })
  let ticketId := newTicketId (host.uuid4 drawn)
  let (affected, _) ← getAffectedArtifacts targetStageId
  let ticket : BacktrackTicket := {
    ticketId := ticketId
    reason := reason
    sourceStageId := sourceStageId
    targetStageId := targetStageId
    affectedArtifacts := affected
    createdAt := now }
  modify fun workspace => { workspace with backtrack := workspace.backtrack.createTicket ticket }
  return ticketId

end Calls

def approveTicket (ticketId : String) : Planner Bool := do
  let ticket ← updateTicket ticketId [.status .approved]
  return ticket.isSome

/-- Mark the first entry of a path as stale. -/
def markPath (document : ArtifactDocument) (path : String) : ArtifactDocument :=
  match document.find? fun artifact => artifact.path = path with
  | some _ => document.modify (document.findIdx fun artifact => artifact.path = path)
      Artifact.markStale
  | none => document

def runRework (ticketId : String) : Planner Bool := do
  match (← get).backtrack.getTicket ticketId with
  | none => return false
  | some ticket =>
      if ticket.status ≠ .approved then
        return false
      else
        let document ← Effect.ofExcept (← get).project.load
        inRegistry (saveRegistry (ticket.affectedArtifacts.foldl markPath document))
        let _ ← updateTicket ticketId [.status .inProgress]
        return true

/-- Make an entry of one of these paths fresh, if it is stale. -/
def refreshStale (paths : List String) (artifact : Artifact) : Artifact :=
  if artifact.path ∈ paths ∧ artifact.status = .stale then { artifact with status := .fresh }
  else artifact

/-- Clear the stale flags of the artifacts a ticket lists. The registry is
saved only if there are any. -/
def clearStaleFlags (affected : List String) : Planner Unit := do
  if affected = [] then
    return ()
  else
    let document ← Effect.ofExcept (← get).project.load
    if document.any fun artifact => artifact.path ∈ affected ∧ artifact.status = .stale then
      inRegistry (saveRegistry (document.map (refreshStale affected)))
    else
      return ()

def resolveTicket (ticketId : String) : Planner Bool := do
  match (← get).backtrack.getTicket ticketId with
  | none => return false
  | some ticket =>
      clearStaleFlags ticket.affectedArtifacts
      let result ← updateTicket ticketId [.status .resolved]
      return result.isSome

inductive ReworkCall where
  | create (now reason sourceStageId targetStageId : String)
  | approve (ticketId : String)
  | runRework (ticketId : String)
  | resolve (ticketId : String)
deriving DecidableEq, Repr

namespace Workspace

/-- The workspace after a call. A call that raises keeps what it has written. -/
def perform (host : Host) (workspace : Workspace) : ReworkCall → Workspace
  | .create now reason sourceStageId targetStageId =>
      ((createBacktrackTicket host now reason sourceStageId targetStageId).exec workspace).2
  | .approve ticketId => ((approveTicket ticketId).exec workspace).2
  | .runRework ticketId => ((ForgeOS.runRework ticketId).exec workspace).2
  | .resolve ticketId => ((resolveTicket ticketId).exec workspace).2

def tickets (workspace : Workspace) : List BacktrackTicket := workspace.backtrack.load.tickets

end Workspace

/-! ### What the cascade finds -/

theorem mem_stageArtifacts {document : ArtifactDocument} {stageId path : String} :
    path ∈ stageArtifacts document stageId ↔
      ∃ artifact ∈ document, artifact.stageId = some stageId ∧ artifact.path = path := by
  simp only [stageArtifacts, List.mem_map, List.mem_filter, decide_eq_true_eq, and_assoc]

theorem dependentsOf_subset (document : ArtifactDocument) (path : String) :
    ∀ dependent ∈ dependentsOf document path,
      dependent ∈ document.flatMap Artifact.dependents := by
  intro dependent hdependent
  unfold dependentsOf at hdependent
  split at hdependent
  · rename_i artifact hfind
    exact List.mem_flatMap.mpr ⟨artifact, List.mem_of_find?_eq_some hfind, hdependent⟩
  · cases hdependent

/-- The affected artifacts are those of the stage, and all that is reached from
them over the dependents. -/
theorem mem_affectedArtifacts {document : ArtifactDocument} {targetStageId path : String} :
    path ∈ affectedArtifacts document targetStageId ↔
      ∃ seed ∈ stageArtifacts document targetStageId,
        Relation.ReflTransGen (Edge (dependentsOf document)) seed path := by
  rw [affectedArtifacts, (List.perm_insertionSort _ _).mem_iff]
  exact mem_sweep_iff (dependentsOf_subset document) (fun _ => List.mem_dedup) le_rfl path

/-! ### What each call does -/

section Outcomes

variable {host : Host} {workspace : Workspace} {ticketId : String} {ticket : BacktrackTicket}

theorem Workspace.tickets_position (h : workspace.backtrack.getTicket ticketId = some ticket) :
    workspace.tickets[workspace.backtrack.position ticketId]? = some ticket :=
  (BacktrackFile.getTicket_eq _ _).symm.trans h

theorem Workspace.tickets_updated (project : Project) (ticketId : String)
    (status : BacktrackStatus) : Workspace.tickets {
        project := project
        backtrack := (workspace.backtrack.updateTicket ticketId [.status status]).2 } =
      workspace.tickets.modify (workspace.backtrack.position ticketId)
        fun ticket => { ticket with status := status } :=
  BacktrackFile.updateTicket_tickets _ _ _

@[simp]
theorem exec_inRegistry {α : Type} (computation : Registry α) (workspace : Workspace) :
    (inRegistry computation).exec workspace = ((computation.exec workspace.project).1,
      { workspace with project := (computation.exec workspace.project).2 }) := rfl

@[simp]
theorem exec_updateTicket (ticketId : String) (updates : List TicketUpdate)
    (workspace : Workspace) : (updateTicket ticketId updates).exec workspace =
      (.ok (workspace.backtrack.updateTicket ticketId updates).1, { workspace with
        backtrack := (workspace.backtrack.updateTicket ticketId updates).2 }) := rfl

/-- A creation that fails has only drawn an identifier. -/
theorem perform_create_of_error {error : RegistryError}
    (hload : workspace.project.load = .error error)
    (now reason sourceStageId targetStageId : String) :
    workspace.perform host (.create now reason sourceStageId targetStageId) =
      { workspace with project :=
        { workspace.project with drawn := workspace.project.drawn + 1 } } := by
  have hdrawn : ({ workspace.project with
      drawn := workspace.project.drawn + 1 } : Project).load = .error error := hload
  simp only [Workspace.perform, createBacktrackTicket, getAffectedArtifacts, Effect.exec_bind,
    Effect.exec_get, exec_inRegistry, Effect.exec_modify, Effect.exec_ofExcept, hdrawn]

theorem perform_create {document : ArtifactDocument}
    (hload : workspace.project.load = .ok document)
    (now reason sourceStageId targetStageId : String) :
    workspace.perform host (.create now reason sourceStageId targetStageId) = {
      project := { workspace.project with drawn := workspace.project.drawn + 1 }
      backtrack := workspace.backtrack.createTicket {
        ticketId := newTicketId (host.uuid4 workspace.project.drawn)
        reason := reason
        sourceStageId := sourceStageId
        targetStageId := targetStageId
        affectedArtifacts := affectedArtifacts document targetStageId
        createdAt := now } } := by
  have hdrawn : ({ workspace.project with
      drawn := workspace.project.drawn + 1 } : Project).load = .ok document := hload
  simp only [Workspace.perform, createBacktrackTicket, getAffectedArtifacts, Effect.exec_bind,
    Effect.exec_get, exec_inRegistry, Effect.exec_modify, Effect.exec_ofExcept, Effect.exec_pure,
    hdrawn]

theorem perform_approve (host : Host) (workspace : Workspace) (ticketId : String) :
    workspace.perform host (.approve ticketId) = { workspace with
      backtrack := (workspace.backtrack.updateTicket ticketId [.status .approved]).2 } := by
  simp only [Workspace.perform, approveTicket, Effect.exec_bind, exec_updateTicket,
    Effect.exec_pure]

/-! ### Marking -/

theorem markPath_eq (document : ArtifactDocument) (path : String) :
    markPath document path =
      document.modify (document.findIdx fun artifact => artifact.path = path)
        Artifact.markStale := by
  unfold markPath
  cases hfind : document.find? fun artifact => artifact.path = path with
  | some artifact => rfl
  | none =>
      rw [List.find?_eq_getElem?_findIdx, List.getElem?_eq_none_iff] at hfind
      exact (List.modify_eq_self hfind).symm

private theorem markPath_paths (document : ArtifactDocument) (path : String) :
    (markPath document path).map Artifact.path = document.map Artifact.path := by
  rw [markPath_eq]
  exact (SameEdges.modify (f := Artifact.markStale) document _ fun _ => rfl).paths

/-- The first entry of a path is found by the paths alone. -/
private theorem findIdx_path (document : ArtifactDocument) (path : String) :
    (document.findIdx fun artifact => artifact.path = path) =
      (document.map Artifact.path).findIdx fun other => other = path := by
  rw [List.findIdx_map]
  rfl

/-- The loop of `run_rework` marks the first entry of each of its paths. -/
theorem markPaths_entry (paths : List String) {document : ArtifactDocument} {position : Nat}
    {artifact : Artifact} (hentry : document[position]? = some artifact) :
    (paths.foldl markPath document)[position]? =
      some (if artifact.path ∈ paths ∧
          (document.findIdx fun other => other.path = artifact.path) = position then
        artifact.markStale else artifact) := by
  induction paths generalizing document artifact with
  | nil => simpa using hentry
  | cons path rest ih =>
      rw [List.foldl_cons]
      have hfirst (other : String) : ((markPath document path).findIdx fun entry =>
          entry.path = other) = document.findIdx fun entry => entry.path = other := by
        rw [findIdx_path, findIdx_path, markPath_paths]
      by_cases hmarked : (document.findIdx fun other => other.path = path) = position
      · have hpath : artifact.path = path := by
          have hfound := List.findIdx_of_getElem?_eq_some (hmarked.symm ▸ hentry)
          simpa using hfound
        have hnext : (markPath document path)[position]? = some artifact.markStale := by
          rw [markPath_eq, hmarked, List.getElem?_modify_eq, hentry]
          rfl
        rw [ih hnext, hfirst]
        simp [Artifact.markStale, hpath, hmarked]
      · have hnext : (markPath document path)[position]? = some artifact := by
          rw [markPath_eq, List.getElem?_modify_ne _ _ hmarked, hentry]
        rw [ih hnext, hfirst]
        by_cases hpath : artifact.path = path
        · simp [hpath, hmarked]
        · simp [hpath]

/-- Marking keeps the length of a document, so each of its entries comes from
one of the document's. -/
theorem entry_of_markPaths (paths : List String) {document : ArtifactDocument} {position : Nat}
    {marked : Artifact} (hmarked : (paths.foldl markPath document)[position]? = some marked) :
    ∃ artifact, document[position]? = some artifact ∧
      marked = if artifact.path ∈ paths ∧
          (document.findIdx fun other => other.path = artifact.path) = position then
        artifact.markStale else artifact := by
  have hlength : (paths.foldl markPath document).length = document.length := by
    clear hmarked
    induction paths generalizing document with
    | nil => rfl
    | cons path rest ih => rw [List.foldl_cons, ih, markPath_eq, List.length_modify]
  have hbound := (List.getElem?_eq_some_iff.mp hmarked).1
  rw [hlength] at hbound
  have hentry := List.getElem?_eq_getElem hbound
  refine ⟨_, hentry, ?_⟩
  rw [markPaths_entry paths hentry, Option.some.injEq] at hmarked
  exact hmarked.symm

/-- A document with some entries marked stale loads as it was saved. -/
theorem load_markPaths {project : Project} {document : ArtifactDocument}
    (hload : project.load = .ok document) (paths : List String) :
    ({ project with
      registry := .document (paths.foldl markPath document)
      graph := some (buildGraph (paths.foldl markPath document)) } : Project).load =
      .ok (paths.foldl markPath document) := by
  refine Project.load_of_normalized rfl ?_
  intro marked hmarked
  obtain ⟨position, hposition⟩ := List.mem_iff_getElem?.mp hmarked
  obtain ⟨artifact, hentry, rfl⟩ := entry_of_markPaths _ hposition
  have hnormalized := Project.normalized_of_load hload artifact (List.mem_of_getElem? hentry)
  split
  · exact ⟨hnormalized.path, hnormalized.dependencies, hnormalized.dependents⟩
  · exact hnormalized

/-- All that a rework can do: it leaves everything as it is, which it does
unless the ticket is approved and the registry loads; or it marks what the
ticket lists, and the ticket is in progress. -/
theorem runRework_cases (workspace : Workspace) (ticketId : String) :
    (∃ outcome, (runRework ticketId).exec workspace = (outcome, workspace) ∧ outcome ≠ .ok true ∧
      ∀ ticket document, workspace.backtrack.getTicket ticketId = some ticket →
        ticket.status = .approved → workspace.project.load ≠ .ok document) ∨
    ∃ ticket document project', workspace.backtrack.getTicket ticketId = some ticket ∧
      ticket.status = .approved ∧ workspace.project.load = .ok document ∧
      (runRework ticketId).exec workspace = (.ok true, {
        project := project'
        backtrack := (workspace.backtrack.updateTicket ticketId [.status .inProgress]).2 }) ∧
      project'.load = .ok (ticket.affectedArtifacts.foldl markPath document) := by
  cases hticket : workspace.backtrack.getTicket ticketId with
  | none =>
      refine Or.inl ⟨.ok false, ?_, by simp, fun _ _ h => nomatch h⟩
      simp only [runRework, Effect.exec_bind, Effect.exec_get, hticket, Effect.exec_pure]
  | some ticket =>
      by_cases hstatus : ticket.status = .approved
      · cases hload : workspace.project.load with
        | error error =>
            refine Or.inl ⟨.error error, ?_, by simp, fun _ _ _ _ h => nomatch h⟩
            simp only [runRework, Effect.exec_bind, Effect.exec_get, hticket, hstatus, ne_eq,
              not_true_eq_false, if_false, Effect.exec_ofExcept, hload]
        | ok document =>
            refine Or.inr ⟨ticket, document, _, rfl, hstatus, rfl, ?_,
              load_markPaths hload ticket.affectedArtifacts⟩
            simp only [runRework, saveRegistry, Effect.exec_bind, Effect.exec_get, hticket,
              hstatus, ne_eq, not_true_eq_false, if_false, Effect.exec_ofExcept, hload,
              exec_inRegistry, Effect.exec_modify, exec_updateTicket, Effect.exec_pure]
      · refine Or.inl ⟨.ok false, ?_, by simp, ?_⟩
        · simp only [runRework, Effect.exec_bind, Effect.exec_get, hticket, hstatus,
            Effect.exec_pure, ne_eq, not_false_eq_true, if_true]
        · rintro _ _ ⟨⟩ happroved
          exact absurd happroved hstatus

/-! ### Clearing -/

theorem exec_clearStaleFlags_nil (workspace : Workspace) :
    (clearStaleFlags []).exec workspace = (.ok (), workspace) := rfl

theorem exec_clearStaleFlags_of_error {affected : List String} {error : RegistryError}
    (hne : affected ≠ []) (hload : workspace.project.load = .error error) :
    (clearStaleFlags affected).exec workspace = (.error error, workspace) := by
  simp only [clearStaleFlags, hne, if_false, Effect.exec_bind, Effect.exec_get,
    Effect.exec_ofExcept, hload]

theorem refreshStale_of_not_stale {paths : List String} {artifact : Artifact}
    (h : ¬ (artifact.path ∈ paths ∧ artifact.status = .stale)) :
    refreshStale paths artifact = artifact := by
  rw [refreshStale, if_neg h]

theorem exec_clearStaleFlags {affected : List String} {document : ArtifactDocument}
    (hne : affected ≠ []) (hload : workspace.project.load = .ok document) :
    ∃ project', (clearStaleFlags affected).exec workspace =
        (.ok (), { workspace with project := project' }) ∧
      project'.load = .ok (document.map (refreshStale affected)) := by
  by_cases hstale : document.any fun artifact =>
      artifact.path ∈ affected ∧ artifact.status = .stale
  · refine ⟨{ workspace.project with
      registry := .document (document.map (refreshStale affected))
      graph := some (buildGraph (document.map (refreshStale affected))) }, ?_, ?_⟩
    · simp only [clearStaleFlags, saveRegistry, hne, if_false, Effect.exec_bind, Effect.exec_get,
        Effect.exec_ofExcept, hload, hstale, if_true, exec_inRegistry, Effect.exec_modify]
    · refine Project.load_of_normalized rfl ?_
      intro cleared hcleared
      obtain ⟨artifact, hartifact, rfl⟩ := List.mem_map.mp hcleared
      have hnormalized := Project.normalized_of_load hload artifact hartifact
      unfold refreshStale
      split
      · exact ⟨hnormalized.path, hnormalized.dependencies, hnormalized.dependents⟩
      · exact hnormalized
  · refine ⟨workspace.project, ?_, ?_⟩
    · simp only [clearStaleFlags, hne, if_false, Effect.exec_bind, Effect.exec_get,
        Effect.exec_ofExcept, hload, hstale]
      rfl
    · rw [hload]
      refine congrArg _ (((List.map_congr_left ?_).trans (List.map_id document)).symm)
      intro artifact hartifact
      refine refreshStale_of_not_stale fun hboth => hstale ?_
      exact List.any_eq_true.mpr ⟨artifact, hartifact, by simpa using hboth⟩

/-- What remains of a resolution once the flags are cleared. -/
private theorem exec_resolveTicket {project' : Project}
    (h : workspace.backtrack.getTicket ticketId = some ticket)
    (hclear : (clearStaleFlags ticket.affectedArtifacts).exec workspace =
      (.ok (), { workspace with project := project' })) :
    (resolveTicket ticketId).exec workspace = (.ok true, {
      project := project'
      backtrack := (workspace.backtrack.updateTicket ticketId [.status .resolved]).2 }) := by
  simp only [resolveTicket, Effect.exec_bind, Effect.exec_get, h, hclear, exec_updateTicket,
    Effect.exec_pure, BacktrackFile.updateTicket_fst, Option.map_some, Option.isSome_some]

/-- All that a resolution can do: it leaves everything as it is, which it does
unless the ticket lists nothing or the registry loads; or it clears what the
ticket lists, and the ticket is resolved. -/
theorem resolveTicket_cases (host : Host) (workspace : Workspace) (ticketId : String) :
    (workspace.perform host (.resolve ticketId) = workspace ∧
      ∀ ticket, workspace.backtrack.getTicket ticketId = some ticket →
        ticket.affectedArtifacts ≠ [] ∧ ∃ error, workspace.project.load = .error error) ∨
    ∃ ticket project', workspace.backtrack.getTicket ticketId = some ticket ∧
      workspace.perform host (.resolve ticketId) = {
        project := project'
        backtrack := (workspace.backtrack.updateTicket ticketId [.status .resolved]).2 } ∧
      (ticket.affectedArtifacts = [] ∧ project' = workspace.project ∨
        ∃ document, workspace.project.load = .ok document ∧
          project'.load = .ok (document.map (refreshStale ticket.affectedArtifacts))) := by
  rw [Workspace.perform]
  cases hticket : workspace.backtrack.getTicket ticketId with
  | none =>
      refine Or.inl ⟨?_, fun _ h => nomatch h⟩
      simp only [resolveTicket, Effect.exec_bind, Effect.exec_get, hticket, Effect.exec_pure]
  | some ticket =>
      by_cases hempty : ticket.affectedArtifacts = []
      · refine Or.inr ⟨ticket, workspace.project, rfl, ?_, Or.inl ⟨hempty, rfl⟩⟩
        rw [exec_resolveTicket hticket (by rw [hempty]; exact exec_clearStaleFlags_nil _)]
      · cases hload : workspace.project.load with
        | error error =>
            refine Or.inl ⟨?_, ?_⟩
            · simp only [resolveTicket, Effect.exec_bind, Effect.exec_get, hticket,
                exec_clearStaleFlags_of_error hempty hload]
            · rintro _ ⟨⟩
              exact ⟨hempty, error, rfl⟩
        | ok document =>
            obtain ⟨project', hexec, hload'⟩ := exec_clearStaleFlags hempty hload
            refine Or.inr ⟨ticket, project', rfl, ?_, Or.inr ⟨document, rfl, hload'⟩⟩
            rw [exec_resolveTicket hticket hexec]

end Outcomes

end ForgeOS
