import ForgeOS.Project.Rework

/-!
Whether an open rework keeps its artifacts stale. Tickets may list the same
artifact, and a resolution clears every flag its own ticket lists: what the
other tickets in progress list is what it has to leave alone.
-/

namespace ForgeOS

open Library

def Reworks (tickets : List BacktrackTicket) (path : String) : Prop :=
  ∃ ticket ∈ tickets, ticket.status = .inProgress ∧ path ∈ ticket.affectedArtifacts

/-- A ticket in progress lists the path, other than the one at a position. -/
def ReworksBesides (tickets : List BacktrackTicket) (position : Nat) (path : String) : Prop :=
  ∃ other ticket, other ≠ position ∧ tickets[other]? = some ticket ∧
    ticket.status = .inProgress ∧ path ∈ ticket.affectedArtifacts

namespace Workspace

/-- Every registered artifact that a ticket in progress lists is stale. -/
def OpenReworkStale (workspace : Workspace) : Prop :=
  ∀ document, workspace.project.load = .ok document → ∀ artifact ∈ document,
    Reworks workspace.tickets artifact.path → artifact.status = .stale

/-- They are stale all along a run. -/
def StaysStale (host : Host) (start : Workspace) (calls : List ReworkCall) : Prop :=
  ∀ before after, calls = before ++ after → (run (perform host) start before).OpenReworkStale

/-- A rework that is run lists no path whose later entries are not stale; a
ticket that is resolved lists no registered artifact that another ticket in
progress lists as well. -/
def KeepsStale (workspace : Workspace) : ReworkCall → Prop
  | .create _ _ _ _ => True
  | .approve _ => True
  | .runRework ticketId => ∀ ticket document,
      workspace.backtrack.getTicket ticketId = some ticket → ticket.status = .approved →
      workspace.project.load = .ok document →
      ∀ position artifact, document[position]? = some artifact →
        artifact.path ∈ ticket.affectedArtifacts →
        (document.findIdx fun other => other.path = artifact.path) ≠ position →
        artifact.status = .stale
  | .resolve ticketId => ∀ ticket document,
      workspace.backtrack.getTicket ticketId = some ticket →
      workspace.project.load = .ok document →
      ∀ artifact ∈ document, artifact.path ∈ ticket.affectedArtifacts →
        ¬ ReworksBesides workspace.tickets (workspace.backtrack.position ticketId) artifact.path

end Workspace

/-! ### Which paths are being reworked -/

section Reworks

variable {tickets : List BacktrackTicket} {position : Nat} {path : String}

theorem reworks_iff {ticket : BacktrackTicket} (hticket : tickets[position]? = some ticket) :
    Reworks tickets path ↔ ReworksBesides tickets position path ∨
      ticket.status = .inProgress ∧ path ∈ ticket.affectedArtifacts := by
  constructor
  · rintro ⟨other, hmember, hstatus, hlisted⟩
    obtain ⟨place, hplace⟩ := List.mem_iff_getElem?.mp hmember
    by_cases hsame : place = position
    · rw [hsame, hticket, Option.some.injEq] at hplace
      exact Or.inr ⟨hplace ▸ hstatus, hplace ▸ hlisted⟩
    · exact Or.inl ⟨place, other, hsame, hplace, hstatus, hlisted⟩
  · rintro (⟨place, other, -, hplace, hopen⟩ | hopen)
    · exact ⟨other, List.mem_of_getElem? hplace, hopen⟩
    · exact ⟨ticket, List.mem_of_getElem? hticket, hopen⟩

/-- Setting the status of one ticket decides about the paths it lists. -/
theorem reworks_modify_iff {ticket : BacktrackTicket} (hticket : tickets[position]? = some ticket)
    (status : BacktrackStatus) :
    Reworks (tickets.modify position fun ticket => { ticket with status := status }) path ↔
      ReworksBesides tickets position path ∨
        status = .inProgress ∧ path ∈ ticket.affectedArtifacts := by
  have hmoved : (tickets.modify position fun ticket =>
      { ticket with status := status })[position]? = some { ticket with status := status } := by
    rw [List.getElem?_modify_eq, hticket]
    rfl
  rw [reworks_iff hmoved]
  refine or_congr ?_ Iff.rfl
  constructor
  · rintro ⟨place, other, hplace, hother, hopen⟩
    rw [List.getElem?_modify_ne _ _ hplace.symm] at hother
    exact ⟨place, other, hplace, hother, hopen⟩
  · rintro ⟨place, other, hplace, hother, hopen⟩
    exact ⟨place, other, hplace, by rwa [List.getElem?_modify_ne _ _ hplace.symm], hopen⟩

theorem reworks_append {ticket : BacktrackTicket} (hticket : ticket.status ≠ .inProgress) :
    Reworks (tickets ++ [ticket]) path ↔ Reworks tickets path := by
  simp [Reworks, hticket, or_and_right, exists_or]

end Reworks

namespace Workspace

section Steps

variable {host : Host} {workspace : Workspace} {ticketId : String} {ticket : BacktrackTicket}

private theorem reworks_after (hticket : workspace.backtrack.getTicket ticketId = some ticket)
    (project : Project) (status : BacktrackStatus) (path : String) :
    Reworks (Workspace.tickets {
        project := project
        backtrack := (workspace.backtrack.updateTicket ticketId [.status status]).2 }) path ↔
      ReworksBesides workspace.tickets (workspace.backtrack.position ticketId) path ∨
        status = .inProgress ∧ path ∈ ticket.affectedArtifacts := by
  rw [tickets_updated]
  exact reworks_modify_iff (tickets_position hticket) status

private theorem openReworkStale_create (h : workspace.OpenReworkStale)
    (now reason sourceStageId targetStageId : String) :
    (workspace.perform host
      (.create now reason sourceStageId targetStageId)).OpenReworkStale := by
  intro document hdocument artifact hartifact hreworks
  cases hload : workspace.project.load with
  | error error =>
      rw [perform_create_of_error hload] at hdocument hreworks
      exact h document hdocument artifact hartifact hreworks
  | ok loaded =>
      rw [perform_create hload] at hdocument hreworks
      exact h document hdocument artifact hartifact ((reworks_append (by simp)).mp hreworks)

private theorem openReworkStale_approve (h : workspace.OpenReworkStale) (ticketId : String) :
    (workspace.perform host (.approve ticketId)).OpenReworkStale := by
  intro document hdocument artifact hartifact hreworks
  rw [perform_approve] at hdocument hreworks
  cases hticket : workspace.backtrack.getTicket ticketId with
  | none =>
      rw [BacktrackFile.updateTicket_of_none hticket] at hreworks
      exact h document hdocument artifact hartifact hreworks
  | some ticket =>
      have hbesides := ((reworks_after hticket _ _ _).mp hreworks).resolve_right (by simp)
      exact h document hdocument artifact hartifact
        ((reworks_iff (tickets_position hticket)).mpr (Or.inl hbesides))

private theorem openReworkStale_runRework_iff (h : workspace.OpenReworkStale)
    (ticketId : String) :
    (workspace.perform host (.runRework ticketId)).OpenReworkStale ↔
      workspace.KeepsStale (.runRework ticketId) := by
  rw [perform]
  rcases runRework_cases workspace ticketId with ⟨outcome, hexec, -, hstops⟩ | ⟨ticket, document,
    project', hticket, hstatus, hload, hexec, hload'⟩
  · rw [hexec]
    exact iff_of_true h fun ticket document hticket hstatus hload =>
      absurd hload (hstops ticket document hticket hstatus)
  · rw [hexec]
    constructor
    · intro hafter same loaded hsame _ hloaded position artifact hentry hlisted hlater
      rw [hticket, Option.some.injEq] at hsame
      rw [hload, Except.ok.injEq] at hloaded
      subst hsame hloaded
      have hkept := markPaths_entry ticket.affectedArtifacts hentry
      rw [if_neg fun hfirst => hlater hfirst.2] at hkept
      exact hafter _ hload' artifact (List.mem_of_getElem? hkept)
        ((reworks_after hticket _ _ _).mpr (Or.inr ⟨rfl, hlisted⟩))
    · intro hkeeps loaded hloaded marked hmarked hreworks
      rw [hload', Except.ok.injEq] at hloaded
      subst hloaded
      obtain ⟨position, hposition⟩ := List.mem_iff_getElem?.mp hmarked
      obtain ⟨artifact, hentry, rfl⟩ := entry_of_markPaths _ hposition
      split
      · rfl
      · rename_i hunmarked
        rw [if_neg hunmarked] at hreworks
        rcases (reworks_after hticket _ _ _).mp hreworks with hbesides | ⟨-, hlisted⟩
        · exact h document hload artifact (List.mem_of_getElem? hentry)
            ((reworks_iff (tickets_position hticket)).mpr (Or.inl hbesides))
        · exact hkeeps ticket document hticket hstatus hload position artifact hentry
            hlisted fun hfirst => hunmarked ⟨hlisted, hfirst⟩

private theorem openReworkStale_resolve_iff (h : workspace.OpenReworkStale)
    (ticketId : String) :
    (workspace.perform host (.resolve ticketId)).OpenReworkStale ↔
      workspace.KeepsStale (.resolve ticketId) := by
  rcases resolveTicket_cases host workspace ticketId with ⟨hsame, hstops⟩ | ⟨ticket, project',
    hticket, hdone, ⟨hempty, rfl⟩ | ⟨document, hload, hload'⟩⟩
  · rw [hsame]
    refine iff_of_true h fun ticket document hticket hload => ?_
    obtain ⟨-, error, herror⟩ := hstops ticket hticket
    rw [hload] at herror
    cases herror
  · rw [hdone]
    constructor
    · intro _ same _ hsame _ artifact _ hlisted
      rw [hticket, Option.some.injEq] at hsame
      rw [← hsame, hempty] at hlisted
      cases hlisted
    · intro _ document hload artifact hartifact hopen
      have hbesides := ((reworks_after hticket _ _ _).mp hopen).resolve_right (by simp)
      exact h document hload artifact hartifact
        ((reworks_iff (tickets_position hticket)).mpr (Or.inl hbesides))
  · rw [hdone]
    constructor
    · intro hafter same loaded hsame hloaded artifact hartifact hlisted hbesides
      rw [hticket, Option.some.injEq] at hsame
      rw [hload, Except.ok.injEq] at hloaded
      subst hsame hloaded
      have hstale := h document hload artifact hartifact
        ((reworks_iff (tickets_position hticket)).mpr (Or.inl hbesides))
      have hcleared : refreshStale ticket.affectedArtifacts artifact =
          { artifact with status := .fresh } := if_pos ⟨hlisted, hstale⟩
      have hfresh := hafter _ hload' _ (List.mem_map_of_mem hartifact) (by
        rw [hcleared]
        exact (reworks_after hticket _ _ _).mpr (Or.inl hbesides))
      rw [hcleared] at hfresh
      cases hfresh
    · intro hkeeps loaded hloaded cleared hcleared hopen
      rw [hload', Except.ok.injEq] at hloaded
      subst hloaded
      obtain ⟨artifact, hartifact, rfl⟩ := List.mem_map.mp hcleared
      have hpath : (refreshStale ticket.affectedArtifacts artifact).path = artifact.path := by
        unfold refreshStale
        split <;> rfl
      rw [hpath] at hopen
      have hbesides := ((reworks_after hticket _ _ _).mp hopen).resolve_right (by simp)
      have hunlisted : artifact.path ∉ ticket.affectedArtifacts := fun hlisted =>
        hkeeps ticket document hticket hload artifact hartifact hlisted hbesides
      rw [refreshStale_of_not_stale fun hboth => hunlisted hboth.1]
      exact h document hload artifact hartifact
        ((reworks_iff (tickets_position hticket)).mpr (Or.inl hbesides))

end Steps

/-- In every run the artifacts of open reworks stay stale exactly when they are
at the start and every call keeps them so. Resolving a ticket clears what it
lists, whether or not another open rework lists it too. -/
theorem staysStale_iff (host : Host) (start : Workspace) (calls : List ReworkCall) :
    start.StaysStale host calls ↔ start.OpenReworkStale ∧
      ∀ before call after, calls = before ++ call :: after →
        (run (perform host) start before).KeepsStale call := by
  have hrun (hstart : start.OpenReworkStale) := run_throughout_iff (perform host)
    (K := fun _ => True) (I := OpenReworkStale) (R := KeepsStale) calls (s := start)
    (fun _ _ _ _ => trivial) ?_ trivial hstart
  · constructor
    · intro hstays
      have hstart : start.OpenReworkStale := hstays [] calls rfl
      exact ⟨hstart, (hrun hstart).mp hstays⟩
    · exact fun h => (hrun h.1).mpr h.2
  · intro workspace call _ _ h
    cases call with
    | create now reason sourceStageId targetStageId =>
        exact iff_of_true (openReworkStale_create h now reason sourceStageId targetStageId) trivial
    | approve ticketId => exact iff_of_true (openReworkStale_approve h ticketId) trivial
    | runRework ticketId => exact openReworkStale_runRework_iff h ticketId
    | resolve ticketId => exact openReworkStale_resolve_iff h ticketId

/-- One registered artifact, and no tickets. -/
def onePlan : Workspace where
  project := {
    files := fun _ => none
    registry := .document [
      ⟨"artifact-1", "plan.md", some "plan", .fresh, [], [], none, none, 0⟩]
    graph := none
    drawn := 0 }
  backtrack := .absent

/-- Two tickets are in progress for the plan, and the first one is resolved. -/
def resolvedOne : List ReworkCall := [
  .create "2026-01-01T10:00:00" "The plan misses a requirement." "build" "plan",
  .create "2026-01-01T11:00:00" "The plan names a wrong tool." "test" "plan",
  .approve "BT-7C9E66", .approve "BT-1B9D6B", .runRework "BT-7C9E66", .runRework "BT-1B9D6B",
  .resolve "BT-7C9E66"]

/-- Then the plan is fresh, although the second rework is still open. -/
theorem not_staysStale : ¬ onePlan.StaysStale Host.demo resolvedOne := by
  intro hstays
  have hfinal := hstays resolvedOne [] (List.append_nil _).symm
  have hopen : Reworks (run (perform Host.demo) onePlan resolvedOne).tickets "plan.md" := by
    refine ⟨_, List.mem_of_getElem? (i := 1) rfl, ?_, ?_⟩
    · decide
    · decide
  obtain ⟨document, hload, hrows⟩ : ∃ document,
      (run (perform Host.demo) onePlan resolvedOne).project.load = .ok document ∧
        (document.map fun artifact => (artifact.path, artifact.status)) =
          [("plan.md", .fresh)] :=
    Project.exists_load_of_rows (by decide)
  have hmember : ("plan.md", ArtifactStatus.fresh) ∈
      document.map fun artifact => (artifact.path, artifact.status) := by
    rw [hrows]
    exact List.mem_singleton_self _
  obtain ⟨artifact, hartifact, hpair⟩ := List.mem_map.mp hmember
  obtain ⟨hpath, hstatus⟩ := Prod.mk.inj hpair
  have hstale := hfinal document hload artifact hartifact (hpath ▸ hopen)
  rw [hstatus] at hstale
  cases hstale

end Workspace

end ForgeOS
