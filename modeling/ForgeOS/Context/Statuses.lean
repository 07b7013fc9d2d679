import ForgeOS.Context.Runs

/-!
The status every entry ends a refresh with, and what in it depends on the order
of the entries: the own check of an entry and the traversals of the others both
write it, and the last one wins.
-/

namespace ForgeOS

open Library

section Exact

variable {host : Host} {files : Files} {document : ArtifactDocument} {position : Nat}
  {artifact : Artifact}

theorem ownStatus_eq_missing (file : FileSnapshot) (status : ArtifactStatus) :
    ownStatus file status = .missing ↔ file.status = .missing := by
  constructor
  · intro h
    by_contra hpresent
    exact ownStatus_ne_missing hpresent status h
  · exact fun hmissing => if_pos hmissing

/-- An entry shows no change at its own position when its file is missing. -/
theorem not_invalidates_self (hentry : document[position]? = some artifact)
    (hmissing : (snapshot host files artifact.path).status = .missing) :
    ¬Invalidates host files document position artifact := by
  rintro ⟨source, hsource, hchange, -⟩
  rw [hentry, Option.some.injEq] at hsource
  exact hchange.2 (hsource ▸ hmissing)

/-- From its own round on an entry is missing when its file is, unless a later
traversal marks it. -/
theorem statusAfter_eq_missing (hentry : document[position]? = some artifact) {rounds : Nat}
    (hrounds : position < rounds) :
    statusAfter host files document position artifact rounds = .missing ↔
      (snapshot host files artifact.path).status = .missing ∧
        ¬∃ round < rounds, position < round ∧ Invalidates host files document round artifact := by
  induction rounds, hrounds using Nat.le_induction with
  | base =>
      have hlater : ¬∃ round < position + 1, position < round ∧
          Invalidates host files document round artifact := by
        rintro ⟨round, hbelow, habove, -⟩
        omega
      rw [statusAfter_succ, and_iff_left hlater]
      by_cases hreset : Resets host files document position artifact
      · rw [roundStatus_of_resets _ hentry hreset]
        exact iff_of_false (by decide) hreset.1.2
      · rw [roundStatus_of_not_resets _ hentry (fun h => absurd h hreset)]
        by_cases hinvalid : Invalidates host files document position artifact
        · rw [if_pos hinvalid]
          exact iff_of_false (by decide) fun hmissing =>
            not_invalidates_self hentry hmissing hinvalid
        · rw [if_neg hinvalid, if_pos rfl, ownStatus_eq_missing]
  | succ rounds hrounds ih =>
      rw [statusAfter_succ, roundStatus_of_not_resets _ hentry fun _ => hrounds,
        Nat.exists_lt_succ_right]
      have hafter : position < rounds := hrounds
      have hne : position ≠ rounds := hafter.ne
      by_cases hinvalid : Invalidates host files document rounds artifact
      · rw [if_pos hinvalid]
        exact iff_of_false (by decide) fun h => h.2 (Or.inr ⟨hafter, hinvalid⟩)
      · rw [if_neg hinvalid, if_neg hne, ih]
        simp only [hinvalid, and_false, or_false]

/-- A traversal from a later entry marks this one. -/
def Overruled (host : Host) (files : Files) (document : ArtifactDocument) (position : Nat)
    (artifact : Artifact) : Prop :=
  ∃ round, position < round ∧ Invalidates host files document round artifact

variable (host) (files) in
/-- The document `refresh` saves, at an entry of the one it loaded: how its
status is decided. -/
theorem refreshed_status (hentry : document[position]? = some artifact) :
    ∃ artifact', (rebuildDependents (refreshDocument host files document))[position]? =
        some artifact' ∧ artifact'.path = artifact.path ∧
      (artifact'.status ≠ .fresh ↔ Detects host files document position artifact) ∧
      (artifact'.status = .missing ↔ (snapshot host files artifact.path).status = .missing ∧
        ¬Overruled host files document position artifact) := by
  obtain ⟨artifact', hentry', hpath, hfresh⟩ := refreshed_entry host files hentry
  obtain ⟨refreshed, hrefreshed, hstatus⟩ := refreshRounds_entry host files hentry
    document.length
  have hsame := (rebuildDependents_sameStatuses
    (refreshDocument host files document)).entry position
  change (refreshDocument host files document)[position]? = some refreshed at hrefreshed
  rw [hrefreshed, hentry', Option.map_some, Option.map_some, Option.some.injEq,
    Prod.mk.injEq] at hsame
  refine ⟨artifact', hentry', hpath, hfresh, ?_⟩
  rw [hsame.2, hstatus]
  have hbound := (List.getElem?_eq_some_iff.mp hentry).1
  refine (statusAfter_eq_missing hentry hbound).trans (and_congr_right fun _ => not_congr ?_)
  constructor
  · rintro ⟨round, -, hround⟩
    exact ⟨round, hround⟩
  · rintro ⟨round, hlater, hround⟩
    exact ⟨round, hround.round_lt, hlater, hround⟩

end Exact

theorem snapshot_missing_iff {host : Host} {files : Files} {path : String} :
    (snapshot host files path).status = .missing ↔ files (pathSegments path) = none := by
  unfold snapshot
  cases files (pathSegments path) with
  | none => simp
  | some file => simp

/-! ### Missing files -/

namespace Project

/-- After a refresh exactly the artifacts without a file are missing, and an
entry found missing in its own round is not overwritten in the later ones. -/
structure MissingExact (host : Host) (project : Project) : Prop where
  reported : ∀ document project', (refresh host).exec project = (.ok document, project') →
    ∀ artifact ∈ document,
      artifact.status = .missing ↔ project.files (pathSegments artifact.path) = none
  kept : ∀ document, project.load = .ok document → ∀ position rounds artifact,
    position < rounds →
    (refreshRounds host project.files document rounds)[position]? = some artifact →
    artifact.status = .missing →
      ∃ artifact', (refreshDocument host project.files document)[position]? = some artifact' ∧
        artifact'.status = .missing

/-- No artifact without a file is downstream of a changed artifact that comes
later in the document. -/
def MissingLast (host : Host) (project : Project) : Prop :=
  ∀ document, project.load = .ok document → ∀ position artifact,
    document[position]? = some artifact → project.files (pathSegments artifact.path) = none →
      ¬Overruled host project.files document position artifact

variable {host : Host} {project : Project}

private theorem missing_kept (hlast : project.MissingLast host) {document : ArtifactDocument}
    (hload : project.load = .ok document) {position rounds : Nat} {artifact : Artifact}
    (hposition : position < rounds)
    (hentry : (refreshRounds host project.files document rounds)[position]? = some artifact)
    (hmissing : artifact.status = .missing) :
    ∃ artifact', (refreshDocument host project.files document)[position]? = some artifact' ∧
      artifact'.status = .missing := by
  have hlength : (refreshRounds host project.files document rounds).length = document.length :=
    (refreshRounds_sameEdges host project.files rounds).length
  have hbound : position < document.length :=
    hlength ▸ (List.getElem?_eq_some_iff.mp hentry).1
  have hloaded : document[position]? = some (document.get ⟨position, hbound⟩) :=
    List.getElem?_eq_getElem hbound
  obtain ⟨same, hsame, hstatus⟩ := refreshRounds_entry host project.files hloaded rounds
  rw [hentry, Option.some.injEq] at hsame
  subst hsame
  have habsent := ((statusAfter_eq_missing hloaded hposition).mp (hstatus.symm.trans hmissing)).1
  obtain ⟨artifact', hentry', hfinal⟩ := refreshRounds_entry host project.files hloaded
    document.length
  refine ⟨artifact', hentry', hfinal.trans ?_⟩
  refine (statusAfter_eq_missing hloaded hbound).mpr ⟨habsent, ?_⟩
  rintro ⟨round, -, hround⟩
  exact hlast document hload position _ hloaded (snapshot_missing_iff.mp habsent) ⟨round, hround⟩

/-- A refresh reports missing files exactly when no artifact without a file comes
before a changed artifact it is downstream of. In that order propagation makes it
stale after it was found to be missing. -/
theorem missingExact_iff (host : Host) (project : Project) :
    project.MissingExact host ↔ project.MissingLast host := by
  constructor
  · intro hexact document hload position artifact hentry habsent
    obtain ⟨artifact', hentry', hpath, -, hmissing⟩ := refreshed_status host
      project.files hentry
    have hreported := hexact.reported _ _ (by rw [exec_refresh, hload]) artifact'
      (List.mem_of_getElem? hentry')
    rw [hpath] at hreported
    exact (hmissing.mp (hreported.mpr habsent)).2
  · intro hlast
    refine ⟨?_, fun document hload position rounds artifact => missing_kept hlast hload⟩
    intro document project' hexec artifact' hmember
    rw [exec_refresh] at hexec
    cases hload : project.load with
    | error error =>
        rw [hload] at hexec
        cases hexec
    | ok loaded =>
        rw [hload] at hexec
        cases hexec
        obtain ⟨position, hposition⟩ := List.mem_iff_getElem?.mp hmember
        obtain ⟨artifact, hentry⟩ := entry_of_refreshed host _ hposition
        obtain ⟨same, hsame, hpath, -, hmissing⟩ := refreshed_status host
          project.files hentry
        rw [hposition, Option.some.injEq] at hsame
        subst hsame
        rw [hmissing, snapshot_missing_iff, hpath]
        exact and_iff_left_of_imp fun habsent => hlast loaded hload position artifact hentry habsent

end Project

/-- `plan.md` was registered before `srs.md`, on which it depends. -/
def planBeforeSrs : ArtifactDocument := [
  { id := "artifact-1b9d6bcd-bbfd-4b2d-9b5d-ab8dfbbd4bed", path := "plan.md"
    stageId := some "plan", status := .fresh, dependencies := ["srs.md"], dependents := []
    contentHash := some "3e23e8160039594a33894f6564e1b1348bbd7a0088d42c4acb73eeaed59c009d"
    modifiedAt := some "2026-01-01T11:00:00Z", tokenEstimate := 1 },
  { id := "artifact-7c9e6679-7425-40de-944b-e07fc1f90ae7", path := "srs.md"
    stageId := some "srs", status := .fresh, dependencies := [], dependents := ["plan.md"]
    contentHash := some "ca978112ca1bbdcafac231b39a23dc4da786eff8147c4e72b9807785afee48bb"
    modifiedAt := some "2026-01-01T10:00:00Z", tokenEstimate := 1 }]

/-- Since then `plan.md` has been deleted and `srs.md` has changed. -/
def Project.planDeleted : Project where
  files segments := if segments = ["srs.md"] then srsRevised else none
  registry := .document planBeforeSrs
  graph := some (buildGraph planBeforeSrs)
  drawn := 2

/-- The traversal from `srs.md` declares the deleted `plan.md` stale. -/
theorem Project.not_missingExact : ¬ Project.planDeleted.MissingExact Host.demo := by
  intro hexact
  have hstatuses : ((refresh Host.demo).exec planDeleted).1.toOption.map
      (fun document => document.map fun artifact => (artifact.path, artifact.status)) =
        some [("plan.md", .stale), ("srs.md", .fresh)] := by
    decide
  rcases hexec : (refresh Host.demo).exec planDeleted with ⟨error | document, project'⟩
  · rw [hexec] at hstatuses
    cases hstatuses
  · rw [hexec] at hstatuses
    have hmember : ("plan.md", ArtifactStatus.stale) ∈
        document.map fun artifact => (artifact.path, artifact.status) := by
      rw [show (document.map fun artifact => (artifact.path, artifact.status)) = _ from
        Option.some.inj hstatuses]
      decide
    obtain ⟨artifact, hartifact, hpair⟩ := List.mem_map.mp hmember
    obtain ⟨hpath, hstatus⟩ := Prod.mk.inj hpair
    have hreported := hexact.reported document project' hexec artifact hartifact
    rw [hpath, hstatus] at hreported
    exact absurd (hreported.mpr (by decide)) (by decide)

/-! ### The order of the entries -/

section Order

variable {host : Host} {files : Files} {document document' : ArtifactDocument} {position : Nat}
  {artifact : Artifact}

theorem beforeHashes_perm (hpaths : (document.map Artifact.path).Nodup)
    (hperm : document.Perm document') :
    Dict.Same (beforeHashes document) (beforeHashes document') := by
  have hkeys {document : ArtifactDocument} (hpaths : (document.map Artifact.path).Nodup) :
      ((document.map fun artifact => (artifact.path, artifact.contentHash)).map
        Prod.fst).Nodup := by
    rw [List.map_map]
    exact hpaths
  have hpaths' := (hperm.map Artifact.path).nodup_iff.mp hpaths
  intro path
  rw [beforeHashes, beforeHashes, Dict.get?_update (hkeys hpaths), Dict.get?_update (hkeys hpaths')]
  rw [Dict.get?_perm (hkeys hpaths) (hperm.map _) path]

theorem showsChange_perm (hpaths : (document.map Artifact.path).Nodup)
    (hperm : document.Perm document') (path : String) :
    ShowsChange host files document' path ↔ ShowsChange host files document path := by
  rw [ShowsChange, ShowsChange, beforeHashes_perm hpaths hperm path]

theorem downstream_perm (hperm : document.Perm document') (path : String) (artifact : Artifact) :
    Downstream document' path artifact ↔ Downstream document path artifact := by
  have hedges : Edge (dependentPaths document') = Edge (dependentPaths document) := by
    funext source target
    simp only [edge_dependentPaths, (hperm.map Artifact.edge).mem_iff]
  rw [Downstream, Downstream, hedges]

/-- No artifact that is missing or has changed is downstream of another one
that has changed. -/
def Undisputed (host : Host) (files : Files) (document : ArtifactDocument) : Prop :=
  ∀ artifact ∈ document,
    files (pathSegments artifact.path) = none ∨ ShowsChange host files document artifact.path →
      ∀ other ∈ document, other.path ≠ artifact.path →
        ShowsChange host files document other.path → ¬Downstream document other.path artifact

variable (host) (files) in
theorem undisputed_perm (hpaths : (document.map Artifact.path).Nodup)
    (hperm : document.Perm document') :
    Undisputed host files document' ↔ Undisputed host files document := by
  simp only [Undisputed, ← hperm.mem_iff, showsChange_perm hpaths hperm, downstream_perm hperm]

/-- Entries at different places have different paths. -/
private theorem position_of_path (hpaths : (document.map Artifact.path).Nodup) {other : Nat}
    {artifact' : Artifact} (hentry : document[position]? = some artifact)
    (hother : document[other]? = some artifact') (hpath : artifact'.path = artifact.path) :
    other = position := by
  have hlast := byPath_of_nodup hpaths hentry
  have hlast' := byPath_of_nodup hpaths hother
  rw [hpath, hlast, Option.some.injEq] at hlast'
  exact hlast'.symm

/-- In an undisputed document nothing overrules the own check of an entry that
is missing or has changed. -/
private theorem not_overruled (hpaths : (document.map Artifact.path).Nodup)
    (hundisputed : Undisputed host files document) (hentry : document[position]? = some artifact)
    (hown : files (pathSegments artifact.path) = none ∨
      ShowsChange host files document artifact.path) :
    ¬Overruled host files document position artifact := by
  rintro ⟨round, hlater, source, hsource, hchange, hdownstream⟩
  refine hundisputed artifact (List.mem_of_getElem? hentry) hown source
    (List.mem_of_getElem? hsource) ?_ hchange hdownstream
  intro hpath
  exact hlater.ne' (position_of_path hpaths hentry hsource hpath)

/-- What the order does not touch: the artifact is missing, or its file shows
no change and it was stale or is downstream of a changed one. -/
def Settled (host : Host) (files : Files) (document : ArtifactDocument) (artifact : Artifact) :
    Prop :=
  files (pathSegments artifact.path) = none ∨
    ¬ShowsChange host files document artifact.path ∧
      (artifact.status = .stale ∨ ∃ source ∈ document,
        ShowsChange host files document source.path ∧ Downstream document source.path artifact)

theorem settled_perm (hpaths : (document.map Artifact.path).Nodup)
    (hperm : document.Perm document') :
    Settled host files document' artifact ↔ Settled host files document artifact := by
  simp only [Settled, ← hperm.mem_iff, showsChange_perm hpaths hperm, downstream_perm hperm]

theorem detects_iff_settled (hpaths : (document.map Artifact.path).Nodup)
    (hundisputed : Undisputed host files document)
    (hentry : document[position]? = some artifact) :
    Detects host files document position artifact ↔ Settled host files document artifact := by
  have hreset : Resets host files document position artifact ↔
      ShowsChange host files document artifact.path :=
    and_iff_left (byPath_of_nodup hpaths hentry)
  have hinvalidates : (∃ round, Invalidates host files document round artifact) ↔
      ∃ source ∈ document, ShowsChange host files document source.path ∧
        Downstream document source.path artifact := by
    constructor
    · rintro ⟨round, source, hsource, hchange⟩
      exact ⟨source, List.mem_of_getElem? hsource, hchange⟩
    · rintro ⟨source, hsource, hchange⟩
      obtain ⟨round, hround⟩ := List.mem_iff_getElem?.mp hsource
      exact ⟨round, source, hround, hchange⟩
  by_cases hchange : ShowsChange host files document artifact.path
  · have hpresent : files (pathSegments artifact.path) ≠ none :=
      fun habsent => hchange.2 (snapshot_missing_iff.mpr habsent)
    have hnot := not_overruled hpaths hundisputed hentry (Or.inr hchange)
    rw [Detects, Settled, hreset]
    simp only [hchange, hpresent, not_true_eq_false, true_implies, false_implies, and_true,
      false_and, or_self]
    exact iff_of_false hnot id
  · rw [Detects, Settled, hreset, hinvalidates, snapshot_missing_iff]
    simp only [hchange, not_false_eq_true, true_implies, false_implies, true_and]

end Order

namespace Project

def refreshedStatus (host : Host) (project : Project) (path : String) : Option ArtifactStatus :=
  ((refresh host).exec project).1.toOption.bind fun document =>
    (document.find? fun artifact => artifact.path = path).map Artifact.status

/-- However the entries of the registry are ordered, a refresh leaves every
path with the same status. -/
def OrderIndependent (host : Host) (project : Project) : Prop :=
  ∀ raw raw', project.registry = .document raw → raw.Perm raw' → ∀ path,
    { project with registry := .document raw' }.refreshedStatus host path =
      project.refreshedStatus host path

variable {host : Host} {project : Project} {document : ArtifactDocument}

variable (host) in
private theorem refreshed_paths (files : Files) :
    (rebuildDependents (refreshDocument host files document)).map Artifact.path =
      document.map Artifact.path :=
  (rebuildDependents_sameEdges _).paths.trans (refreshDocument_sameEdges host files document).paths

private theorem refreshedStatus_of_load (hload : project.load = .ok document) (path : String) :
    project.refreshedStatus host path =
      ((rebuildDependents (refreshDocument host project.files document)).find? fun artifact =>
        artifact.path = path).map Artifact.status := by
  rw [refreshedStatus, exec_refresh, hload]
  rfl

private theorem refreshedStatus_of_unregistered (hload : project.load = .ok document)
    {path : String} (hpath : path ∉ document.map Artifact.path) :
    project.refreshedStatus host path = none := by
  rw [refreshedStatus_of_load hload, Option.map_eq_none_iff, List.find?_eq_none]
  intro artifact hartifact heq
  rw [← refreshed_paths host project.files] at hpath
  exact hpath (List.mem_map.mpr ⟨artifact, hartifact, of_decide_eq_true heq⟩)

variable (host) in
private theorem refreshedStatus_of_entry (hload : project.load = .ok document)
    (hpaths : (document.map Artifact.path).Nodup) {position : Nat} {artifact : Artifact}
    (hentry : document[position]? = some artifact) :
    ∃ status, project.refreshedStatus host artifact.path = some status ∧
      (status ≠ .fresh ↔ Detects host project.files document position artifact) ∧
      (status = .missing ↔ project.files (pathSegments artifact.path) = none ∧
        ¬Overruled host project.files document position artifact) := by
  obtain ⟨artifact', hentry', hpath, hfresh, hmissing⟩ := refreshed_status host
    project.files hentry
  rw [snapshot_missing_iff] at hmissing
  refine ⟨artifact'.status, ?_, hfresh, hmissing⟩
  have hfind := find_of_nodup (by rwa [refreshed_paths]) (List.mem_of_getElem? hentry')
  rw [refreshedStatus_of_load hload, ← hpath, hfind, Option.map_some]

private theorem eq_of_decided {status status' : ArtifactStatus}
    (hfresh : status ≠ .fresh ↔ status' ≠ .fresh)
    (hmissing : status = .missing ↔ status' = .missing) : status = status' := by
  cases status
  · cases status'
    · rfl
    · simp at hfresh
    · simp at hfresh
  · cases status'
    · simp at hfresh
    · rfl
    · simp at hmissing
  · cases status'
    · simp at hfresh
    · simp at hmissing
    · rfl

/-- In an undisputed document, refreshed in another order, every path gets the
same status. -/
private theorem refreshedStatus_perm {project' : Project} {document' : ArtifactDocument}
    (hload : project.load = .ok document) (hload' : project'.load = .ok document')
    (hfiles : project'.files = project.files) (hpaths : (document.map Artifact.path).Nodup)
    (hperm : document.Perm document') (hundisputed : Undisputed host project.files document)
    (path : String) : project'.refreshedStatus host path = project.refreshedStatus host path := by
  have hpaths' := (hperm.map Artifact.path).nodup_iff.mp hpaths
  have hundisputed' := (undisputed_perm host project.files hpaths
    hperm).mpr hundisputed
  by_cases hpath : path ∈ document.map Artifact.path
  · obtain ⟨artifact, hartifact, rfl⟩ := List.mem_map.mp hpath
    obtain ⟨position, hentry⟩ := List.mem_iff_getElem?.mp hartifact
    obtain ⟨position', hentry'⟩ := List.mem_iff_getElem?.mp (hperm.mem_iff.mp hartifact)
    obtain ⟨status, hstatus, hfresh, hmissing⟩ := refreshedStatus_of_entry host hload
      hpaths hentry
    obtain ⟨status', hstatus', hfresh', hmissing'⟩ := refreshedStatus_of_entry host
      hload' hpaths' hentry'
    rw [hfiles] at hfresh' hmissing'
    rw [hstatus, hstatus']
    refine congrArg some (eq_of_decided ?_ ?_)
    · rw [hfresh, hfresh', detects_iff_settled hpaths hundisputed hentry,
        detects_iff_settled hpaths' hundisputed' hentry', settled_perm hpaths hperm]
    · rw [hmissing, hmissing', and_iff_left_of_imp fun habsent =>
          not_overruled hpaths hundisputed hentry (Or.inl habsent),
        and_iff_left_of_imp fun habsent =>
          not_overruled hpaths' hundisputed' hentry' (Or.inl habsent)]
  · rw [refreshedStatus_of_unregistered hload hpath, refreshedStatus_of_unregistered hload']
    exact fun h => hpath ((hperm.map Artifact.path).mem_iff.mpr h)

/-- An entry of a registry can be moved to the front and to the end. -/
private theorem exists_moved {artifact : Artifact} (hload : project.load = .ok document)
    (hmember : artifact ∈ document) :
    ∃ raw first last others, project.registry = .document raw ∧ raw.Perm first ∧ raw.Perm last ∧
      document.Perm (artifact :: others) ∧
      validateDocument first = .ok (artifact :: others) ∧
      validateDocument last = .ok (others ++ [artifact]) := by
  unfold load at hload
  split at hload
  · cases hload
    cases hmember
  · cases hload
  · cases hload
  · cases hload
  · cases hload
  · rename_i raw hregistry
    obtain ⟨before, after, rfl⟩ := List.append_of_mem hmember
    rw [validateDocument_eq_ok, List.map_append, List.map_cons, List.map_eq_append_iff] at hload
    obtain ⟨rawBefore, rawRest, rfl, hbefore, hrest⟩ := hload
    obtain ⟨original, rawAfter, rfl, horiginal, hafter⟩ := List.map_eq_cons_iff.mp hrest
    refine ⟨_, original :: (rawBefore ++ rawAfter), rawBefore ++ rawAfter ++ [original],
      before ++ after, hregistry, List.perm_middle, ?_, List.perm_middle, ?_, ?_⟩
    · rw [List.append_assoc]
      exact (List.perm_append_singleton original rawAfter).symm.append_left rawBefore
    · rw [validateDocument_eq_ok]
      simp only [List.map_cons, List.map_append, horiginal, hbefore, hafter]
    · rw [validateDocument_eq_ok]
      simp only [List.map_cons, List.map_append, horiginal, hbefore, hafter, List.map_nil]

/-- An entry with its own say is settled by it when it comes last, and not when
a changed entry above it comes later. -/
private theorem status_of_own {status : ArtifactStatus} {files : Files} {position : Nat}
    {artifact : Artifact} (hpaths : (document.map Artifact.path).Nodup)
    (hentry : document[position]? = some artifact)
    (hown : files (pathSegments artifact.path) = none ∨
      ShowsChange host files document artifact.path)
    (hfresh : status ≠ .fresh ↔ Detects host files document position artifact)
    (hmissing : status = .missing ↔ files (pathSegments artifact.path) = none ∧
      ¬Overruled host files document position artifact) :
    status = .stale ↔ Overruled host files document position artifact := by
  rcases hown with habsent | hchange
  · have hpresent : ¬ShowsChange host files document artifact.path :=
      fun h => h.2 (snapshot_missing_iff.mpr habsent)
    have hdetects : Detects host files document position artifact :=
      ⟨fun h => absurd h.1 hpresent, fun _ => Or.inl (snapshot_missing_iff.mpr habsent)⟩
    have hne := hfresh.mpr hdetects
    rw [and_iff_right habsent] at hmissing
    cases status
    · exact absurd rfl hne
    · simpa using hmissing
    · simpa using hmissing
  · have hpresent : files (pathSegments artifact.path) ≠ none :=
      fun habsent => hchange.2 (snapshot_missing_iff.mpr habsent)
    have hreset : Resets host files document position artifact :=
      ⟨hchange, byPath_of_nodup hpaths hentry⟩
    have hdetects : Detects host files document position artifact ↔
        Overruled host files document position artifact :=
      ⟨fun h => h.1 hreset, fun h => ⟨fun _ => h, fun hnot => absurd hreset hnot⟩⟩
    rw [← hdetects, ← hfresh]
    cases status
    · simp
    · simp
    · exact absurd (hmissing.mp rfl).1 hpresent

/-- A refresh is independent of the order of the entries exactly when the
document is undisputed: no entry that the refresh itself gives a status is
downstream of another entry that has changed. -/
theorem orderIndependent_iff (hload : project.load = .ok document)
    (hpaths : (document.map Artifact.path).Nodup) :
    project.OrderIndependent host ↔ Undisputed host project.files document := by
  constructor
  · intro hindependent artifact hmember hown other hother hne hchange hdownstream
    obtain ⟨raw, first, last, others, hregistry, hfirst, hlast, hperm, hloadFirst, hloadLast⟩ :=
      exists_moved hload hmember
    have hsame := (hindependent raw first hregistry hfirst artifact.path).trans
      (hindependent raw last hregistry hlast artifact.path).symm
    have hend : document.Perm (others ++ [artifact]) :=
      hperm.trans (List.perm_append_singleton artifact others).symm
    have hpathsFirst := (hperm.map Artifact.path).nodup_iff.mp hpaths
    have hpathsLast := (hend.map Artifact.path).nodup_iff.mp hpaths
    have hentryFirst : (artifact :: others)[0]? = some artifact := rfl
    have hentryLast : (others ++ [artifact])[others.length]? = some artifact := by simp
    have hloadFirst' : { project with registry := .document first }.load =
      .ok (artifact :: others) := hloadFirst
    have hloadLast' : { project with registry := .document last }.load =
      .ok (others ++ [artifact]) := hloadLast
    obtain ⟨status, hstatus, hfresh, hmissing⟩ := refreshedStatus_of_entry host
      hloadFirst' hpathsFirst hentryFirst
    obtain ⟨status', hstatus', hfresh', hmissing'⟩ := refreshedStatus_of_entry host
      hloadLast' hpathsLast hentryLast
    rw [hstatus, hstatus', Option.some.injEq] at hsame
    subst hsame
    have hfront := status_of_own hpathsFirst hentryFirst
      (hown.imp_right (showsChange_perm hpaths hperm _).mpr) hfresh hmissing
    have hback := status_of_own hpathsLast hentryLast
      (hown.imp_right (showsChange_perm hpaths hend _).mpr) hfresh' hmissing'
    have hlater : Overruled host project.files (artifact :: others) 0 artifact := by
      rcases List.mem_cons.mp (hperm.mem_iff.mp hother) with rfl | hrest
      · exact absurd rfl hne
      · obtain ⟨round, hround⟩ := List.mem_iff_getElem?.mp hrest
        exact ⟨round + 1, Nat.succ_pos round, other, hround,
          (showsChange_perm hpaths hperm _).mpr hchange,
          (downstream_perm hperm _ _).mpr hdownstream⟩
    obtain ⟨round, hround, source, hsource, -⟩ := hback.mp (hfront.mpr hlater)
    have hbound := (List.getElem?_eq_some_iff.mp hsource).1
    rw [List.length_append, List.length_singleton] at hbound
    omega
  · intro hundisputed raw raw' hregistry hraw path
    have hvalidate : validateDocument raw = .ok document := by
      rw [load, hregistry] at hload
      exact hload
    obtain ⟨document', hvalidate', hperm⟩ := validateDocument_perm hvalidate hraw
    have hload' : { project with registry := .document raw' }.load = .ok document' := hvalidate'
    exact refreshedStatus_perm hload hload' rfl hpaths hperm hundisputed path

end Project

/-- The same registry next to the files it was made from. -/
def Project.planPresent : Project where
  files segments :=
    if segments = ["srs.md"] then some ⟨[97], "2026-01-01T10:00:00Z"⟩
    else if segments = ["plan.md"] then some ⟨[98], "2026-01-01T11:00:00Z"⟩
    else none
  registry := .document planBeforeSrs
  graph := some (buildGraph planBeforeSrs)
  drawn := 2

theorem Project.orderIndependent_present : Project.planPresent.OrderIndependent Host.demo := by
  have hload : planPresent.load = .ok planBeforeSrs := rfl
  refine (orderIndependent_iff hload (by decide)).mpr ?_
  have hunchanged : ∀ other ∈ planBeforeSrs,
      ¬ShowsChange Host.demo planPresent.files planBeforeSrs other.path := by
    decide
  intro artifact _ _ other hother _ hchange
  exact absurd hchange (hunchanged other hother)

/-- Listed after `srs.md` instead, it is declared missing. -/
theorem Project.not_orderIndependent : ¬ Project.planDeleted.OrderIndependent Host.demo := by
  intro hindependent
  have hsame := hindependent planBeforeSrs planBeforeSrs.reverse rfl
    (List.reverse_perm planBeforeSrs).symm "plan.md"
  exact absurd hsame (by decide)

end ForgeOS
