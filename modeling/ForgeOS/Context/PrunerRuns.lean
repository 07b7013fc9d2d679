import ForgeOS.Context.Selection

/-!
Long-lived pruners. The caches answer for a file as long as its modification
time is the one that was noted; where different contents never have the same
time, every selection comes out as it would with empty caches. And when a
selection returns: the artifacts it takes must decode, or be in the caches.
-/

namespace ForgeOS

open Library

/-- A pruner that has just been made. -/
def newPruner (project : PrunedProject) : Pruning := ⟨project, [], []⟩

/-- What happens while a pruner exists. Between its calls a project may change
in any way. -/
inductive PrunerAction where
  | select (stageId : String) (tokenBudget : ℤ) (now : String)
  | clearCache
  | edit (project : PrunedProject)

namespace Pruning

def clearCache (pruning : Pruning) : Pruning :=
  { pruning with mtimeCache := [], contentCache := [] }

def perform (host : PrunerHost) (pruning : Pruning) : PrunerAction → Pruning
  | .select stageId tokenBudget now =>
      ((selectContext host stageId tokenBudget now).exec pruning).2
  | .clearCache => pruning.clearCache
  | .edit project => { pruning with project := project }

end Pruning

/-- The files there are at some time of a run. -/
def filesDuring (start : PrunedProject) (actions : List PrunerAction) : List ArtifactFiles :=
  start.files :: actions.filterMap fun
    | .edit project => some project.files
    | _ => none

/-- Different contents of one path never carry the same modification time. -/
def TimesTell (seen : List ArtifactFiles) : Prop :=
  ∀ files ∈ seen, ∀ files' ∈ seen, ∀ segments file file',
    files segments = some file → files' segments = some file' → file.mtime = file'.mtime →
      file.content = file'.content

/-! ### Reading one artifact -/

namespace Pruning

/-- The caches with what has been read of a file. -/
def remember (pruning : Pruning) (path : String) (mtime : ℚ) (content : String) : Pruning :=
  { pruning with
    mtimeCache := pruning.mtimeCache.set path mtime
    contentCache := pruning.contentCache.set path content }

/-- The content noted for a file, if it has not changed. -/
def cached? (pruning : Pruning) (path : String) (file : ArtifactFile) : Option String :=
  if pruning.mtimeCache.get? path = some file.mtime then pruning.contentCache.get? path else none

theorem cached?_remember (pruning : Pruning) (path : String) (mtime : ℚ) (content other : String)
    (file : ArtifactFile) : (pruning.remember path mtime content).cached? other file =
      if path = other then (if mtime = file.mtime then some content else none)
      else pruning.cached? other file := by
  unfold cached? remember
  dsimp only
  rw [Dict.get?_set, Dict.get?_set]
  by_cases hpath : path = other
  · simp only [if_pos hpath, Option.some.injEq]
  · simp only [if_neg hpath]

end Pruning

/-- All that reading an artifact can come to. -/
theorem readArtifact_cases (relativePath : String) (pruning : Pruning) :
    (pruning.project.files (pathSegments relativePath) = none ∧
      (readArtifact relativePath).exec pruning = (.error
        (.pruner s!"Could not stat selected artifact `{relativePath}`."), pruning)) ∨
    ∃ file, pruning.project.files (pathSegments relativePath) = some file ∧
      ((∃ content, pruning.cached? relativePath file = some content ∧
          (readArtifact relativePath).exec pruning = (.ok content, pruning)) ∨
        pruning.cached? relativePath file = none ∧ readText file.content = none ∧
          (readArtifact relativePath).exec pruning = (.error .unicodeDecode, pruning) ∨
        ∃ content, pruning.cached? relativePath file = none ∧
          readText file.content = some content ∧ (readArtifact relativePath).exec pruning =
            (.ok content, pruning.remember relativePath file.mtime content)) := by
  unfold readArtifact
  rw [Effect.exec_bind_ok _ (Effect.exec_get pruning)]
  cases hfile : pruning.project.files (pathSegments relativePath) with
  | none => exact .inl ⟨rfl, rfl⟩
  | some file =>
      refine .inr ⟨file, rfl, ?_⟩
      dsimp only
      rw [← Pruning.cached?]
      cases hcached : pruning.cached? relativePath file with
      | some content => exact .inl ⟨content, rfl, rfl⟩
      | none =>
          cases hread : readText file.content with
          | none => exact .inr (.inl ⟨rfl, rfl, rfl⟩)
          | some content => exact .inr (.inr ⟨content, rfl, rfl, rfl⟩)

/-! ### What the caches know -/

/-- What is noted of a path has been read of a file that was there. -/
structure Pruning.Known (seen : List ArtifactFiles) (pruning : Pruning) : Prop where
  files : pruning.project.files ∈ seen
  caches : ∀ path file content, pruning.cached? path file = some content →
    ∃ files ∈ seen, ∃ known, files (pathSegments path) = some known ∧
      known.mtime = file.mtime ∧ readText known.content = some content

/-- What reading an artifact comes to without the caches. -/
def readOutcome (project : PrunedProject) (relativePath : String) : Except PrunerError String :=
  match project.files (pathSegments relativePath) with
  | none => .error (.pruner s!"Could not stat selected artifact `{relativePath}`.")
  | some file =>
      match readText file.content with
      | none => .error .unicodeDecode
      | some content => .ok content

section Known

variable {host : PrunerHost} {seen : List ArtifactFiles} {pruning pruning' : Pruning}

theorem known_newPruner {project : PrunedProject} (h : project.files ∈ seen) :
    (newPruner project).Known seen where
  files := h
  caches := nofun

theorem Pruning.Known.remember (h : pruning.Known seen) {path : String} {file : ArtifactFile}
    {content : String} (hfile : pruning.project.files (pathSegments path) = some file)
    (hread : readText file.content = some content) :
    (pruning.remember path file.mtime content).Known seen where
  files := h.files
  caches := by
    intro other later noted hcached
    rw [Pruning.cached?_remember] at hcached
    split at hcached
    · rename_i hpath
      split at hcached
      · rename_i hmtime
        cases hcached
        exact ⟨_, h.files, file, hpath ▸ hfile, hmtime, hread⟩
      · cases hcached
    · exact h.caches other later noted hcached

/-- With times that tell, reading over the caches comes to the same as without
them. -/
theorem exec_readArtifact (htimes : TimesTell seen) (h : pruning.Known seen)
    (relativePath : String) :
    ((readArtifact relativePath).exec pruning).1 = readOutcome pruning.project relativePath ∧
      ((readArtifact relativePath).exec pruning).2.project = pruning.project ∧
      ((readArtifact relativePath).exec pruning).2.Known seen := by
  unfold readOutcome
  rcases readArtifact_cases relativePath pruning with ⟨hnone, hexec⟩ | ⟨file, hfile, hcases⟩
  · rw [hexec, hnone]
    exact ⟨rfl, rfl, h⟩
  · rw [hfile]
    dsimp only
    rcases hcases with ⟨content, hcached, hexec⟩ | ⟨-, hread, hexec⟩ | ⟨content, -, hread, hexec⟩
    · obtain ⟨files, hfiles, known, hknown, hmtime, hread⟩ :=
        h.caches relativePath file content hcached
      have hcontent := htimes _ hfiles _ h.files _ _ _ hknown hfile hmtime
      rw [hcontent] at hread
      rw [hexec, hread]
      exact ⟨rfl, rfl, h⟩
    · rw [hexec, hread]
      exact ⟨rfl, rfl, h⟩
    · rw [hexec, hread]
      exact ⟨rfl, rfl, h.remember hfile hread⟩

theorem exec_selectItem (htimes : TimesTell seen) (stageId : String)
    (priorities : Dict String ℕ) (project : PrunedProject) (artifact : Artifact)
    (pruning : Pruning) (h : pruning.project = project ∧ pruning.Known seen) :
    ((selectItem stageId priorities artifact).exec pruning).1 =
        (readOutcome project artifact.path).map (selectedItem stageId priorities artifact) ∧
      (((selectItem stageId priorities artifact).exec pruning).2.project = project ∧
        ((selectItem stageId priorities artifact).exec pruning).2.Known seen) := by
  obtain ⟨rfl, hknown⟩ := h
  obtain ⟨houtcome, hproject, hafter⟩ := exec_readArtifact htimes hknown artifact.path
  unfold selectItem
  rw [Effect.exec_bind, ← houtcome]
  rcases hread : (readArtifact artifact.path).exec pruning with ⟨error | content, read⟩ <;>
    rw [hread] at hproject hafter
  · exact ⟨rfl, hproject, hafter⟩
  · exact ⟨rfl, hproject, hafter⟩

theorem Pruning.Known.appendAudit (h : pruning.Known seen) (selection : ContextSelection) :
    (pruning.appendAudit selection).Known seen := ⟨h.files, h.caches⟩

/-- Two pruners of one project select the same. -/
theorem selectContext_agrees (htimes : TimesTell seen) (h : pruning.Known seen)
    (h' : pruning'.Known seen) (hproject : pruning.project = pruning'.project) (stageId : String)
    (tokenBudget : ℤ) (now : String) :
    ((selectContext host stageId tokenBudget now).exec pruning).1 =
        ((selectContext host stageId tokenBudget now).exec pruning').1 ∧
      ((selectContext host stageId tokenBudget now).exec pruning).2.Known seen := by
  by_cases hbudget : 1 ≤ tokenBudget
  · cases hload : (pruning.project.inRegistry host).load with
    | error error =>
        have hload' : (pruning'.project.inRegistry host).load = .error error := hproject ▸ hload
        rw [exec_selectContext_unloaded host hbudget stageId now hload,
          exec_selectContext_unloaded host hbudget stageId now hload']
        exact ⟨rfl, h⟩
    | ok document =>
        have hload' : (pruning'.project.inRegistry host).load = .ok document := hproject ▸ hload
        have hafter : (pruning.afterRefresh host document).Known seen := ⟨h.files, h.caches⟩
        have hafter' : (pruning'.afterRefresh host document).Known seen := ⟨h'.files, h'.caches⟩
        have hsame : (pruning'.afterRefresh host document).project =
            (pruning.afterRefresh host document).project := by
          unfold Pruning.afterRefresh
          rw [hproject]
        rw [exec_selectContext host now hbudget hload, exec_selectContext host now hbudget hload',
          ← hproject]
        generalize divided stageId tokenBudget (pruning.project.refreshed host document) = packed
        generalize spreadActivationPriorities stageId _ = priorities
        obtain ⟨hread, hreadProject, hreadKnown⟩ := Effect.exec_mapM_outcome
          (exec_selectItem htimes stageId priorities (pruning.afterRefresh host document).project)
          packed.1 ⟨rfl, hafter⟩
        obtain ⟨hread', hreadProject', -⟩ := Effect.exec_mapM_outcome
          (exec_selectItem htimes stageId priorities (pruning.afterRefresh host document).project)
          packed.1 ⟨hsame, hafter'⟩
        rw [← hread'] at hread
        rw [Effect.exec_bind, Effect.exec_bind]
        rcases hexec : (packed.1.mapM (selectItem stageId priorities)).exec
          (pruning.afterRefresh host document) with ⟨outcome, read⟩
        rcases hexec' : (packed.1.mapM (selectItem stageId priorities)).exec
          (pruning'.afterRefresh host document) with ⟨outcome', read'⟩
        rw [hexec] at hread hreadProject hreadKnown
        rw [hexec'] at hread hreadProject'
        have hdrawn : read.project.drawn = read'.project.drawn :=
          congrArg PrunedProject.drawn (hreadProject.trans hreadProject'.symm)
        obtain rfl : outcome = outcome' := hread
        cases outcome with
        | error error => exact ⟨rfl, hreadKnown⟩
        | ok items =>
            dsimp only
            rw [exec_concludeSelection, exec_concludeSelection]
            refine ⟨?_, hreadKnown.appendAudit _⟩
            dsimp only [Pruning.conclusion]
            rw [hdrawn]
  · rw [exec_selectContext_refused host hbudget, exec_selectContext_refused host hbudget]
    exact ⟨rfl, h⟩

theorem Pruning.Known.perform (htimes : TimesTell seen) (h : pruning.Known seen)
    {action : PrunerAction}
    (hedit : ∀ project, action = .edit project → project.files ∈ seen) :
    (pruning.perform host action).Known seen := by
  cases action with
  | select stageId tokenBudget now =>
      exact (selectContext_agrees htimes h h rfl stageId tokenBudget now).2
  | clearCache => exact ⟨h.files, nofun⟩
  | edit project => exact ⟨hedit project rfl, h.caches⟩

end Known

theorem mem_filesDuring {start project : PrunedProject} {actions : List PrunerAction}
    (h : .edit project ∈ actions) : project.files ∈ filesDuring start actions :=
  List.mem_cons_of_mem _ (List.mem_filterMap.mpr ⟨.edit project, h, rfl⟩)

/-- In every run of a pruner over a project that changes, each selection comes
out as that of a new pruner would at its moment. What is cached was read under
the modification time that the file still has. -/
theorem selectContext_uncached (host : PrunerHost) (start : PrunedProject)
    (actions : List PrunerAction) (htimes : TimesTell (filesDuring start actions))
    (before after : List PrunerAction) (stageId : String) (tokenBudget : ℤ) (now : String)
    (hactions : actions = before ++ .select stageId tokenBudget now :: after) :
    ((selectContext host stageId tokenBudget now).exec
        (run (Pruning.perform host) (newPruner start) before)).1 =
      ((selectContext host stageId tokenBudget now).exec
        (newPruner (run (Pruning.perform host) (newPruner start) before).project)).1 := by
  have hknown : (run (Pruning.perform host) (newPruner start) before).Known
      (filesDuring start actions) := by
    refine run_invariant (known_newPruner List.mem_cons_self) ?_
    intro pruning action haction hpruning
    refine hpruning.perform htimes ?_
    rintro project rfl
    apply mem_filesDuring
    rw [hactions]
    exact List.mem_append_left _ haction
  exact (selectContext_agrees htimes hknown (known_newPruner hknown.files) rfl stageId tokenBudget
    now).1

/-- The project of two artifacts, with another `plan.md` in it. -/
def PrunedProject.withPlan (plan : Option ArtifactFile) : PrunedProject :=
  { Pruning.demo.project with
    files := fun segments =>
      if segments = ["plan.md"] then plan else Pruning.demo.project.files segments }

/-- `plan.md` is selected, deleted, and put back with another content. -/
def planReplaced : List PrunerAction := [
  .select "plan" 10 "2026-01-01T10:30:00Z",
  .edit (.withPlan none),
  .edit (.withPlan (some ⟨[97], 1767265200⟩))]

theorem timesTell_planReplaced (stageId : String) (tokenBudget : ℤ) (now : String) :
    TimesTell (filesDuring Pruning.demo.project
      (planReplaced ++ .select stageId tokenBudget now :: [])) := by
  intro files hfiles files' hfiles' segments file file' h h' hmtime
  simp only [filesDuring, planReplaced, List.cons_append, List.nil_append, List.filterMap_cons,
    List.filterMap_nil, List.mem_cons, List.not_mem_nil, or_false] at hfiles hfiles'
  rcases hfiles with rfl | rfl | rfl <;> rcases hfiles' with rfl | rfl | rfl <;>
    simp only [PrunedProject.withPlan, Pruning.demo] at h h' <;> grind

theorem selectContext_uncached_planReplaced :
    ((selectContext PrunerHost.demo "plan" 10 "2026-01-01T11:30:00Z").exec
        (run (Pruning.perform PrunerHost.demo) (newPruner Pruning.demo.project)
          planReplaced)).1 =
      ((selectContext PrunerHost.demo "plan" 10 "2026-01-01T11:30:00Z").exec
        (newPruner (run (Pruning.perform PrunerHost.demo) (newPruner Pruning.demo.project)
          planReplaced).project)).1 :=
  selectContext_uncached PrunerHost.demo Pruning.demo.project _
    (timesTell_planReplaced "plan" 10 "2026-01-01T11:30:00Z") planReplaced [] "plan" 10
    "2026-01-01T11:30:00Z" rfl

/-! ### When a selection returns -/

/-- The artifact has a file whose bytes decode, or whose content is cached. -/
def Pruning.Legible (pruning : Pruning) (path : String) : Prop :=
  ∃ file, pruning.project.files (pathSegments path) = some file ∧
    ((decodeUtf8 file.content).isSome ∨ (pruning.cached? path file).isSome)

section Legible

variable {host : PrunerHost} {pruning pruning' : Pruning}

theorem readText_isSome (content : List UInt8) :
    (readText content).isSome = (decodeUtf8 content).isSome := Option.isSome_map

theorem readArtifact_isOk_iff (path : String) :
    ((readArtifact path).exec pruning).1.isOk = true ↔ pruning.Legible path := by
  unfold Pruning.Legible
  rcases readArtifact_cases path pruning with ⟨hnone, hexec⟩ | ⟨file, hfile, hcases⟩
  · rw [hexec, hnone]
    exact iff_of_false nofun nofun
  · simp only [hfile, Option.some.injEq, exists_eq_left', ← readText_isSome]
    rcases hcases with ⟨content, hcached, hexec⟩ | ⟨hcached, hread, hexec⟩ |
      ⟨content, -, hread, hexec⟩
    · rw [hexec, hcached]
      exact iff_of_true rfl (.inr rfl)
    · rw [hexec, hcached, hread]
      exact iff_of_false nofun (by simp)
    · rw [hexec, hread]
      exact iff_of_true rfl (.inl rfl)

/-- Reading one artifact makes no other one more or less legible. -/
theorem legible_of_read {path content : String}
    (h : (readArtifact path).exec pruning = (.ok content, pruning')) (other : String) :
    pruning'.Legible other ↔ pruning.Legible other := by
  rcases readArtifact_cases path pruning with ⟨-, hexec⟩ | ⟨file, hfile, hcases⟩
  · cases h.symm.trans hexec
  · rcases hcases with ⟨known, -, hexec⟩ | ⟨-, -, hexec⟩ | ⟨text, -, hread, hexec⟩
    · cases h.symm.trans hexec
      rfl
    · cases h.symm.trans hexec
    · cases h.symm.trans hexec
      by_cases hother : path = other
      · -- the file that has been read decodes
        subst hother
        have hdecodes : (decodeUtf8 file.content).isSome := by
          rw [← readText_isSome, hread]
          rfl
        exact iff_of_true ⟨file, hfile, .inl hdecodes⟩ ⟨file, hfile, .inl hdecodes⟩
      · unfold Pruning.Legible
        simp only [Pruning.cached?_remember, if_neg hother]
        rfl

theorem selectItem_isOk_iff (stageId : String) (priorities : Dict String ℕ) (pruning : Pruning)
    (artifact : Artifact) :
    ((selectItem stageId priorities artifact).exec pruning).1.isOk = true ↔
      pruning.Legible artifact.path := by
  rw [← readArtifact_isOk_iff, selectItem, Effect.exec_bind]
  rcases (readArtifact artifact.path).exec pruning with ⟨error | content, read⟩
  · rfl
  · rfl

theorem legible_of_selected {stageId : String} {priorities : Dict String ℕ} {artifact : Artifact}
    {item : SelectedContextItem}
    (h : (selectItem stageId priorities artifact).exec pruning = (.ok item, pruning'))
    (other : Artifact) : pruning'.Legible other.path ↔ pruning.Legible other.path := by
  obtain ⟨content, read, hread, hpure⟩ := Effect.ok_of_exec_bind h
  cases hpure
  exact legible_of_read hread other.path

theorem mapM_selectItem_isOk_iff (stageId : String) (priorities : Dict String ℕ)
    (artifacts : List Artifact) (pruning : Pruning) :
    ((artifacts.mapM (selectItem stageId priorities)).exec pruning).1.isOk = true ↔
      ∀ artifact ∈ artifacts, pruning.Legible artifact.path := by
  let P (pruning : Pruning) (artifact : Artifact) : Prop := pruning.Legible artifact.path
  have hkept (before : Pruning) (artifact : Artifact) (item : SelectedContextItem)
      (read : Pruning) (h : (selectItem stageId priorities artifact).exec before =
        (.ok item, read)) (other : Artifact) : P read other ↔ P before other :=
    legible_of_selected h other
  exact Effect.exec_mapM_isOk_iff (P := P) (selectItem_isOk_iff stageId priorities) hkept artifacts
    pruning

theorem present_of_fresh {project : PrunedProject} {document : ArtifactDocument}
    {artifact : Artifact} (h : artifact ∈ project.refreshed host document)
    (hfresh : artifact.status = .fresh) : project.files (pathSegments artifact.path) ≠ none := by
  intro hnone
  have hmissing : (snapshot host.toHost (project.inRegistry host).files artifact.path).status =
      .missing := by
    rw [snapshot_missing_iff]
    exact congrArg (Option.map _) hnone
  obtain ⟨position, hentry⟩ := List.mem_iff_getElem?.mp h
  obtain ⟨original, horiginal⟩ := entry_of_refreshed _ _ hentry
  obtain ⟨same, hsame, hpath, hstatus⟩ := refreshed_entry host.toHost
    (project.inRegistry host).files horiginal
  cases hsame.symm.trans hentry
  rw [hpath] at hmissing
  refine hstatus.mpr ⟨?_, fun _ => .inl hmissing⟩ hfresh
  intro hreset
  exact absurd hmissing hreset.1.2

end Legible

/-- With a budget, a selection returns exactly if the registry loads and the
artifacts it takes decode, those excepted whose content is cached. The estimate
of an artifact decodes with replacements, but its content is read strictly. -/
theorem selectContext_returns_iff (host : PrunerHost) (stageId : String) (tokenBudget : ℤ)
    (now : String) (pruning : Pruning) (hbudget : 1 ≤ tokenBudget) :
    ((selectContext host stageId tokenBudget now).exec pruning).1.isOk = true ↔
      ∃ document, (pruning.project.inRegistry host).load = .ok document ∧
        ∀ artifact ∈ (divided stageId tokenBudget (pruning.project.refreshed host document)).1,
          ∀ file, pruning.project.files (pathSegments artifact.path) = some file →
            (decodeUtf8 file.content).isSome ∨ (pruning.cached? artifact.path file).isSome := by
  cases hload : (pruning.project.inRegistry host).load with
  | error error =>
      rw [exec_selectContext_unloaded host hbudget stageId now hload]
      exact iff_of_false nofun nofun
  | ok document =>
      simp only [Except.ok.injEq, exists_eq_left']
      have hconclude : ((selectContext host stageId tokenBudget now).exec pruning).1.isOk = true ↔
          ∀ artifact ∈ (divided stageId tokenBudget
            (pruning.project.refreshed host document)).1, pruning.Legible artifact.path := by
        have hitems := mapM_selectItem_isOk_iff stageId (spreadActivationPriorities stageId
            (registeredArtifacts (pruning.project.refreshed host document)))
          (divided stageId tokenBudget (pruning.project.refreshed host document)).1
          (pruning.afterRefresh host document)
        refine Iff.trans ?_ hitems
        rw [exec_selectContext host now hbudget hload, Effect.exec_bind]
        rcases ((divided stageId tokenBudget (pruning.project.refreshed host document)).1.mapM
          (selectItem stageId _)).exec (pruning.afterRefresh host document) with
          ⟨error | items, read⟩
        · rfl
        · dsimp only
          rw [exec_concludeSelection]
          exact iff_of_true rfl rfl
      rw [hconclude]
      refine forall₂_congr fun artifact htaken => ?_
      have hpacked := packed_divided stageId hbudget (pruning.project.refreshed host document)
      have hcandidate := (mem_selectionCandidates _ _).mp (hpacked.sublist.subset htaken)
      have hpresent := present_of_fresh (mem_of_registered hcandidate.1)
        (hpacked.admitted artifact htaken)
      obtain ⟨file, hfile⟩ := Option.ne_none_iff_exists'.mp hpresent
      simp only [Pruning.Legible, hfile, Option.some.injEq, exists_eq_left', forall_eq']

/-! ### The selection of a stage run -/

/-- What `run_stage_agent` raises of its selection. -/
inductive StageSelectionError where
  /-- `AgentExecutionError` -/
  | agentExecution (message : String)
  | uncaught (error : PrunerError)
deriving DecidableEq, Repr

/-- `except ContextPrunerError as exc: raise AgentExecutionError(str(exc))` -/
def StageSelectionError.of : PrunerError → StageSelectionError
  | .pruner message => .agentExecution message
  | error => .uncaught error

/-- The selection `run_stage_agent` makes, with a pruner of its own. -/
def selectForStage (host : PrunerHost) (stageId now : String) :
    Effect PrunedProject StageSelectionError ContextSelection :=
  ((selectContext host stageId 2000 now).mapError StageSelectionError.of).within newPruner
    fun pruning _ => pruning.project

/-- A stage run gets its context exactly if the registry loads and the artifacts
that are taken decode. -/
theorem selectForStage_returns_iff (host : PrunerHost) (stageId now : String)
    (project : PrunedProject) :
    ((selectForStage host stageId now).exec project).1.isOk = true ↔
      ∃ document, (project.inRegistry host).load = .ok document ∧
        ∀ artifact ∈ (divided stageId 2000 (project.refreshed host document)).1,
          ∀ file, project.files (pathSegments artifact.path) = some file →
            (decodeUtf8 file.content).isSome := by
  have hreturns := selectContext_returns_iff host stageId 2000 now (newPruner project) (by decide)
  have hempty (path : String) (file : ArtifactFile) :
      ((newPruner project).cached? path file).isSome = false := rfl
  simp only [hempty, Bool.false_eq_true, or_false] at hreturns
  rw [selectForStage, Effect.exec_within, Effect.exec_mapError]
  refine Iff.trans ?_ hreturns
  cases ((selectContext host stageId 2000 now).exec (newPruner project)).1 with
  | error error => rfl
  | ok selection => rfl

/-! ### Runs on fixed projects -/

/-- Python's library on a file of the single byte `0xff`. -/
def PrunerHost.binary : PrunerHost where
  sha256 := fun _ => "a8100ae6aa1940d0b663bb31cd466142ebbdbd5187131b92d93818987832eb89"
  decode := fun _ => "\ufffd"
  uuid4 := Host.demo.uuid4
  lookError := fun _ => none
  isoformat := PrunerHost.demo.isoformat

/-- The output of an earlier stage that is no text. -/
def PrunedProject.binary : PrunedProject where
  files := fun segments => if segments = ["logo.bin"] then some ⟨[255], 1767261600⟩ else none
  registry := .document [
    { id := "artifact-1", path := "logo.bin", stageId := some "product", status := .fresh
      dependencies := [], dependents := []
      contentHash := some "a8100ae6aa1940d0b663bb31cd466142ebbdbd5187131b92d93818987832eb89"
      modifiedAt := none, tokenEstimate := 1 }]
  graph := none
  drawn := 1
  selections := []

/-- It takes part in the selection and raises, and nothing turns that into an
error of the run. -/
theorem selectForStage_binary :
    ¬((selectContext PrunerHost.binary "build" 2000 "2026-01-01T11:00:00Z").exec
        (newPruner PrunedProject.binary)).1.isOk = true ∧
      ((selectForStage PrunerHost.binary "build" "2026-01-01T11:00:00Z").exec
        PrunedProject.binary).1 = .error (.uncaught .unicodeDecode) := by
  decide

theorem selectContext_returns_demo :
    ((selectContext PrunerHost.demo "plan" 1 "2026-01-01T11:00:00Z").exec
        Pruning.demo).1.isOk = true ↔
      ∃ document, (Pruning.demo.project.inRegistry PrunerHost.demo).load = .ok document ∧
        ∀ artifact ∈
            (divided "plan" 1 (Pruning.demo.project.refreshed PrunerHost.demo document)).1,
          ∀ file, Pruning.demo.project.files (pathSegments artifact.path) = some file →
            (decodeUtf8 file.content).isSome ∨
              (Pruning.demo.cached? artifact.path file).isSome :=
  selectContext_returns_iff PrunerHost.demo "plan" 1 "2026-01-01T11:00:00Z" Pruning.demo
    (by decide)

end ForgeOS
