import ForgeOS.Context.Pruner
import ForgeOS.Context.Statuses
import ForgeOS.Library.Packing
import ForgeOS.Text
import Mathlib.Data.Rat.Defs
import Mathlib.Data.String.Basic

/-!
The selection of context within a token budget: a refresh of the registry, the
candidates in the order of their priorities, the packing, and the artifacts
read from their files or from the caches of the pruner.
-/

namespace ForgeOS

open Library

/-- A regular file. A file whose bytes can be read for the registry can be read
as text, as far as the system is concerned. -/
structure ArtifactFile where
  content : List UInt8
  /-- `st_mtime`. -/
  mtime : ℚ
deriving DecidableEq

/-- The regular files under the project root, by the segments of their path. -/
abbrev ArtifactFiles := List String → Option ArtifactFile

/-- One artifact selected for agent context. -/
structure SelectedContextItem where
  artifactId : String
  path : String
  priority : ℕ
  tokenEstimate : ℕ
  reason : String
  content : String
deriving DecidableEq, Repr

structure OmittedArtifact where
  path : String
  reason : String
  tokenEstimate : ℕ
deriving DecidableEq, Repr

/-- Deterministic context pruning result. -/
structure ContextSelection where
  schemaVersion : String := "0.1"
  selectionId : String
  stageId : String
  tokenBudget : ℤ
  totalTokens : ℕ
  selected : List SelectedContextItem
  omitted : List OmittedArtifact
  createdAt : String
deriving DecidableEq, Repr

/-- A project as the pruner finds it; `selections` is its audit log. -/
structure PrunedProject where
  files : ArtifactFiles
  registry : RegistryFile
  graph : Option ArtifactGraph
  drawn : Nat
  selections : List ContextSelection

/-- A pruner at work on a project, with its two caches. -/
structure Pruning where
  project : PrunedProject
  mtimeCache : Dict String ℚ
  contentCache : Dict String String

/-- What the pruner takes from Python's library. -/
structure PrunerHost extends Host where
  /-- `utc_now_from_mtime`. -/
  isoformat : ℚ → String

inductive PrunerError where
  /-- `ContextPrunerError` -/
  | pruner (message : String)
  /-- What the registry raises. -/
  | registry (error : RegistryError)
  /-- The `UnicodeDecodeError` of `read_text`. -/
  | unicodeDecode
deriving DecidableEq, Repr

/-- A computation of the pruner. -/
abbrev Pruner (α : Type) := Effect Pruning PrunerError α

def ArtifactStatus.text : ArtifactStatus → String
  | .fresh => "fresh"
  | .stale => "stale"
  | .missing => "missing"

section Select

variable (host : PrunerHost)

def PrunedProject.inRegistry (project : PrunedProject) : Project where
  files segments := (project.files segments).map fun file =>
    ⟨file.content, host.isoformat file.mtime⟩
  registry := project.registry
  graph := project.graph
  drawn := project.drawn

/-- `self.registry.refresh()`. -/
def refreshRegistry : Pruner ArtifactDocument :=
  ((refresh host.toHost).mapError PrunerError.registry).within
    (fun pruning => pruning.project.inRegistry host)
    fun project pruning => { pruning with project := { pruning.project with
      registry := project.registry
      graph := project.graph
      drawn := project.drawn } }

def readArtifact (relativePath : String) : Pruner String := do
  let pruning ← get
  match pruning.project.files (pathSegments relativePath) with
  | none => throw (.pruner s!"Could not stat selected artifact `{relativePath}`.")
  | some file =>
      -- Cached content is used if the file has not changed
      let cached := if pruning.mtimeCache.get? relativePath = some file.mtime then
          pruning.contentCache.get? relativePath
        else none
      match cached with
      | some content => return content
      | none =>
          match readText file.content with
          | none => throw .unicodeDecode
          | some content =>
              set { pruning with
                mtimeCache := pruning.mtimeCache.set relativePath file.mtime
                contentCache := pruning.contentCache.set relativePath content }
              return content

/-- `_reason` -/
def selectionReason (stageId : String) (artifact : Artifact) (priority : ℕ) : String :=
  if artifact.stageId = some stageId then "stage_artifact"
  else if priority > 0 then "dependency_traversal"
  else "fallback_artifact"

/-- `priorities[artifact.path]`, of a candidate. -/
def priorityOf (priorities : Dict String ℕ) (artifact : Artifact) : ℕ :=
  (priorities.get? artifact.path).getD 0

/-- The order of the candidates: `(priorities[artifact.path], artifact.path)`. -/
def listedBefore (priorities : Dict String ℕ) (a b : Artifact) : Prop :=
  priorityOf priorities a < priorityOf priorities b ∨
    priorityOf priorities a = priorityOf priorities b ∧ a.path ≤ b.path

instance (priorities : Dict String ℕ) : DecidableRel (listedBefore priorities) := fun _ _ =>
  inferInstanceAs (Decidable (_ ∨ _))

/-- `artifacts.values()` -/
def registeredArtifacts (document : ArtifactDocument) : List Artifact :=
  (artifactTable document).map Prod.snd

/-- The candidates, in their order. -/
def selectionCandidates (priorities : Dict String ℕ) (artifacts : List Artifact) :
    List Artifact :=
  (artifacts.filter fun artifact => (priorities.get? artifact.path).isSome).insertionSort
    (listedBefore priorities)

def selectedItem (stageId : String) (priorities : Dict String ℕ) (artifact : Artifact)
    (content : String) : SelectedContextItem where
  artifactId := artifact.id
  path := artifact.path
  priority := priorityOf priorities artifact
  tokenEstimate := artifact.tokenEstimate
  reason := selectionReason stageId artifact (priorityOf priorities artifact)
  content := content

def selectItem (stageId : String) (priorities : Dict String ℕ) (artifact : Artifact) :
    Pruner SelectedContextItem := do
  let content ← readArtifact artifact.path
  return selectedItem stageId priorities artifact content

/-- The local variables of the loop over the candidates. -/
structure SelectionLoop where
  totalTokens : ℕ := 0
  selected : List SelectedContextItem := []
  omitted : List OmittedArtifact := []

/-- The body of the loop over the candidates. -/
def considerArtifact (stageId : String) (tokenBudget : ℤ) (priorities : Dict String ℕ)
    (loop : SelectionLoop) (artifact : Artifact) : Pruner SelectionLoop := do
  if artifact.status ≠ .fresh then
    return { loop with omitted := loop.omitted ++ [{
      path := artifact.path
      reason := "artifact_status_" ++ artifact.status.text
      tokenEstimate := artifact.tokenEstimate }] }
  else if (loop.totalTokens + artifact.tokenEstimate : ℤ) > tokenBudget then
    return { loop with omitted := loop.omitted ++ [{
      path := artifact.path
      reason := "token_budget_exceeded"
      tokenEstimate := artifact.tokenEstimate }] }
  else
    let item ← selectItem stageId priorities artifact
    return { loop with
      totalTokens := loop.totalTokens + artifact.tokenEstimate
      selected := loop.selected ++ [item] }

/-- The end of `select`: the selection is made and appended to the audit log. -/
def concludeSelection (stageId : String) (tokenBudget : ℤ) (now : String) (loop : SelectionLoop) :
    Pruner ContextSelection := do
  let drawn := (← get).project.drawn
  let selection : ContextSelection := {
    selectionId := "context-" ++ host.uuid4 drawn
    stageId := stageId
    tokenBudget := tokenBudget
    totalTokens := loop.totalTokens
    selected := loop.selected
    omitted := loop.omitted
    createdAt := now }
  modify fun pruning => { pruning with project := { pruning.project with
    drawn := drawn + 1
    selections := pruning.project.selections ++ [selection] } }
  return selection

/-- `select`; `now` is the time it returns at. -/
def selectContext (stageId : String) (tokenBudget : ℤ) (now : String) :
    Pruner ContextSelection := do
  if tokenBudget < 1 then
    throw (.pruner "Context token budget must be positive.")
  let document ← refreshRegistry host
  let artifacts := registeredArtifacts document
  let priorities := spreadActivationPriorities stageId artifacts
  let loop ← (selectionCandidates priorities artifacts).foldlM
    (considerArtifact stageId tokenBudget priorities) {}
  concludeSelection host stageId tokenBudget now loop

end Select

/-! ### The loop as a packing -/

/-- Why an artifact has been left out. -/
def omission (artifact : Artifact) : OmittedArtifact where
  path := artifact.path
  reason := if artifact.status ≠ .fresh then "artifact_status_" ++ artifact.status.text
    else "token_budget_exceeded"
  tokenEstimate := artifact.tokenEstimate

/-- The candidates that are taken and those that are left out, going by their
status and estimates alone. -/
def packCandidates (tokenBudget : ℤ) (totalTokens : ℕ) (candidates : List Artifact) :
    List Artifact × List Artifact :=
  pack (fun artifact => artifact.status = .fresh) Artifact.tokenEstimate tokenBudget totalTokens
    candidates

section Loop

variable {stageId : String} {tokenBudget : ℤ} {priorities : Dict String ℕ}

theorem packCandidates_take {totalTokens : ℕ} {artifact : Artifact}
    (h : artifact.status = .fresh ∧ (totalTokens + artifact.tokenEstimate : ℤ) ≤ tokenBudget)
    (rest : List Artifact) :
    packCandidates tokenBudget totalTokens (artifact :: rest) =
      (artifact :: (packCandidates tokenBudget (totalTokens + artifact.tokenEstimate) rest).1,
        (packCandidates tokenBudget (totalTokens + artifact.tokenEstimate) rest).2) :=
  if_pos h

theorem packCandidates_leave {totalTokens : ℕ} {artifact : Artifact}
    (h : ¬(artifact.status = .fresh ∧ (totalTokens + artifact.tokenEstimate : ℤ) ≤ tokenBudget))
    (rest : List Artifact) :
    packCandidates tokenBudget totalTokens (artifact :: rest) =
      ((packCandidates tokenBudget totalTokens rest).1,
        artifact :: (packCandidates tokenBudget totalTokens rest).2) :=
  if_neg h

theorem considerArtifact_leave {loop : SelectionLoop} {artifact : Artifact}
    (h : ¬(artifact.status = .fresh ∧
      (loop.totalTokens + artifact.tokenEstimate : ℤ) ≤ tokenBudget)) :
    considerArtifact stageId tokenBudget priorities loop artifact =
      pure { loop with omitted := loop.omitted ++ [omission artifact] } := by
  unfold considerArtifact omission
  by_cases hfresh : artifact.status = .fresh
  · have hover : (loop.totalTokens + artifact.tokenEstimate : ℤ) > tokenBudget := by
      by_contra hfits
      exact h ⟨hfresh, by omega⟩
    rw [if_neg (not_not.mpr hfresh), if_pos hover, if_neg (not_not.mpr hfresh)]
  · rw [if_pos hfresh, if_pos hfresh]

theorem considerArtifact_take {loop : SelectionLoop} {artifact : Artifact}
    (hfresh : artifact.status = .fresh)
    (hfits : (loop.totalTokens + artifact.tokenEstimate : ℤ) ≤ tokenBudget) :
    considerArtifact stageId tokenBudget priorities loop artifact = do
      let item ← selectItem stageId priorities artifact
      return { loop with
        totalTokens := loop.totalTokens + artifact.tokenEstimate
        selected := loop.selected ++ [item] } := by
  unfold considerArtifact
  rw [if_neg (not_not.mpr hfresh), if_neg (by omega)]

/-- The loop reads what the packing takes, in its order, and nothing else. -/
theorem foldlM_considerArtifact (candidates : List Artifact) (loop : SelectionLoop) :
    candidates.foldlM (considerArtifact stageId tokenBudget priorities) loop = do
      let packed := packCandidates tokenBudget loop.totalTokens candidates
      let items ← packed.1.mapM (selectItem stageId priorities)
      return {
        totalTokens := loop.totalTokens + totalWeight Artifact.tokenEstimate packed.1
        selected := loop.selected ++ items
        omitted := loop.omitted ++ packed.2.map omission } := by
  induction candidates generalizing loop with
  | nil => simp [packCandidates, pack, totalWeight]
  | cons artifact rest ih =>
      rw [List.foldlM_cons]
      by_cases htaken : artifact.status = .fresh ∧
          (loop.totalTokens + artifact.tokenEstimate : ℤ) ≤ tokenBudget
      · rw [considerArtifact_take htaken.1 htaken.2, packCandidates_take htaken]
        simp only [bind_assoc, pure_bind, ih, List.mapM_cons, totalWeight_cons,
          List.append_assoc, List.singleton_append, Nat.add_assoc]
      · rw [considerArtifact_leave htaken, packCandidates_leave htaken]
        simp only [pure_bind, ih, List.map_cons, List.append_assoc, List.singleton_append]

/-- The item made of an artifact, whatever has been read of it. -/
def IsItemOf (stageId : String) (priorities : Dict String ℕ) (artifact : Artifact)
    (item : SelectedContextItem) : Prop :=
  ∃ content, item = selectedItem stageId priorities artifact content

theorem mapM_selectItem_ok {artifacts : List Artifact} {items : List SelectedContextItem}
    {pruning pruning' : Pruning}
    (h : (artifacts.mapM (selectItem stageId priorities)).exec pruning = (.ok items, pruning')) :
    List.Forall₂ (IsItemOf stageId priorities) artifacts items := by
  induction artifacts generalizing items pruning with
  | nil =>
      cases h
      exact .nil
  | cons artifact rest ih =>
      rw [List.mapM_cons] at h
      obtain ⟨item, middle, hitem, hrest⟩ := Effect.ok_of_exec_bind h
      obtain ⟨others, last, hothers, hpure⟩ := Effect.ok_of_exec_bind hrest
      obtain ⟨content, read, hread, hmade⟩ := Effect.ok_of_exec_bind hitem
      cases hpure
      cases hmade
      exact .cons ⟨content, rfl⟩ (ih hothers)

end Loop

/-! ### What a selection is -/

section Outcome

variable (host : PrunerHost)

/-- The document a refresh saves, of the one it loads. -/
def PrunedProject.refreshed (project : PrunedProject) (document : ArtifactDocument) :
    ArtifactDocument :=
  rebuildDependents (refreshDocument host.toHost (project.inRegistry host).files document)

/-- The state a refresh leaves behind. -/
def Pruning.afterRefresh (pruning : Pruning) (document : ArtifactDocument) : Pruning :=
  { pruning with project := { pruning.project with
    registry := .document (pruning.project.refreshed host document)
    graph := some (buildGraph (pruning.project.refreshed host document)) } }

/-- The artifacts taken and left out of those a refresh has found. -/
def divided (stageId : String) (tokenBudget : ℤ) (document : ArtifactDocument) :
    List Artifact × List Artifact :=
  let artifacts := registeredArtifacts document
  packCandidates tokenBudget 0
    (selectionCandidates (spreadActivationPriorities stageId artifacts) artifacts)

theorem exec_refreshRegistry (pruning : Pruning) :
    (refreshRegistry host).exec pruning =
      match (pruning.project.inRegistry host).load with
      | .error error => (.error (.registry error), pruning)
      | .ok document =>
          (.ok (pruning.project.refreshed host document), pruning.afterRefresh host document) := by
  rw [refreshRegistry, Effect.exec_within, Effect.exec_mapError, exec_refresh]
  cases (pruning.project.inRegistry host).load with
  | error error => rfl
  | ok document => rfl

theorem exec_selectContext_refused {tokenBudget : ℤ} (hbudget : ¬1 ≤ tokenBudget)
    (stageId now : String) (pruning : Pruning) :
    (selectContext host stageId tokenBudget now).exec pruning =
      (.error (.pruner "Context token budget must be positive."), pruning) := by
  unfold selectContext
  rw [if_pos (by omega)]
  rfl

theorem exec_selectContext_unloaded {tokenBudget : ℤ} (hbudget : 1 ≤ tokenBudget)
    (stageId now : String) {pruning : Pruning} {error : RegistryError}
    (hload : (pruning.project.inRegistry host).load = .error error) :
    (selectContext host stageId tokenBudget now).exec pruning =
      (.error (.registry error), pruning) := by
  have hrefresh := exec_refreshRegistry host pruning
  rw [hload] at hrefresh
  unfold selectContext
  rw [if_neg (by omega)]
  exact Effect.exec_bind_error _ hrefresh

/-- The selection that is made of what the loop has found. -/
def Pruning.conclusion (stageId : String) (tokenBudget : ℤ) (now : String) (loop : SelectionLoop)
    (pruning : Pruning) : ContextSelection where
  selectionId := "context-" ++ host.uuid4 pruning.project.drawn
  stageId := stageId
  tokenBudget := tokenBudget
  totalTokens := loop.totalTokens
  selected := loop.selected
  omitted := loop.omitted
  createdAt := now

/-- The state with a selection appended to the audit log. -/
def Pruning.appendAudit (pruning : Pruning) (selection : ContextSelection) : Pruning :=
  { pruning with project := { pruning.project with
    drawn := pruning.project.drawn + 1
    selections := pruning.project.selections ++ [selection] } }

theorem exec_concludeSelection (stageId : String) (tokenBudget : ℤ) (now : String)
    (loop : SelectionLoop) (pruning : Pruning) :
    (concludeSelection host stageId tokenBudget now loop).exec pruning =
      (.ok (pruning.conclusion host stageId tokenBudget now loop),
        pruning.appendAudit (pruning.conclusion host stageId tokenBudget now loop)) := by
  unfold concludeSelection
  rw [Effect.exec_bind_ok _ (Effect.exec_get pruning)]
  rfl

/-- After the refresh, the artifacts that are taken are read, and the selection
is made. -/
theorem exec_selectContext {stageId : String} {tokenBudget : ℤ} (now : String)
    {pruning : Pruning} (hbudget : 1 ≤ tokenBudget) {document : ArtifactDocument}
    (hload : (pruning.project.inRegistry host).load = .ok document) :
    let refreshed := pruning.project.refreshed host document
    let priorities := spreadActivationPriorities stageId (registeredArtifacts refreshed)
    let packed := divided stageId tokenBudget refreshed
    (selectContext host stageId tokenBudget now).exec pruning =
      (packed.1.mapM (selectItem stageId priorities) >>= fun items =>
        concludeSelection host stageId tokenBudget now {
          totalTokens := totalWeight Artifact.tokenEstimate packed.1
          selected := items
          omitted := packed.2.map omission }).exec (pruning.afterRefresh host document) := by
  intro refreshed priorities packed
  have hrefresh := exec_refreshRegistry host pruning
  rw [hload] at hrefresh
  unfold selectContext
  rw [if_neg (by omega)]
  dsimp only
  rw [Effect.exec_bind_ok _ hrefresh, foldlM_considerArtifact]
  simp only [bind_assoc, pure_bind, Nat.zero_add, List.nil_append]
  rfl

end Outcome

/-! ### Sound and maximal packing -/

/-- A registered artifact that received a priority. -/
def IsCandidate (stageId : String) (document : ArtifactDocument) (artifact : Artifact) : Prop :=
  artifact ∈ registeredArtifacts document ∧
    artifact.path ∈
      (spreadActivationPriorities stageId (registeredArtifacts document)).map Prod.fst

/-- A selection divides the candidates of a refreshed document into those taken
and those left: what is taken is fresh, in order and within the budget, and
nothing fresh that is left would fit. -/
structure SoundSelection (stageId : String) (tokenBudget : ℤ) (document : ArtifactDocument)
    (selection : ContextSelection) (taken left : List Artifact) : Prop where
  candidates : ∀ artifact, artifact ∈ taken ++ left ↔ IsCandidate stageId document artifact
  once : ((taken ++ left).map Artifact.path).Nodup
  selected : List.Forall₂
    (IsItemOf stageId (spreadActivationPriorities stageId (registeredArtifacts document)))
    taken selection.selected
  omitted : selection.omitted = left.map omission
  total : selection.totalTokens =
    (selection.selected.map SelectedContextItem.tokenEstimate).sum
  bounded : selection.totalTokens ≤ tokenBudget
  fresh : ∀ artifact ∈ taken, artifact.status = .fresh
  ordered : selection.selected.Pairwise fun a b =>
    a.priority < b.priority ∨ a.priority = b.priority ∧ a.path < b.path
  maximal : ∀ artifact ∈ left, artifact.status = .fresh →
    tokenBudget - selection.totalTokens < artifact.tokenEstimate

section Sound

variable {stageId : String} {tokenBudget : ℤ} {priorities : Dict String ℕ}

instance : Std.Total (listedBefore priorities) where
  total a b := by
    unfold listedBefore
    rcases lt_trichotomy (priorityOf priorities a) (priorityOf priorities b) with h | h | h
    · exact .inl (.inl h)
    · exact (le_total a.path b.path).imp (fun hle => .inr ⟨h, hle⟩) fun hle => .inr ⟨h.symm, hle⟩
    · exact .inr (.inl h)

instance : IsTrans Artifact (listedBefore priorities) where
  trans a b c := by
    rintro (hab | ⟨hab, hpath⟩) (hbc | ⟨hbc, hpath'⟩)
    · exact .inl (hab.trans hbc)
    · exact .inl (hbc ▸ hab)
    · exact .inl (hab ▸ hbc)
    · exact .inr ⟨hab.trans hbc, hpath.trans hpath'⟩

/-- No two registered artifacts have the same path. -/
theorem registeredArtifacts_nodup (document : ArtifactDocument) :
    ((registeredArtifacts document).map Artifact.path).Nodup := by
  have hkeys : (registeredArtifacts document).map Artifact.path =
      (artifactTable document).map Prod.fst := by
    rw [registeredArtifacts, List.map_map]
    apply List.map_congr_left
    intro entry hentry
    have hkept : ((artifactTable document).map Prod.fst).Nodup :=
      Dict.nodup_keys_update (d := []) List.nodup_nil _
    exact (mem_artifactTable (Dict.get?_of_mem hkept hentry)).2
  rw [hkeys]
  exact Dict.nodup_keys_update (d := []) List.nodup_nil _

theorem mem_of_registered {document : ArtifactDocument} {artifact : Artifact}
    (h : artifact ∈ registeredArtifacts document) : artifact ∈ document := by
  obtain ⟨entry, hentry, rfl⟩ := List.mem_map.mp h
  have hkept : ((artifactTable document).map Prod.fst).Nodup :=
    Dict.nodup_keys_update (d := []) List.nodup_nil _
  exact (mem_artifactTable (Dict.get?_of_mem hkept hentry)).1

theorem mem_selectionCandidates (artifacts : List Artifact) (artifact : Artifact) :
    artifact ∈ selectionCandidates priorities artifacts ↔
      artifact ∈ artifacts ∧ artifact.path ∈ priorities.map Prod.fst := by
  rw [selectionCandidates, (List.perm_insertionSort _ _).mem_iff, List.mem_filter,
    Dict.get?_isSome_iff]

theorem selectionCandidates_nodup {artifacts : List Artifact}
    (h : (artifacts.map Artifact.path).Nodup) :
    ((selectionCandidates priorities artifacts).map Artifact.path).Nodup := by
  rw [selectionCandidates, ((List.perm_insertionSort _ _).map Artifact.path).nodup_iff]
  exact h.sublist (List.filter_sublist.map Artifact.path)

theorem selectionCandidates_ordered {artifacts : List Artifact}
    (h : (artifacts.map Artifact.path).Nodup) :
    (selectionCandidates priorities artifacts).Pairwise fun a b =>
      priorityOf priorities a < priorityOf priorities b ∨
        priorityOf priorities a = priorityOf priorities b ∧ a.path < b.path := by
  have hsorted : (selectionCandidates priorities artifacts).Pairwise (listedBefore priorities) :=
    List.pairwise_insertionSort (listedBefore priorities) _
  have hpaths : (selectionCandidates priorities artifacts).Pairwise fun a b => a.path ≠ b.path :=
    List.pairwise_map.mp (selectionCandidates_nodup h)
  refine (hsorted.and hpaths).imp ?_
  rintro a b ⟨hbefore | ⟨hsame, hle⟩, hne⟩
  · exact .inl hbefore
  · exact .inr ⟨hsame, lt_of_le_of_ne hle hne⟩

theorem items_tokens {taken : List Artifact} {items : List SelectedContextItem}
    (h : List.Forall₂ (IsItemOf stageId priorities) taken items) :
    (items.map SelectedContextItem.tokenEstimate).sum =
      totalWeight Artifact.tokenEstimate taken := by
  induction h with
  | nil => rfl
  | cons hitem _ ih =>
      obtain ⟨content, rfl⟩ := hitem
      rw [List.map_cons, List.sum_cons, ih, totalWeight_cons]
      rfl

theorem items_keys {taken : List Artifact} {items : List SelectedContextItem}
    (h : List.Forall₂ (IsItemOf stageId priorities) taken items) :
    (items.map fun item => (item.priority, item.path)) =
      taken.map fun artifact => (priorityOf priorities artifact, artifact.path) := by
  induction h with
  | nil => rfl
  | cons hitem _ ih =>
      obtain ⟨content, rfl⟩ := hitem
      rw [List.map_cons, List.map_cons, ih]
      rfl

theorem items_ordered {taken : List Artifact} {items : List SelectedContextItem}
    (h : List.Forall₂ (IsItemOf stageId priorities) taken items)
    (hordered : taken.Pairwise fun a b =>
      priorityOf priorities a < priorityOf priorities b ∨
        priorityOf priorities a = priorityOf priorities b ∧ a.path < b.path) :
    items.Pairwise fun a b =>
      a.priority < b.priority ∨ a.priority = b.priority ∧ a.path < b.path := by
  let before (a b : ℕ × String) : Prop := a.1 < b.1 ∨ a.1 = b.1 ∧ a.2 < b.2
  have hkeys : (items.map fun item => (item.priority, item.path)).Pairwise before := by
    rw [items_keys h, List.pairwise_map]
    exact hordered
  exact List.pairwise_map.mp hkeys

end Sound

/-- What is taken and what is left, of the candidates in their order. -/
theorem packed_divided (stageId : String) {tokenBudget : ℤ} (hbudget : 1 ≤ tokenBudget)
    (document : ArtifactDocument) :
    Packed (fun artifact => artifact.status = .fresh) Artifact.tokenEstimate tokenBudget 0
      (selectionCandidates (spreadActivationPriorities stageId (registeredArtifacts document))
        (registeredArtifacts document))
      (divided stageId tokenBudget document).1 (divided stageId tokenBudget document).2 :=
  packed_pack (by omega) _

/-- A selection that returns is a sound and maximal packing of the candidates.
They are taken in the order of their priorities as long as they fit, and one that
is left out would not have fitted. -/
theorem selectContext_sound (host : PrunerHost) (stageId : String) (tokenBudget : ℤ)
    (now : String) (pruning pruning' : Pruning) (selection : ContextSelection)
    (h : (selectContext host stageId tokenBudget now).exec pruning = (.ok selection, pruning')) :
    ∃ document taken left, (pruning.project.inRegistry host).load = .ok document ∧
      SoundSelection stageId tokenBudget (pruning.project.refreshed host document) selection
        taken left := by
  by_cases hbudget : 1 ≤ tokenBudget
  · cases hload : (pruning.project.inRegistry host).load with
    | error error =>
        rw [exec_selectContext_unloaded host hbudget stageId now hload] at h
        cases h
    | ok document =>
        rw [exec_selectContext host now hbudget hload] at h
        obtain ⟨items, read, hitems, hconclude⟩ := Effect.ok_of_exec_bind h
        rw [exec_concludeSelection] at hconclude
        cases hconclude
        have hmade := mapM_selectItem_ok hitems
        have hregistered := registeredArtifacts_nodup (pruning.project.refreshed host document)
        have hpacked := packed_divided stageId hbudget (pruning.project.refreshed host document)
        refine ⟨document, _, _, rfl, ?_, ?_, hmade, rfl, ?_, ?_, hpacked.admitted, ?_, ?_⟩
        · intro artifact
          rw [hpacked.perm.mem_iff, mem_selectionCandidates]
          rfl
        · rw [(hpacked.perm.map Artifact.path).nodup_iff]
          exact selectionCandidates_nodup hregistered
        · exact (items_tokens hmade).symm
        · simpa [Pruning.conclusion] using hpacked.bounded
        · exact items_ordered hmade
            ((selectionCandidates_ordered hregistered).sublist hpacked.sublist)
        · intro artifact hleft hfresh
          have hover := hpacked.maximal artifact hleft hfresh
          push_cast at hover
          dsimp only [Pruning.conclusion]
          omega
  · rw [exec_selectContext_refused host hbudget] at h
    cases h

/-- Python's library on the files `a` and `bbbbb`. -/
def PrunerHost.demo : PrunerHost where
  toHost := { Host.demo with
    sha256 := fun content =>
      if content = [97] then "ca978112ca1bbdcafac231b39a23dc4da786eff8147c4e72b9807785afee48bb"
      else "5e846c64f2db12266e6b658a8e5b5b42cc225419b3ee1fca88acbb181ddfdb52" }
  isoformat := fun mtime =>
    if mtime = 1767261600 then "2026-01-01T10:00:00Z" else "2026-01-01T11:00:00Z"

/-- `plan.md`, of two tokens, depends on `srs.md`, of one. -/
def Pruning.demo : Pruning where
  project := {
    files := fun segments =>
      if segments = ["srs.md"] then some ⟨[97], 1767261600⟩
      else if segments = ["plan.md"] then some ⟨[98, 98, 98, 98, 98], 1767261600⟩
      else none
    registry := .document [
      { id := "artifact-1", path := "srs.md", stageId := some "srs", status := .fresh
        dependencies := [], dependents := ["plan.md"]
        contentHash := some (PrunerHost.demo.sha256 [97]), modifiedAt := none, tokenEstimate := 1 },
      { id := "artifact-2", path := "plan.md", stageId := some "plan", status := .fresh
        dependencies := ["srs.md"], dependents := []
        contentHash := some (PrunerHost.demo.sha256 [98, 98, 98, 98, 98]), modifiedAt := none
        tokenEstimate := 2 }]
    graph := none
    drawn := 2
    selections := [] }
  mtimeCache := []
  contentCache := []

/-- With one token there is no room for `plan.md`, but for `srs.md` after it. -/
def Pruning.demoSelection : ContextSelection where
  selectionId := "context-1b9d6bcd-bbfd-4b2d-9b5d-ab8dfbbd4bed"
  stageId := "plan"
  tokenBudget := 1
  totalTokens := 1
  selected := [{ artifactId := "artifact-1", path := "srs.md", priority := 1, tokenEstimate := 1
                 reason := "dependency_traversal", content := "a" }]
  omitted := [{ path := "plan.md", reason := "token_budget_exceeded", tokenEstimate := 2 }]
  createdAt := "2026-01-01T11:00:00Z"

theorem Pruning.demo_selects :
    ((selectContext PrunerHost.demo "plan" 1 "2026-01-01T11:00:00Z").exec Pruning.demo).1 =
      .ok Pruning.demoSelection := by
  decide

theorem selectContext_sound_demo :
    ∃ document taken left,
      (Pruning.demo.project.inRegistry PrunerHost.demo).load = .ok document ∧
      SoundSelection "plan" 1 (Pruning.demo.project.refreshed PrunerHost.demo document)
        Pruning.demoSelection taken left :=
  selectContext_sound PrunerHost.demo "plan" 1 "2026-01-01T11:00:00Z" Pruning.demo _ _
    (Prod.ext Pruning.demo_selects rfl)

end ForgeOS
