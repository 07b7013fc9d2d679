import ForgeOS.Library.Effect
import ForgeOS.Project.Scaffold
import Mathlib.Data.List.Infix

/-!
`forge init`: the directories and files of a new project, and what is left of
them where an existing file is refused. The first check looks at `.forge` only;
the files outside of it are looked at one by one, when the directories have been
made and the files before them written.
-/

namespace ForgeOS

open Library

/-! ### Directory trees -/

/-- A path under the root of a project: its segments, innermost first. The root
is the empty path. -/
abbrev TreePath := List String

inductive TreeNode where
  | file (content : String)
  | directory
deriving DecidableEq, Repr

/-- What stands under a root. -/
abbrev Tree := TreePath → Option TreeNode

namespace Tree

def set (tree : Tree) (path : TreePath) (node : TreeNode) : Tree :=
  fun other => if other = path then some node else tree other

@[simp]
theorem set_self (tree : Tree) (path : TreePath) (node : TreeNode) :
    tree.set path node path = some node := if_pos rfl

theorem set_other (tree : Tree) {path other : TreePath} (node : TreeNode) (h : other ≠ path) :
    tree.set path node other = tree other := if_neg h

end Tree

/-- How one write to the disk ends. -/
inductive TreeOutcome where
  | done
  | refused
  /-- It raises after a part of a file has been written. -/
  | torn (content : String)
deriving DecidableEq, Repr

inductive InitError where
  | valueError (message : String)
  /-- The `ValidationError` of a project without a name. -/
  | emptyName
  /-- `ProjectAlreadyInitializedError` -/
  | alreadyInitialized (message : String)
  /-- An `OSError` at a path. -/
  | os (path : TreePath)
deriving DecidableEq, Repr

abbrev TreeEffect := Effect Tree InitError

/-- What initializing takes from the machine and from Python's library. -/
structure InitHost where
  uuid4 : String
  now : String
  /-- `yaml.safe_dump(data, sort_keys=False, allow_unicode=True)`. -/
  yamlDump : Json → String
  /-- `json.dumps(data, indent=2, sort_keys=False)`, and a line break. -/
  jsonDump : Json → String
  /-- How making a directory or writing a file ends. -/
  outcome : TreePath → TreeOutcome

/-! ### What is written -/

def adapterPriority : List String :=
  ["dummy", "claude_code", "claude_raw", "claude_sdk", "codex", "openclaw", "opencode",
    "local_llm", "human"]

def adapterClassName (adapterId : String) : String :=
  (Dict.get? [("dummy", "DummyAdapter"), ("claude_code", "ClaudeCodeAdapter"),
    ("claude_raw", "ClaudeRawAdapter"), ("claude_sdk", "ClaudeSDKAdapter"),
    ("codex", "CodexAdapter"), ("openclaw", "OpenClawAdapter"), ("opencode", "OpenCodeAdapter"),
    ("local_llm", "LocalLLMAdapter"), ("human", "HumanAdapter")] adapterId).getD adapterId

/-- The entry of an adapter in a new configuration. -/
def adapterEntry (defaultAdapter : String) (options : JsonObject) (adapterId : String) :
    JsonObject :=
  let placeholder : JsonObject := [
    ("enabled", .bool (adapterId = defaultAdapter)),
    ("implementation", .str (adapterClassName adapterId)),
    ("phase", .str (if adapterId = "dummy" then "05" else "05.5"))]
  if adapterId = defaultAdapter then Dict.update placeholder options else placeholder

/-- The arguments of `initialize_project`. -/
structure InitArgs where
  root : String
  projectName : String
  profile : String := "minimal"
  defaultAdapter : String := "dummy"
  adapterOptions : JsonObject := []
  overwrite : Bool := false

def buildConfig (args : InitArgs) : Except InitError JsonObject :=
  if args.profile ∉ ["minimal", "standard", "expert"] then
    .error (.valueError s!"Unsupported profile: {args.profile}")
  else if args.defaultAdapter ∉ adapterPriority then
    .error (.valueError (s!"Unsupported adapter: {args.defaultAdapter}. Choose one of: " ++
      ", ".intercalate adapterPriority))
  else if args.projectName = "" then .error .emptyName
  else .ok [
    ("schema_version", .str "0.1"),
    ("project", .obj [("name", .str args.projectName), ("root_policy", .str "project_only")]),
    ("profile", .str args.profile),
    ("default_adapter", .str args.defaultAdapter),
    ("adapters", .obj (adapterPriority.map fun adapterId =>
      (adapterId, .obj (adapterEntry args.defaultAdapter args.adapterOptions adapterId)))),
    ("security", .obj [("profile", .str "baseline")]),
    ("hooks", .obj [("enabled", .bool false)]),
    ("features", .obj [("daemon", .bool false), ("channels", .bool false),
      ("openclaw", .bool false), ("plugins", .bool false), ("health_monitor", .bool false)])]

/-- Template for a generated stage definition. -/
structure StageTemplate where
  id : String
  name : String
  description : String
  requiredArtifacts : List String := []
  gateIds : List String := []

def srsTemplate : StageTemplate where
  id := "srs"
  name := "SRS"
  description := "Define the software requirements."
  requiredArtifacts := ["SRS.md"]
  gateIds := ["srs_exists"]

def stageTemplates (profile : String) : List StageTemplate :=
  if profile = "minimal" then [
    srsTemplate,
    { id := "build", name := "Build", description := "Implement the planned solution." },
    { id := "deploy", name := "Deploy", description := "Prepare and perform deployment." }]
  else [
    srsTemplate,
    { id := "product", name := "Product", description := "Clarify product goals and user value." },
    { id := "architecture", name := "Architecture"
      description := "Decide architecture and major boundaries." },
    { id := "spec", name := "Spec", description := "Create implementation specifications." },
    { id := "plan", name := "Plan", description := "Create an implementation plan." },
    { id := "build", name := "Build", description := "Implement the planned solution." },
    { id := "eval", name := "Eval", description := "Evaluate quality and correctness." },
    { id := "deploy", name := "Deploy", description := "Prepare and perform deployment." },
    { id := "monitor", name := "Monitor", description := "Observe runtime behavior." },
    { id := "feedback", name := "Feedback", description := "Collect and analyze feedback." },
    { id := "resolve", name := "Resolve", description := "Resolve discovered issues." },
    { id := "release", name := "Release", description := "Finalize release artifacts." }]

/-- The templates are those of the stages the project starts with. -/
theorem stageTemplates_ids {profile : String} {stages : List String}
    (h : getProfileStages profile = .ok stages) :
    (stageTemplates profile).map StageTemplate.id = stages := by
  unfold getProfileStages at h
  split at h
  · rename_i hminimal
    cases h
    rw [stageTemplates, if_pos hminimal]
    rfl
  · rename_i hminimal
    rw [stageTemplates, if_neg hminimal]
    split at h <;> try split at h
    all_goals cases h
    all_goals rfl

def buildStageDocument (profile : String) : Json :=
  let stages := stageTemplates profile
  .obj [
    ("schema_version", .str "0.1"),
    ("profile", .str profile),
    ("stages", .arr (stages.mapIdx fun index stage => .obj [
      ("id", .str stage.id),
      ("name", .str stage.name),
      ("description", .str stage.description),
      ("order", .int (index + 1)),
      ("required_artifacts", .arr (stage.requiredArtifacts.map .str)),
      ("gate_ids", .arr (stage.gateIds.map .str)),
      ("allowed_transitions", .arr ((stages[index + 1]?.map StageTemplate.id).toList.map .str)),
      ("agent_personas", .arr [])]))]

/-- `build_gate_document(profile)`, of a supported profile. -/
def gateDocument : Json := .obj [
  ("schema_version", .str "0.1"),
  ("gates", .arr [.obj [
    ("id", .str "srs_exists"),
    ("name", .str "SRS file exists"),
    ("type", .str "required_file"),
    ("stage_id", .str "srs"),
    ("severity", .str "blocking"),
    ("criteria", .obj [("path", .str "SRS.md")]),
    ("timeout_seconds", .null),
    ("enabled", .bool true)]])]

def stateMarkdown (args : InitArgs) (state : PipelineState) : String :=
  let current := match state.currentStageId with
    | some id => if id = "" then "none" else id
    | none => "none"
  let stages := state.stages.map fun stage => s!"- {stage.stageId}: {stage.status.value}"
  "# Forge Pipeline State\n\n" ++
  "This file is a human-readable mirror generated from Forge OS machine state. " ++
  "Do not treat it as the canonical source of truth.\n\n" ++
  s!"- Project: {args.projectName}\n" ++
  s!"- Profile: {args.profile}\n" ++
  s!"- State schema version: {state.schemaVersion}\n" ++
  s!"- Current stage: {current}\n\n" ++
  "## Stages\n\n" ++
  "\n".intercalate stages ++
  "\n"

/-! ### Initializing -/

/-- A path by its segments from the root on. -/
def under (segments : List String) : TreePath := segments.reverse

/-- The directories of a project, in the order they are made. -/
def scaffoldDirectories : List TreePath := [
  under [".forge"],
  under [".forge", "reflections"],
  under [".forge", "traces"],
  under [".forge", "agents"],
  under [".forge", "agents", "personas"],
  under [".forge", "agents", "contracts"],
  under ["pipeline"],
  under ["pipeline", "decisions"],
  under ["pipeline", "log"],
  under ["tasks"]]

section Init

variable (host : InitHost)

/-- The files of a project with their contents, in the order they are written. -/
def scaffoldFiles (args : InitArgs) (config : JsonObject) (state : PipelineState) :
    List (TreePath × String) := [
  (under [".forge", "config.yaml"], host.yamlDump (.obj config)),
  (under [".forge", "state.json"], host.jsonDump (.obj state.modelDump) ++ "\n"),
  (under [".forge", "events.jsonl"], ""),
  (under [".forge", "session-log.jsonl"], ""),
  (under [".forge", "agent-runs.jsonl"], ""),
  (under [".forge", "context-selections.jsonl"], ""),
  (under [".forge", "hook-timings.jsonl"], ""),
  (under [".forge", "security-audit.jsonl"], ""),
  (under [".forge", "traces", "spans.jsonl"], ""),
  (under [".forge", "lessons.yaml"],
    host.yamlDump (.obj [("schema_version", .str "0.1"), ("lessons", .arr [])])),
  (under [".forge", "patterns.jsonl"], ""),
  (under [".forge", "artifacts.json"],
    host.jsonDump (.obj [("schema_version", .str "0.1"), ("artifacts", .arr [])]) ++ "\n"),
  (under [".forge", "adg.json"],
    host.jsonDump (.obj [("schema_version", .str "0.1"), ("nodes", .arr []),
      ("edges", .arr [])]) ++ "\n"),
  (under ["pipeline", "state.md"], stateMarkdown args state),
  (under ["pipeline", "stages.yaml"], host.yamlDump (buildStageDocument args.profile)),
  (under ["pipeline", "gates.yaml"], host.yamlDump gateDocument),
  (under ["tasks", "README.md"],
    "# Forge Tasks\n\nUse this directory for task plans and implementation notes.\n")]

/-- Make one directory where nothing stands. -/
def createDirectory (path : TreePath) : TreeEffect Unit :=
  match host.outcome path with
  | .done => modify fun tree => tree.set path .directory
  | _ => throw (.os path)

/-- `directory.mkdir(parents=True, exist_ok=True)`. -/
def makeDirectory : TreePath → TreeEffect Unit
  | [] => do
      match (← get) [] with
      | some .directory => return
      | some (.file _) => throw (.os [])
      | none => createDirectory host []
  | name :: above => do
      match (← get) (name :: above) with
      | some .directory => return
      | some (.file _) => throw (.os (name :: above))
      | none =>
          makeDirectory above
          createDirectory host (name :: above)

/-- `_write_text(path, content, overwrite=overwrite)`. Where a directory
stands, writing raises. -/
def writeText (args : InitArgs) (entry : TreePath × String) : TreeEffect Unit := do
  let tree ← get
  if (tree entry.1).isSome && !args.overwrite then
    throw (.alreadyInitialized (s!"Refusing to overwrite existing file: {args.root}/" ++
      "/".intercalate entry.1.reverse))
  match tree entry.1, host.outcome entry.1 with
  | some .directory, _ => throw (.os entry.1)
  | _, .refused => throw (.os entry.1)
  | _, .torn content =>
      modify fun tree => tree.set entry.1 (.file content)
      throw (.os entry.1)
  | _, .done => modify fun tree => tree.set entry.1 (.file entry.2)

def initializeProject (args : InitArgs) : TreeEffect Unit := do
  if args.profile ∉ ["minimal", "standard", "expert"] then
    throw (.valueError s!"Unsupported profile: {args.profile}")
  if ((← get) (under [".forge"])).isSome && !args.overwrite then
    throw (.alreadyInitialized (s!"Forge project already exists at {args.root}. " ++
      "Use --force to overwrite Phase 01 files."))
  let config ← Effect.ofExcept (buildConfig args)
  let state ← Effect.ofExcept ((buildState args.profile host.uuid4 host.now).mapError .valueError)
  scaffoldDirectories.forM (makeDirectory host)
  (scaffoldFiles host args config state).forM (writeText host args)

end Init

/-! ### Making the directories -/

section Directories

variable (host : InitHost)

/-- A directory stands at the path, or can be made there with those above it. -/
def Makeable (tree : Tree) : TreePath → Prop
  | [] => tree [] = some .directory ∨ tree [] = none ∧ host.outcome [] = .done
  | name :: above => tree (name :: above) = some .directory ∨
      tree (name :: above) = none ∧ Makeable tree above ∧ host.outcome (name :: above) = .done

instance decidableMakeable (tree : Tree) : (path : TreePath) → Decidable (Makeable host tree path)
  | [] => inferInstanceAs (Decidable (_ ∨ _ ∧ _))
  | name :: above =>
      have := decidableMakeable tree above
      inferInstanceAs (Decidable (tree (name :: above) = _ ∨ tree (name :: above) = none ∧
        Makeable host tree above ∧ host.outcome (name :: above) = .done))

/-- Some of the directories that can be made have been made. -/
def Grown (tree tree' : Tree) : Prop :=
  ∀ path, tree' path = tree path ∨
    tree path = none ∧ tree' path = some .directory ∧ Makeable host tree path

variable {host} {tree tree' tree'' : Tree}

theorem Grown.refl (host : InitHost) (tree : Tree) : Grown host tree tree := fun _ => .inl rfl

theorem Grown.makeable_iff (h : Grown host tree tree') (path : TreePath) :
    Makeable host tree' path ↔ Makeable host tree path := by
  induction path with
  | nil =>
      rcases h [] with hsame | ⟨hnone, hdirectory, hmakeable⟩
      · rw [Makeable, hsame, Makeable]
      · exact iff_of_true (.inl hdirectory) hmakeable
  | cons name above ih =>
      rcases h (name :: above) with hsame | ⟨hnone, hdirectory, hmakeable⟩
      · rw [Makeable, hsame, ih, Makeable]
      · exact iff_of_true (.inl hdirectory) hmakeable

theorem Grown.trans (h : Grown host tree tree') (h' : Grown host tree' tree'') :
    Grown host tree tree'' := by
  intro path
  rcases h' path with hsame' | ⟨hnone', hdirectory', hmakeable'⟩
  · rw [hsame']
    exact h path
  · rcases h path with hsame | ⟨-, hdirectory, -⟩
    · exact .inr ⟨hsame ▸ hnone', hdirectory', (h.makeable_iff path).mp hmakeable'⟩
    · cases hdirectory.symm.trans hnone'

theorem grown_set {path : TreePath} (hnone : tree path = none) (h : Makeable host tree path) :
    Grown host tree (tree.set path .directory) := by
  intro other
  by_cases hother : other = path
  · rw [hother]
    exact .inr ⟨hnone, tree.set_self path _, h⟩
  · exact .inl (tree.set_other _ hother)

theorem exec_createDirectory (path : TreePath) (tree : Tree) :
    (createDirectory host path).exec tree =
      if host.outcome path = .done then (.ok (), tree.set path .directory)
      else (.error (.os path), tree) := by
  unfold createDirectory
  cases host.outcome path <;> rfl

/-- A directory that can be made is made, and nothing but directories above it
is. -/
theorem makeDirectory_ok {path : TreePath} (h : Makeable host tree path) :
    ∃ tree', (makeDirectory host path).exec tree = (.ok (), tree') ∧ Grown host tree tree' ∧
      tree' path = some .directory ∧ ∀ other, ¬other <:+ path → tree' other = tree other := by
  induction path with
  | nil =>
      rw [makeDirectory, Effect.exec_bind_ok _ (Effect.exec_get tree)]
      rcases h with hdirectory | ⟨hnone, hdone⟩
      · rw [hdirectory]
        exact ⟨tree, rfl, .refl host tree, hdirectory, fun _ _ => rfl⟩
      · rw [hnone]
        dsimp only
        rw [exec_createDirectory, if_pos hdone]
        refine ⟨_, rfl, grown_set hnone (.inr ⟨hnone, hdone⟩), tree.set_self [] _, ?_⟩
        intro other hother
        exact tree.set_other _ fun hroot => hother (hroot ▸ List.suffix_refl _)
  | cons name above ih =>
      rw [makeDirectory, Effect.exec_bind_ok _ (Effect.exec_get tree)]
      rcases h with hdirectory | ⟨hnone, habove, hdone⟩
      · rw [hdirectory]
        exact ⟨tree, rfl, .refl host tree, hdirectory, fun _ _ => rfl⟩
      · obtain ⟨tree', hexec, hgrown, hmade, hframe⟩ := ih habove
        have hstill : tree' (name :: above) = none := by
          rw [hframe _ fun hsuffix => absurd hsuffix.length_le (by simp), hnone]
        rw [hnone]
        dsimp only
        rw [Effect.exec_bind_ok _ hexec, exec_createDirectory, if_pos hdone]
        refine ⟨_, rfl, ?_, tree'.set_self _ _, ?_⟩
        · have hmakeable : Makeable host tree (name :: above) := .inr ⟨hnone, habove, hdone⟩
          exact hgrown.trans (grown_set hstill ((hgrown.makeable_iff _).mpr hmakeable))
        · intro other hother
          have hne : other ≠ name :: above := by
            rintro rfl
            exact hother (List.suffix_refl _)
          rw [tree'.set_other _ hne]
          exact hframe other fun hsuffix => hother (hsuffix.trans (List.suffix_cons _ _))

/-- One that cannot be made makes the call raise an error of the system. -/
theorem makeDirectory_error {path : TreePath} (h : ¬Makeable host tree path) :
    ∃ failed tree', (makeDirectory host path).exec tree = (.error (.os failed), tree') := by
  induction path with
  | nil =>
      rw [Makeable, not_or] at h
      rw [makeDirectory, Effect.exec_bind_ok _ (Effect.exec_get tree)]
      cases hroot : tree [] with
      | none =>
          dsimp only
          rw [exec_createDirectory, if_neg fun hdone => h.2 ⟨hroot, hdone⟩]
          exact ⟨[], tree, rfl⟩
      | some node =>
          cases node with
          | directory => exact absurd hroot h.1
          | file content => exact ⟨[], tree, rfl⟩
  | cons name above ih =>
      rw [Makeable, not_or] at h
      rw [makeDirectory, Effect.exec_bind_ok _ (Effect.exec_get tree)]
      cases hnode : tree (name :: above) with
      | none =>
          dsimp only
          by_cases habove : Makeable host tree above
          · obtain ⟨tree', hexec, -⟩ := makeDirectory_ok habove
            rw [Effect.exec_bind_ok _ hexec, exec_createDirectory,
              if_neg fun hdone => h.2 ⟨hnode, habove, hdone⟩]
            exact ⟨name :: above, tree', rfl⟩
          · obtain ⟨failed, tree', hexec⟩ := ih habove
            exact ⟨failed, tree', Effect.exec_bind_error _ hexec⟩
      | some node =>
          cases node with
          | directory => exact absurd hnode h.1
          | file content => exact ⟨name :: above, tree, rfl⟩

/-- All the directories are made if each of them can be. -/
theorem forM_makeDirectory_ok {paths : List TreePath}
    (h : ∀ path ∈ paths, Makeable host tree path) :
    ∃ tree', (paths.forM (makeDirectory host)).exec tree = (.ok (), tree') ∧
      Grown host tree tree' ∧ (∀ path ∈ paths, tree' path = some .directory) ∧
      ∀ other, (∀ path ∈ paths, ¬other <:+ path) → tree' other = tree other := by
  induction paths generalizing tree with
  | nil => exact ⟨tree, rfl, .refl host tree, List.forall_mem_nil _, fun _ _ => rfl⟩
  | cons path rest ih =>
      rw [List.forall_mem_cons] at h
      obtain ⟨middle, hfirst, hgrown, hmade, hframe⟩ := makeDirectory_ok h.1
      obtain ⟨tree', hrest, hgrown', hmade', hframe'⟩ := ih fun other hother =>
        (hgrown.makeable_iff other).mpr (h.2 other hother)
      refine ⟨tree', ?_, hgrown.trans hgrown', ?_, ?_⟩
      · rw [List.forM_eq_forM, List.forM_cons, Effect.exec_bind_ok _ hfirst]
        exact hrest
      · rw [List.forall_mem_cons]
        refine ⟨?_, hmade'⟩
        rcases hgrown' path with hsame | ⟨hnone, -⟩
        · rw [hsame, hmade]
        · cases hmade.symm.trans hnone
      · intro other hother
        rw [List.forall_mem_cons] at hother
        rw [hframe' other hother.2, hframe other hother.1]

theorem forM_makeDirectory_error {paths : List TreePath}
    (h : ¬∀ path ∈ paths, Makeable host tree path) :
    ∃ failed tree', (paths.forM (makeDirectory host)).exec tree = (.error (.os failed), tree') := by
  induction paths generalizing tree with
  | nil => exact absurd (List.forall_mem_nil _) h
  | cons path rest ih =>
      rw [List.forM_eq_forM, List.forM_cons]
      by_cases hfirst : Makeable host tree path
      · obtain ⟨middle, hexec, hgrown, -⟩ := makeDirectory_ok hfirst
        have hrest : ¬∀ other ∈ rest, Makeable host middle other := by
          intro hall
          apply h
          rw [List.forall_mem_cons]
          exact ⟨hfirst, fun other hother => (hgrown.makeable_iff other).mp (hall other hother)⟩
        obtain ⟨failed, tree', hlater⟩ := ih hrest
        exact ⟨failed, tree', (Effect.exec_bind_ok _ hexec).trans hlater⟩
      · obtain ⟨failed, tree', hexec⟩ := makeDirectory_error hfirst
        exact ⟨failed, tree', Effect.exec_bind_error _ hexec⟩

end Directories

/-! ### Writing the files -/

section Files

variable (host : InitHost) (args : InitArgs)

/-- A file that exists is come to: nothing stands where the files before it are
written, and writing them succeeds. -/
def MeetsFile (tree : Tree) (paths : List TreePath) : Prop :=
  ∃ before path after, paths = before ++ path :: after ∧
    (∀ other ∈ before, tree other = none ∧ host.outcome other = .done) ∧ tree path ≠ none

variable {host args}

theorem meetsFile_cons {tree : Tree} {path : TreePath} {rest : List TreePath} :
    MeetsFile host tree (path :: rest) ↔
      tree path ≠ none ∨ tree path = none ∧ host.outcome path = .done ∧
        MeetsFile host tree rest := by
  constructor
  · rintro ⟨before, met, after, hsplit, hbefore, hmet⟩
    cases before with
    | nil =>
        obtain ⟨rfl, -⟩ := List.cons.inj hsplit
        exact .inl hmet
    | cons first before =>
        obtain ⟨rfl, hrest⟩ := List.cons.inj hsplit
        rw [List.forall_mem_cons] at hbefore
        exact .inr ⟨hbefore.1.1, hbefore.1.2, before, met, after, hrest, hbefore.2, hmet⟩
  · rintro (hmet | ⟨hnone, hdone, before, met, after, rfl, hbefore, hmet⟩)
    · exact ⟨[], path, rest, rfl, List.forall_mem_nil _, hmet⟩
    · exact ⟨path :: before, met, after, rfl,
        List.forall_mem_cons.mpr ⟨⟨hnone, hdone⟩, hbefore⟩, hmet⟩

theorem meetsFile_congr {tree tree' : Tree} {paths : List TreePath}
    (h : ∀ path ∈ paths, tree' path = tree path) :
    MeetsFile host tree' paths ↔ MeetsFile host tree paths := by
  induction paths with
  | nil => simp [MeetsFile]
  | cons path rest ih =>
      rw [List.forall_mem_cons] at h
      rw [meetsFile_cons, meetsFile_cons, h.1, ih h.2]

variable (host) in
/-- Writing where something stands is refused. -/
theorem writeText_refused {tree : Tree} {entry : TreePath × String}
    (hkeep : args.overwrite = false) (h : tree entry.1 ≠ none) :
    ∃ message, (writeText host args entry).exec tree =
      (.error (.alreadyInitialized message), tree) := by
  rw [writeText, Effect.exec_bind_ok _ (Effect.exec_get tree)]
  have hsome : (tree entry.1).isSome = true := Option.isSome_iff_ne_none.mpr h
  rw [hsome, hkeep]
  exact ⟨_, rfl⟩

variable (host args) in
/-- Where nothing stands, a file is written or the system raises. -/
theorem writeText_of_none {tree : Tree} {entry : TreePath × String} (h : tree entry.1 = none) :
    (host.outcome entry.1 = .done ∧ (writeText host args entry).exec tree =
        (.ok (), tree.set entry.1 (.file entry.2))) ∨
      host.outcome entry.1 ≠ .done ∧ ∃ tree', (writeText host args entry).exec tree =
        (.error (.os entry.1), tree') := by
  rw [writeText, Effect.exec_bind_ok _ (Effect.exec_get tree)]
  dsimp only
  rw [h]
  cases host.outcome entry.1 with
  | done => exact .inl ⟨rfl, rfl⟩
  | refused => exact .inr ⟨nofun, tree, rfl⟩
  | torn content => exact .inr ⟨nofun, _, rfl⟩

variable (host) in
/-- With `overwrite` nothing is refused. -/
theorem writeText_overwrite (hforce : args.overwrite = true) (entry : TreePath × String)
    (tree : Tree) (message : String) :
    ((writeText host args entry).exec tree).1 ≠ .error (.alreadyInitialized message) := by
  rw [writeText, Effect.exec_bind_ok _ (Effect.exec_get tree), hforce]
  simp only [Bool.not_true, Bool.and_false, Bool.false_eq_true, if_false]
  split <;> exact nofun

variable (host args) in
/-- A write touches its own file only. -/
theorem writeText_other (entry : TreePath × String) (tree : Tree) {path : TreePath}
    (h : path ≠ entry.1) : ((writeText host args entry).exec tree).2 path = tree path := by
  have hset (content : String) := tree.set_other (TreeNode.file content) h
  rw [writeText, Effect.exec_bind_ok _ (Effect.exec_get tree)]
  dsimp only
  split
  · rfl
  · split
    · rfl
    · rfl
    · exact hset _
    · exact hset _

/-- The writes of files end in a refusal exactly if they come to one that
exists. -/
theorem forM_writeText_refused_iff {entries : List (TreePath × String)} {tree : Tree}
    (hkeep : args.overwrite = false) (hdistinct : (entries.map Prod.fst).Nodup) :
    (∃ message, ((entries.forM (writeText host args)).exec tree).1 =
      .error (.alreadyInitialized message)) ↔ MeetsFile host tree (entries.map Prod.fst) := by
  induction entries generalizing tree with
  | nil => exact iff_of_false nofun (by simp [MeetsFile])
  | cons entry rest ih =>
      rw [List.map_cons, List.nodup_cons] at hdistinct
      rw [List.map_cons, meetsFile_cons, List.forM_eq_forM, List.forM_cons]
      by_cases hnone : tree entry.1 = none
      · have hkept : ∀ path ∈ rest.map Prod.fst,
            (tree.set entry.1 (.file entry.2)) path = tree path := fun path hpath =>
          tree.set_other _ fun hsame => hdistinct.1 (hsame ▸ hpath)
        rcases writeText_of_none host args hnone with
          ⟨hdone, hexec⟩ | ⟨hfails, tree', hexec⟩
        · rw [Effect.exec_bind_ok _ hexec]
          simp only [hnone, hdone, ne_eq, not_true_eq_false, false_or, true_and]
          rw [← meetsFile_congr hkept]
          exact ih hdistinct.2
        · rw [Effect.exec_bind_error _ hexec]
          exact iff_of_false nofun (by simp [hnone, hfails])
      · obtain ⟨message, hexec⟩ := writeText_refused host hkeep hnone
        rw [Effect.exec_bind_error _ hexec]
        exact iff_of_true ⟨message, rfl⟩ (.inl hnone)

variable (host) in
theorem forM_writeText_overwrite (hforce : args.overwrite = true)
    (entries : List (TreePath × String)) (tree : Tree) (message : String) :
    ((entries.forM (writeText host args)).exec tree).1 ≠ .error (.alreadyInitialized message) := by
  induction entries generalizing tree with
  | nil => exact nofun
  | cons entry rest ih =>
      have hfirst := writeText_overwrite host hforce entry tree message
      rw [List.forM_eq_forM, List.forM_cons, Effect.exec_bind]
      rcases hexec : (writeText host args entry).exec tree with ⟨error | _, tree'⟩ <;>
        rw [hexec] at hfirst
      · exact hfirst
      · exact ih tree'

variable (host args) in
/-- The writes touch their own files only. -/
theorem forM_writeText_other {entries : List (TreePath × String)} (tree : Tree) {path : TreePath}
    (h : path ∉ entries.map Prod.fst) :
    ((entries.forM (writeText host args)).exec tree).2 path = tree path := by
  induction entries generalizing tree with
  | nil => rfl
  | cons entry rest ih =>
      rw [List.map_cons, List.mem_cons, not_or] at h
      have hfirst := writeText_other host args entry tree h.1
      rw [List.forM_eq_forM, List.forM_cons, Effect.exec_bind]
      rcases hexec : (writeText host args entry).exec tree with ⟨error | _, tree'⟩ <;>
        rw [hexec] at hfirst
      · exact hfirst
      · exact (ih tree' h.2).trans hfirst

end Files

/-! ### What a refusal leaves -/

section Conflicts

variable (host : InitHost) (args : InitArgs)

/-- A call that refuses to initialize has changed nothing. -/
def ConflictSafe (tree : Tree) : Prop :=
  ∀ message tree', (initializeProject host args).exec tree =
    (.error (.alreadyInitialized message), tree') → tree' = tree

/-- The files of a project. -/
def scaffoldPaths : List TreePath := [
  under [".forge", "config.yaml"],
  under [".forge", "state.json"],
  under [".forge", "events.jsonl"],
  under [".forge", "session-log.jsonl"],
  under [".forge", "agent-runs.jsonl"],
  under [".forge", "context-selections.jsonl"],
  under [".forge", "hook-timings.jsonl"],
  under [".forge", "security-audit.jsonl"],
  under [".forge", "traces", "spans.jsonl"],
  under [".forge", "lessons.yaml"],
  under [".forge", "patterns.jsonl"],
  under [".forge", "artifacts.json"],
  under [".forge", "adg.json"],
  under ["pipeline", "state.md"],
  under ["pipeline", "stages.yaml"],
  under ["pipeline", "gates.yaml"],
  under ["tasks", "README.md"]]

/-- The arguments are in order and nothing is to be overwritten, there is no
`.forge`, the directories can all be made, and a file is come to that exists. -/
structure Stumbles (tree : Tree) : Prop where
  keeps : args.overwrite = false
  arguments : (buildConfig args).isOk = true
  absent : tree (under [".forge"]) = none
  makeable : ∀ path ∈ scaffoldDirectories, Makeable host tree path
  meets : MeetsFile host tree scaffoldPaths

variable {host args} {tree : Tree}

theorem scaffoldFiles_paths (config : JsonObject) (state : PipelineState) :
    (scaffoldFiles host args config state).map Prod.fst = scaffoldPaths := rfl

/-- No file of a project is one of its directories or above one. -/
theorem scaffoldPaths_apart :
    ∀ file ∈ scaffoldPaths, ∀ path ∈ scaffoldDirectories, ¬file <:+ path := by
  decide

theorem scaffoldPaths_nodup : scaffoldPaths.Nodup := by
  decide

/-- A supported profile has a state to start with. -/
theorem buildState_ok {profile : String} (h : profile ∈ ["minimal", "standard", "expert"])
    (uuid timestamp : String) : ∃ state, buildState profile uuid timestamp = .ok state := by
  simp only [List.mem_cons, List.not_mem_nil, or_false] at h
  rcases h with rfl | rfl | rfl <;> exact ⟨_, rfl⟩

/-- What is left to do once the arguments have been found in order. -/
def scaffold (host : InitHost) (args : InitArgs) (config : JsonObject) (state : PipelineState) :
    TreeEffect Unit := do
  scaffoldDirectories.forM (makeDirectory host)
  (scaffoldFiles host args config state).forM (writeText host args)

/-- An initialization ends at its first checks with the tree as it was, or goes
on to make the project. -/
theorem initializeProject_cases (host : InitHost) (args : InitArgs) (tree : Tree) :
    ((∃ error, (initializeProject host args).exec tree = (.error error, tree)) ∧
        (args.overwrite = false → tree (under [".forge"]) = none →
          (buildConfig args).isOk = false)) ∨
      ∃ config state, buildConfig args = .ok config ∧
        (args.overwrite = true ∨ tree (under [".forge"]) = none) ∧
        (initializeProject host args).exec tree = (scaffold host args config state).exec tree := by
  unfold initializeProject
  by_cases hprofile : args.profile ∈ ["minimal", "standard", "expert"]
  · rw [if_neg (not_not.mpr hprofile)]
    dsimp only
    rw [Effect.exec_bind_ok _ (Effect.exec_get tree)]
    by_cases hguard : ((tree (under [".forge"])).isSome && !args.overwrite) = true
    · rw [if_pos hguard]
      refine .inl ⟨⟨_, rfl⟩, ?_⟩
      intro hkeep hnone
      rw [hnone] at hguard
      cases hguard
    · rw [if_neg hguard]
      cases hconfig : buildConfig args with
      | error error => exact .inl ⟨⟨error, rfl⟩, fun _ _ => rfl⟩
      | ok config =>
          obtain ⟨state, hstate⟩ := buildState_ok hprofile host.uuid4 host.now
          refine .inr ⟨config, state, rfl, ?_, ?_⟩
          · by_contra hneither
            simp only [not_or, Bool.not_eq_true] at hneither
            exact hguard (by simp [hneither.1, Option.isSome_iff_ne_none, hneither.2])
          · rw [Effect.exec_bind_ok _ (Effect.exec_ofExcept (.ok config) tree), hstate]
            rfl
  · have hinvalid : buildConfig args =
        .error (.valueError s!"Unsupported profile: {args.profile}") := if_pos hprofile
    rw [if_pos hprofile]
    exact .inl ⟨⟨_, rfl⟩, fun _ _ => by rw [hinvalid]; rfl⟩

variable (host args) in
/-- Making the project is refused exactly where an existing file is come to,
with the directories made. -/
theorem scaffold_refused_iff (config : JsonObject) (state : PipelineState) :
    (∃ message, ((scaffold host args config state).exec tree).1 =
      .error (.alreadyInitialized message)) ↔
        args.overwrite = false ∧ (∀ path ∈ scaffoldDirectories, Makeable host tree path) ∧
          MeetsFile host tree scaffoldPaths := by
  unfold scaffold
  by_cases hmakeable : ∀ path ∈ scaffoldDirectories, Makeable host tree path
  · obtain ⟨made, hexec, -, -, hframe⟩ := forM_makeDirectory_ok hmakeable
    rw [Effect.exec_bind_ok _ hexec]
    cases hforce : args.overwrite with
    | true =>
        refine iff_of_false ?_ nofun
        rintro ⟨message, hrefused⟩
        exact forM_writeText_overwrite host hforce _ made message hrefused
    | false =>
        have hkept : ∀ path ∈ scaffoldPaths, made path = tree path := fun path hpath =>
          hframe path (scaffoldPaths_apart path hpath)
        have hdistinct : ((scaffoldFiles host args config state).map Prod.fst).Nodup := by
          rw [scaffoldFiles_paths]
          exact scaffoldPaths_nodup
        rw [forM_writeText_refused_iff hforce hdistinct, scaffoldFiles_paths, meetsFile_congr hkept]
        exact ⟨fun hmeets => ⟨rfl, hmakeable, hmeets⟩, fun h => h.2.2⟩
  · obtain ⟨failed, made, hexec⟩ := forM_makeDirectory_error hmakeable
    rw [Effect.exec_bind_error _ hexec]
    exact iff_of_false nofun fun h => hmakeable h.2.1

variable (host args) in
/-- It leaves `.forge` behind as a directory then. -/
theorem scaffold_forge (config : JsonObject) (state : PipelineState)
    (h : ∀ path ∈ scaffoldDirectories, Makeable host tree path) :
    ((scaffold host args config state).exec tree).2 (under [".forge"]) = some .directory := by
  obtain ⟨made, hexec, -, hmade, -⟩ := forM_makeDirectory_ok h
  have hforge : under [".forge"] ∈ scaffoldDirectories := List.mem_cons_self
  have hapart : under [".forge"] ∉ (scaffoldFiles host args config state).map Prod.fst := by
    rw [scaffoldFiles_paths]
    intro hfile
    exact scaffoldPaths_apart _ hfile _ hforge (List.suffix_refl _)
  unfold scaffold
  rw [Effect.exec_bind_ok _ hexec, forM_writeText_other host args made hapart]
  exact hmade _ hforge

/-- A call that stumbles refuses and leaves another tree behind: `.forge` is in
it. -/
theorem Stumbles.refused (h : Stumbles host args tree) :
    ∃ message tree', (initializeProject host args).exec tree =
      (.error (.alreadyInitialized message), tree') ∧ tree' ≠ tree := by
  rcases initializeProject_cases host args tree with
    ⟨-, hinvalid⟩ | ⟨config, state, -, -, hscaffold⟩
  · have harguments := h.arguments
    rw [hinvalid h.keeps h.absent] at harguments
    cases harguments
  · obtain ⟨message, hrefused⟩ := (scaffold_refused_iff host args config state).mpr
      ⟨h.keeps, h.makeable, h.meets⟩
    refine ⟨message, _, hscaffold.trans (Prod.ext hrefused rfl), ?_⟩
    intro hsame
    have hforge := scaffold_forge host args config state h.makeable
    cases hforge.symm.trans ((congrFun hsame _).trans h.absent)

/-- A refusal changes nothing exactly if the call does not come to an existing
file with its directories made. The guard in front looks at `.forge` alone, and
the files outside of it are looked at as they are written. -/
theorem initializeProject_conflictSafe_iff (host : InitHost) (args : InitArgs) (tree : Tree) :
    ConflictSafe host args tree ↔ ¬Stumbles host args tree := by
  constructor
  · intro hsafe hstumbles
    obtain ⟨message, tree', hexec, hchanged⟩ := hstumbles.refused
    exact hchanged (hsafe message tree' hexec)
  · intro hclear message tree' hexec
    rcases initializeProject_cases host args tree with
      ⟨⟨error, hearly⟩, -⟩ | ⟨config, state, hconfig, hguard, hscaffold⟩
    · rw [hearly] at hexec
      exact (congrArg Prod.snd hexec).symm
    · rw [hscaffold] at hexec
      obtain ⟨hkeep, hmakeable, hmeets⟩ :=
        (scaffold_refused_iff host args config state).mp ⟨message, congrArg Prod.fst hexec⟩
      refine absurd ⟨hkeep, ?_, ?_, hmakeable, hmeets⟩ hclear
      · rw [hconfig]
        rfl
      · rcases hguard with hforce | habsent
        · cases hkeep.symm.trans hforce
        · exact habsent

/-- A directory where nothing but `pipeline/state.md` has been put. -/
def keptState : Tree := fun path =>
  if path = [] ∨ path = under ["pipeline"] then some .directory
  else if path = under ["pipeline", "state.md"] then some (.file "# Notes\n")
  else none

/-- A machine on which every write succeeds. -/
def soundHost : InitHost where
  uuid4 := "00000000-0000-4000-8000-000000000000"
  now := "2026-01-01T00:00:00Z"
  yamlDump := fun _ => ""
  jsonDump := fun _ => ""
  outcome := fun _ => .done

def demoArgs : InitArgs where
  root := "demo"
  projectName := "Demo"

theorem keptState_stumbles : Stumbles soundHost demoArgs keptState where
  keeps := rfl
  arguments := rfl
  absent := by decide
  makeable := by decide
  meets := ⟨scaffoldPaths.take 13, under ["pipeline", "state.md"], scaffoldPaths.drop 14,
    by decide, by decide, by decide⟩

/-- With a `pipeline/state.md` in the directory, initializing is refused after
`.forge` and the files in it have been written. -/
theorem initializeProject_keptState : ¬ConflictSafe soundHost demoArgs keptState := by
  intro hsafe
  obtain ⟨message, tree', hexec, hchanged⟩ := keptState_stumbles.refused
  exact hchanged (hsafe message tree' hexec)

end Conflicts

end ForgeOS
