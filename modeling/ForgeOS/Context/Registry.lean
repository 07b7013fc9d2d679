import ForgeOS.Json
import ForgeOS.Library.Effect
import Mathlib.Data.List.Sort
import Mathlib.Data.List.Dedup

/-!
The artifact registry: `.forge/artifacts.json`, the dependency graph
`.forge/adg.json` derived from it, and the project files both are about. What
Python's library computes of a file's content is a parameter.
-/

namespace ForgeOS

open Library

inductive ArtifactStatus where
  | fresh
  | stale
  | missing
deriving DecidableEq, Repr

/-- One registered project artifact. -/
structure Artifact where
  id : String
  path : String
  stageId : Option String
  status : ArtifactStatus
  dependencies : List String
  dependents : List String
  contentHash : Option String
  modifiedAt : Option String
  tokenEstimate : Nat
deriving DecidableEq, Repr

/-- The artifacts of a registry document, in document order. -/
abbrev ArtifactDocument := List Artifact

structure GraphNode where
  id : String
  path : String
  stageId : Option String
  status : ArtifactStatus
deriving DecidableEq, Repr

/-- An edge from a dependency to a dependent. -/
structure GraphEdge where
  source : String
  target : String
deriving DecidableEq, Repr

structure ArtifactGraph where
  nodes : List GraphNode
  edges : List GraphEdge
deriving DecidableEq, Repr

/-- A regular file; its modification time as `isoformat` prints it. -/
structure FileData where
  content : List UInt8
  modifiedAt : String
deriving DecidableEq, Repr

/-- The regular files under the project root, by the segments of their path. -/
abbrev Files := List String → Option FileData

/-- What the registry takes from Python's library. -/
structure Host where
  /-- `hashlib.sha256(content).hexdigest()`. -/
  sha256 : List UInt8 → String
  /-- `content.decode("utf-8", errors="replace")`. -/
  decode : List UInt8 → String
  /-- The `n`-th `uuid4()` drawn in the project. -/
  uuid4 : Nat → String
  /-- What looking at a path raises, by its segments: an `OSError`, of a name
  that is too long for the system or of a file that may not be read. -/
  lookError : List String → Option PyError

/-- One complaint of the model validation: the entry it is about, and why its
`path` is refused. -/
structure PathComplaint where
  entry : Nat
  message : String
deriving DecidableEq, Repr

inductive RegistryError where
  /-- `Could not read artifact registry`. -/
  | unreadable
  /-- `Artifact registry is invalid JSON`. -/
  | invalidJson
  /-- `Invalid artifact registry`: the decoded document has a wrong shape. -/
  | invalidShape
  /-- `Invalid artifact registry`: entries with a refused path. -/
  | invalidPaths (complaints : List PathComplaint)
  /-- `ArtifactRegistryError` with its own message. -/
  | registry (message : String)
  /-- The `ValidationError` of a new artifact. -/
  | validation (message : String)
  /-- An exception that nobody expects. -/
  | uncaught (error : PyError)
deriving DecidableEq, Repr

/-- What stands in `.forge/artifacts.json`. The entries of a document are
decoded, with the defaults of absent fields filled in, and not yet validated. -/
inductive RegistryFile where
  | absent
  | unreadable
  | invalidJson
  | invalidShape
  /-- Reading raises what `load` does not expect: a `UnicodeDecodeError`, or what
  `json.loads` raises beyond a `JSONDecodeError`. -/
  | raising (error : PyError)
  | document (artifacts : ArtifactDocument)
deriving Repr

/-- The part of a project the registry reads and writes. `drawn` counts the
identifiers drawn so far. -/
structure Project where
  files : Files
  registry : RegistryFile
  graph : Option ArtifactGraph
  drawn : Nat

/-- A computation of the registry. -/
abbrev Registry (α : Type) := Effect Project RegistryError α

/-! ### Paths -/

/-- The segments of a relative path: `pathlib` drops empty ones and `.`. -/
def pathSegments (path : String) : List String :=
  ((path.toList.splitOn '/').map String.ofList).filter fun segment =>
    segment ≠ "" ∧ segment ≠ "."

/-- `value.strip().replace("\\", "/")`. -/
def posixPath (value : String) : String :=
  String.ofList ((pyStrip value).toList.map fun c => if c = '\\' then '/' else c)

/-- `path.startswith("/") or ".." in path.split("/")`. -/
def leavesProject (path : String) : Bool :=
  path.toList.head? = some '/' ∨ "..".toList ∈ path.toList.splitOn '/'

def normalizePath (path : String) : Except RegistryError String :=
  let normalized := posixPath path
  if leavesProject normalized ∨ normalized = "" then
    .error (.registry "Artifact path must be non-empty and project-relative.")
  else .ok normalized

namespace Artifact

/-- The validator of `path`. -/
def normalizePath (value : String) : Except String String :=
  let normalized := posixPath value
  if normalized = "" then .error "Artifact path is required"
  else if leavesProject normalized then .error "Artifact path must be project-relative"
  else .ok normalized

/-- The validator of `dependencies` and `dependents`. -/
def normalizeEdges (value : List String) : List String :=
  value.foldl (fun normalized item =>
    let candidate := posixPath item
    if candidate ≠ "" ∧ candidate ∉ normalized then normalized ++ [candidate]
    else normalized) []

/-- Validation of one entry, as it is constructed or decoded. -/
def validate (artifact : Artifact) : Except String Artifact :=
  (normalizePath artifact.path).map fun path =>
    { artifact with
      path := path
      dependencies := normalizeEdges artifact.dependencies
      dependents := normalizeEdges artifact.dependents }

end Artifact

/-- `ArtifactDocument.model_validate`: every entry is validated, and every
refused path is reported. -/
def validateDocument (artifacts : ArtifactDocument) : Except RegistryError ArtifactDocument :=
  let complaints := artifacts.zipIdx.filterMap fun (artifact, entry) =>
    match artifact.validate with
    | .error message => some ⟨entry, message⟩
    | .ok _ => none
  if complaints.isEmpty then
    .ok (artifacts.filterMap fun artifact => artifact.validate.toOption)
  else .error (.invalidPaths complaints)

/-! ### Reading a project -/

/-- What `_snapshot` reports of a file. -/
structure FileSnapshot where
  status : ArtifactStatus
  contentHash : Option String
  modifiedAt : Option String
  tokenEstimate : Nat
deriving DecidableEq, Repr

/-- Deterministically estimate tokens without provider-specific tokenizers. -/
def estimateTokens (text : String) : Nat :=
  let stripped := pyStrip text
  if stripped = "" then 0 else max 1 ((stripped.length + 3) / 4)

def snapshot (host : Host) (files : Files) (relativePath : String) : FileSnapshot :=
  match files (pathSegments relativePath) with
  | none => ⟨.missing, none, none, 0⟩
  | some file => {
      status := .fresh
      contentHash := some (host.sha256 file.content)
      modifiedAt := some file.modifiedAt
      tokenEstimate := estimateTokens (host.decode file.content) }

/-- `_snapshot` of a path that nobody has looked at yet. -/
def takeSnapshot (host : Host) (files : Files) (relativePath : String) :
    Except RegistryError FileSnapshot :=
  match host.lookError (pathSegments relativePath) with
  | some error => .error (.uncaught error)
  | none => .ok (snapshot host files relativePath)

namespace Project

def load (project : Project) : Except RegistryError ArtifactDocument :=
  match project.registry with
  | .absent => .ok []
  | .unreadable => .error .unreadable
  | .invalidJson => .error .invalidJson
  | .invalidShape => .error .invalidShape
  | .raising error => .error (.uncaught error)
  | .document artifacts => validateDocument artifacts

/-- `_default_dependencies`: everything the other stages have registered. -/
def defaultDependencies (project : Project) (stageId : String) :
    Except RegistryError (List String) :=
  if stageId = "srs" then .ok []
  else if (project.files ["pipeline", "stages.yaml"]).isNone then .ok []
  else project.load.map fun artifacts =>
    ((artifacts.filter fun artifact =>
      artifact.stageId.isSome ∧ artifact.stageId ≠ some stageId).map
        Artifact.path).insertionSort (· ≤ ·)

end Project

/-! ### The dependency tables -/

/-- `{artifact.path: artifact ...}`, by position: the last entry of a path
stands for it. -/
def byPath (document : ArtifactDocument) : Dict String Nat :=
  Dict.update [] (document.zipIdx.map fun (artifact, position) => (artifact.path, position))

namespace Artifact

def addDependent (path : String) (artifact : Artifact) : Artifact :=
  if path ∈ artifact.dependents then artifact
  else { artifact with dependents := artifact.dependents ++ [path] }

def sortDependents (artifact : Artifact) : Artifact :=
  { artifact with dependents := artifact.dependents.insertionSort (· ≤ ·) }

/-- Enter an artifact into the dependents of one of its dependencies. -/
def linkDependency (positions : Dict String Nat) (artifact : Artifact)
    (document : ArtifactDocument) (dependency : String) : ArtifactDocument :=
  match positions.get? dependency with
  | some position => document.modify position (addDependent artifact.path)
  | none => document

end Artifact

def rebuildDependents (document : ArtifactDocument) : ArtifactDocument :=
  let cleared := document.map fun artifact => { artifact with dependents := [] }
  let linked := cleared.foldl (fun document artifact =>
    artifact.dependencies.foldl (artifact.linkDependency (byPath cleared)) document) cleared
  linked.map Artifact.sortDependents

/-- `build_graph` of a document. -/
def buildGraph (document : ArtifactDocument) : ArtifactGraph :=
  let artifacts := document.insertionSort fun a b => a.path ≤ b.path
  let registered := document.map Artifact.path
  { nodes := artifacts.map fun artifact =>
      ⟨artifact.id, artifact.path, artifact.stageId, artifact.status⟩
    edges := artifacts.flatMap fun artifact =>
      ((artifact.dependencies.insertionSort (· ≤ ·)).filter (· ∈ registered)).map fun dependency =>
        ⟨dependency, artifact.path⟩ }

/-- `save`: the document, and the graph built from it. -/
def saveRegistry (document : ArtifactDocument) : Registry Unit :=
  modify fun project => { project with
    registry := .document document
    graph := some (buildGraph document) }

/-! ### Registration -/

/-- `a or b`, for optional strings. -/
def orElseText (a b : Option String) : Option String :=
  match a with
  | some text => if text = "" then b else some text
  | none => b

section Operations

variable (host : Host)

/-- The new entry `register` constructs. -/
def newArtifact (path : String) (stageId : Option String) (dependencies : List String)
    (file : FileSnapshot) : Registry Artifact := do
  let project ← get
  modify fun project => { project with drawn := project.drawn + 1 }
  Effect.ofExcept ((Artifact.validate {
    id := s!"artifact-{host.uuid4 project.drawn}"
    path := path
    stageId := stageId
    status := file.status
    dependencies := dependencies
    dependents := []
    contentHash := file.contentHash
    modifiedAt := file.modifiedAt
    tokenEstimate := file.tokenEstimate }).mapError .validation)

/-- The assignments `register` makes to an entry that exists. None of them is
validated. -/
def Artifact.reregister (artifact : Artifact) (stageId : Option String)
    (dependencies : List String) (file : FileSnapshot) : Artifact :=
  { artifact with
    stageId := orElseText stageId artifact.stageId
    dependencies := if dependencies = [] then artifact.dependencies else dependencies
    status := file.status
    contentHash := file.contentHash
    modifiedAt := file.modifiedAt
    tokenEstimate := file.tokenEstimate }

/-- `register`. Returns the entry as it was saved. -/
def register (path : String) (stageId : Option String) (dependencies : Option (List String)) :
    Registry Artifact := do
  let document ← Effect.ofExcept (← get).load
  let normalizedPath ← Effect.ofExcept (normalizePath path)
  let file ← Effect.ofExcept (takeSnapshot host (← get).files normalizedPath)
  match document.find? fun artifact => artifact.path = normalizedPath with
  | none =>
      let created ← newArtifact host normalizedPath stageId (dependencies.getD []) file
      let rebuilt := rebuildDependents (document ++ [created])
      saveRegistry rebuilt
      return rebuilt.getD document.length created
  | some artifact =>
      -- `_find`: the first entry of the path
      let position := document.findIdx fun artifact => artifact.path = normalizedPath
      let updated := artifact.reregister stageId (dependencies.getD []) file
      let rebuilt := rebuildDependents (document.set position updated)
      saveRegistry rebuilt
      return rebuilt.getD position updated

/-- One round of the loop of `register_stage_outputs`. -/
def registerOutput (stageId outputPath : String) : Registry Artifact := do
  let dependencies ← Effect.ofExcept ((← get).defaultDependencies stageId)
  register host outputPath (some stageId) (some dependencies)

/-- `sorted(set(output_paths))`. -/
def distinctOutputs (outputPaths : List String) : List String :=
  outputPaths.dedup.insertionSort (· ≤ ·)

def registerStageOutputs (stageId : String) (outputPaths : List String) :
    Registry (List Artifact) :=
  (distinctOutputs outputPaths).mapM (registerOutput host stageId)

end Operations

/-! ### Refreshing -/

namespace Artifact

def markStale (artifact : Artifact) : Artifact := { artifact with status := .stale }

/-- What the traversal does to the artifact it started from, when it is done. -/
def clearStale (artifact : Artifact) : Artifact :=
  if artifact.status ≠ .missing then { artifact with status := .fresh } else artifact

end Artifact

/-- The state of the traversal `_mark_downstream_stale` makes. -/
structure Marking where
  visited : List String
  document : ArtifactDocument

/-- The body of the loop in `mark`, at one entry; `recurse` is the call it
makes for an entry that depends on the current path. -/
def markEntry (recurse : String → Marking → Marking) (current : String) (marking : Marking)
    (entry : Artifact × Nat) : Marking :=
  if current ∈ entry.1.dependencies then
    recurse entry.1.path { marking with
      document := marking.document.modify entry.2 Artifact.markStale }
  else marking

/-- The recursion inside `_mark_downstream_stale`. Every call that goes on
visits one more path, so the number of paths bounds its depth. The stack is taken
to be deep enough for it: CPython's recursion limit is left out. -/
def mark : Nat → String → Marking → Marking
  | 0, _, marking => marking
  | fuel + 1, current, marking =>
      if current ∈ marking.visited then marking
      else marking.document.zipIdx.foldl (markEntry (mark fuel) current)
        { marking with visited := current :: marking.visited }

def markDownstreamStale (document : ArtifactDocument) (path : String) : ArtifactDocument :=
  let marked := (mark (document.length + 1) path ⟨[], document⟩).document
  match (byPath document).get? path with
  | some position => marked.modify position Artifact.clearStale
  | none => marked

def beforeHashes (document : ArtifactDocument) : Dict String (Option String) :=
  Dict.update [] (document.map fun artifact => (artifact.path, artifact.contentHash))

/-- The status `refresh` gives an artifact on account of its own file. -/
def ownStatus (file : FileSnapshot) (status : ArtifactStatus) : ArtifactStatus :=
  if file.status = .missing then .missing
  else if status ≠ .stale then .fresh
  else status

/-- The assignments `refresh` makes to an artifact on account of its own file. -/
def Artifact.refreshed (artifact : Artifact) (file : FileSnapshot) : Artifact :=
  { artifact with
    status := ownStatus file artifact.status
    contentHash := file.contentHash
    modifiedAt := file.modifiedAt
    tokenEstimate := file.tokenEstimate }

section Refresh

variable (host : Host)

/-- One round of the loop of `refresh`, at one position of the document. -/
def refreshArtifact (files : Files) (before : Dict String (Option String))
    (document : ArtifactDocument) (position : Nat) : ArtifactDocument :=
  match document[position]? with
  | none => document
  | some artifact =>
      let file := snapshot host files artifact.path
      let changed := (before.get? artifact.path).join ≠ file.contentHash
      let document := document.set position (artifact.refreshed file)
      if changed ∧ file.status ≠ .missing then markDownstreamStale document artifact.path
      else document

/-- The loop of `refresh`. -/
def refreshDocument (files : Files) (document : ArtifactDocument) : ArtifactDocument :=
  (List.range document.length).foldl
    (refreshArtifact host files (beforeHashes document)) document

/-- Every registered path has been looked at as it was registered, so that
nothing is raised here. -/
def refresh : Registry ArtifactDocument := do
  let project ← get
  let document ← Effect.ofExcept project.load
  let refreshed := rebuildDependents (refreshDocument host project.files document)
  saveRegistry refreshed
  return refreshed

end Refresh

end ForgeOS
