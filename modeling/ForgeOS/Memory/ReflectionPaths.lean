import ForgeOS.Adapters.ClaudeOutputs
import ForgeOS.Memory.Reflections

/-!
Where the reflections of a project are written to, and where they are looked
for. `save` rewrites the text of the whole path, the root of the project with
it; `list` reads the directory the root has.
-/

namespace ForgeOS

open Library

namespace ReflectionStore

open ClaudeCode (IsFileName posixText)

/-- A resolved root, by its segments. -/
structure ProjectRoot where
  names : List String
  proper : ∀ name ∈ names, IsFileName name

/-- `path.replace(":", "-")`. -/
def dashes (path : String) : String :=
  String.ofList (path.toList.map fun c => if c = ':' then '-' else c)

def absoluteText (names : List String) : String := "/" ++ posixText names

def reflectionsDir (root : ProjectRoot) : List String := root.names ++ [".forge", "reflections"]

/-- The name of the file before anything is rewritten. -/
def rawName (reflection : Reflection) : String :=
  s!"{reflection.createdAt}-{reflection.id}.yaml"

/-- `Path(str(path).replace(":", "-"))`. -/
def safePath (root : ProjectRoot) (reflection : Reflection) : List String :=
  pathSegments (dashes (absoluteText (reflectionsDir root ++ [rawName reflection])))

/-- The directories of a disk with the files in them, by the path that leads to
each without a link. -/
abbrev Disk := List String → Option ReflectionFiles

/-- Where the path of a directory leads when its links are followed. -/
abbrev Links := List String → List String

/-- What `add` and `list` can raise. -/
inductive Failure where
  | fileExists (path : List String)
  | fileNotFound (path : List String)
  | reflection (failure : ReflectionFailure)
deriving DecidableEq

/-- `self.reflections_dir.mkdir(parents=True, exist_ok=True)`. A link that leads
nowhere is in its way. -/
def makeReflectionsDir (links : Links) (root : ProjectRoot) : Effect Disk Failure Unit := do
  let dir := links (reflectionsDir root)
  if ((← get) dir).isNone then
    if dir = links (root.names ++ [".forge"]) ++ ["reflections"] then
      modify fun disk => Function.update disk dir (some [])
    else throw (.fileExists (reflectionsDir root))

def save (links : Links) (root : ProjectRoot) (reflection : Reflection) :
    Effect Disk Failure Unit := do
  makeReflectionsDir links root
  let path := safePath root reflection
  let dir := links path.dropLast
  match (← get) dir with
  | none => throw (.fileNotFound path)
  | some files =>
      modify fun disk => Function.update disk dir
        (some (files.set (path.getLastD "") (.decoded { reflection := reflection })))

/-- The reflection that `add` constructs. -/
def newReflection (stamp : MemoryStamp) (eventType : String)
    (summary : { summary : String // summary ≠ "" }) (stageId : Option String)
    (observations lessonIds : List String) (metadata : JsonObject) : Reflection where
  id := s!"reflection-{stamp.uuid}"
  stageId := stageId
  eventType := eventType
  summary := summary
  observations := observations
  lessonIds := lessonIds
  createdAt := stamp.timestamp
  metadata := metadata
  summary_nonempty := summary.2

def add (links : Links) (root : ProjectRoot) (stamp : MemoryStamp) (eventType summary : String)
    (stageId : Option String) (observations lessonIds : List String) (metadata : JsonObject) :
    Effect Disk Failure Reflection :=
  if h : summary = "" then throw (.reflection .valueError)
  else do
    let reflection := newReflection stamp eventType ⟨summary, h⟩ stageId observations lessonIds
      metadata
    save links root reflection
    return reflection

def list (links : Links) (root : ProjectRoot) (disk : Disk) (stageId : Option String) :
    Except ReflectionFailure (List Reflection) :=
  listReflections (absoluteText (reflectionsDir root))
    ((disk (links (reflectionsDir root))).getD []) stageId

/-! ### What is asked of the store -/

/-- `utc_now` and `uuid4` have no slash in what they return. -/
structure IsStamp (stamp : MemoryStamp) : Prop where
  timestamp : '/' ∉ stamp.timestamp.toList
  uuid : '/' ∉ stamp.uuid.toList

/-- The root has a writable `.forge`, and in it the directory of the
reflections or nothing with its name. -/
structure HasForge (links : Links) (root : ProjectRoot) (disk : Disk) : Prop where
  forge : (disk (links (root.names ++ [".forge"]))).isSome
  reflections : (disk (links (reflectionsDir root))).isSome ∨
    links (reflectionsDir root) = links (root.names ++ [".forge"]) ++ ["reflections"]

/-- Directories that no path below the root leads to are as they were. -/
def WritesBelow (links : Links) (root : ProjectRoot) (disk disk' : Disk) : Prop :=
  ∀ dir, (∀ path, root.names <+: path → links path ≠ dir) → disk' dir = disk dir

/-- In whatever a disk holds, a reflection with a new name is added, below the
root, and listed with the previous ones. -/
def FindsAgain (links : Links) (root : ProjectRoot) : Prop :=
  ∀ (disk : Disk) (stamp : MemoryStamp) (eventType : String)
    (summary : { summary : String // summary ≠ "" }) (stageId : Option String)
    (observations lessonIds : List String) (metadata : JsonObject),
    let reflection := newReflection stamp eventType summary stageId observations lessonIds metadata
    HasForge links root disk → IsStamp stamp →
    (∀ files ∈ disk (links (reflectionsDir root)), reflection.fileName ∉ files.map Prod.fst) →
    ∃ disk', (add links root stamp eventType summary stageId observations lessonIds metadata).exec
        disk = (.ok reflection, disk') ∧
      WritesBelow links root disk disk' ∧
      ∀ previous, list links root disk none = .ok previous →
        ∃ all, list links root disk' none = .ok all ∧ all.Perm (previous ++ [reflection])

/-- The directory that is written to. -/
def rewrittenDir (root : ProjectRoot) : List String :=
  root.names.map dashes ++ [".forge", "reflections"]

/-- The root has no colon, or the path without its colons leads to the same
reflections. -/
def LeadsHome (links : Links) (root : ProjectRoot) : Prop :=
  (∀ name ∈ root.names, ':' ∉ name.toList) ∨
    links (rewrittenDir root) = links (reflectionsDir root)

/-! ### The rewritten path -/

theorem dashes_of_no_colon {path : String} (h : ':' ∉ path.toList) : dashes path = path := by
  have hmap : path.toList.map (fun c => if c = ':' then '-' else c) = path.toList :=
    (List.map_congr_left fun c hc => if_neg (ne_of_mem_of_not_mem hc h)).trans (List.map_id _)
  rw [dashes, hmap, String.ofList_toList]

/-- A character that is neither of the two is where it was. -/
theorem mem_dashes {path : String} {c : Char} (hcolon : c ≠ ':') (hdash : c ≠ '-') :
    c ∈ (dashes path).toList ↔ c ∈ path.toList := by
  rw [dashes, String.toList_ofList, List.mem_map]
  constructor
  · rintro ⟨d, hd, heq⟩
    split_ifs at heq with hd'
    · exact absurd heq.symm hdash
    · exact heq ▸ hd
  · exact fun hc => ⟨c, hc, if_neg hcolon⟩

/-- A text without a dash comes only of itself. -/
theorem eq_of_dashes {path other : String} (h : '-' ∉ other.toList)
    (hdashes : dashes path = other) : path = other := by
  have hcolon : ':' ∉ path.toList := by
    intro hmem
    refine h ?_
    rw [← hdashes, dashes, String.toList_ofList]
    exact List.mem_map.mpr ⟨':', hmem, rfl⟩
  rw [← hdashes, dashes_of_no_colon hcolon]

theorem isFileName_dashes {name : String} (h : IsFileName name) : IsFileName (dashes name) where
  proper := by
    have hne {text : List Char} (hdash : '-' ∉ text) (hname : name.toList ≠ text) :
        (dashes name).toList ≠ text := by
      intro heq
      have hdashes : dashes name = String.ofList text := by rw [← heq, String.ofList_toList]
      have hsame := eq_of_dashes (by rwa [String.toList_ofList]) hdashes
      exact hname (by rw [hsame, String.toList_ofList])
    exact ⟨hne (by decide) h.proper.ne_nil, hne (by decide) h.proper.ne_dot,
      hne (by decide) h.proper.ne_dots⟩
  noSlash := by
    rw [mem_dashes (by decide) (by decide)]
    exact h.noSlash

theorem dashes_posixText {names : List String} (hne : names ≠ []) :
    dashes (posixText names) = posixText (names.map dashes) := by
  have hnames : (names.map dashes).map String.toList =
      (names.map String.toList).map (List.map fun c => if c = ':' then '-' else c) := by
    rw [List.map_map, List.map_map]
    exact List.map_congr_left fun name _ => String.toList_ofList
  rw [dashes, ClaudeCode.toList_posixText, map_joinPath (by decide) (by simpa using hne), posixText,
    hnames]

theorem dashes_absoluteText {names : List String} (hne : names ≠ []) :
    dashes (absoluteText names) = absoluteText (names.map dashes) := by
  rw [absoluteText, absoluteText, ← dashes_posixText hne, dashes, String.toList_append,
    List.map_append, String.ofList_append]
  rfl

theorem pathSegments_absoluteText (names : List String) :
    pathSegments (absoluteText names) = pathSegments (posixText names) := by
  have hroot : (absoluteText names).toList = '/' :: (posixText names).toList := by
    rw [absoluteText, String.toList_append]
    rfl
  rw [pathSegments, hroot, List.splitOn_cons_eq_if_modifyHead]
  rfl

/-- The path is rewritten name by name. -/
theorem pathSegments_dashes {names : List String} (hne : names ≠ [])
    (h : ∀ name ∈ names, IsFileName name) :
    pathSegments (dashes (absoluteText names)) = names.map dashes := by
  rw [dashes_absoluteText hne, pathSegments_absoluteText]
  refine ClaudeCode.pathSegments_posixText fun name hname => ?_
  obtain ⟨raw, hraw, rfl⟩ := List.mem_map.mp hname
  exact isFileName_dashes (h raw hraw)

variable {links : Links} {root : ProjectRoot}

theorem isFileName_rawName {stamp : MemoryStamp} (h : IsStamp stamp) (eventType : String)
    (summary : { summary : String // summary ≠ "" }) (stageId : Option String)
    (observations lessonIds : List String) (metadata : JsonObject) :
    IsFileName (rawName
      (newReflection stamp eventType summary stageId observations lessonIds metadata)) := by
  have htext : (rawName (newReflection stamp eventType summary stageId observations lessonIds
      metadata)).toList = (stamp.timestamp.toList ++ "-reflection-".toList) ++
        (stamp.uuid.toList ++ ".yaml".toList) := by
    simp [rawName, newReflection, toString]
  constructor
  · have hlength : 2 < (rawName (newReflection stamp eventType summary stageId observations
        lessonIds metadata)).toList.length := by
      rw [htext]
      simp
      omega
    constructor
    · intro heq
      simp [heq] at hlength
    · intro heq
      simp [heq] at hlength
    · intro heq
      simp [heq] at hlength
  · rw [htext]
    simp only [List.mem_append, not_or]
    exact ⟨⟨h.timestamp, by decide⟩, h.uuid, by decide⟩

theorem isFileName_forge : ∀ name ∈ [".forge", "reflections"], IsFileName name := by decide

/-- The path a new reflection is written to. -/
theorem safePath_eq {reflection : Reflection} (h : IsFileName (rawName reflection)) :
    safePath root reflection = rewrittenDir root ++ [reflection.fileName] := by
  have hproper : ∀ name ∈ reflectionsDir root ++ [rawName reflection], IsFileName name := by
    intro name hname
    rcases List.mem_append.mp hname with hdir | hfile
    · rcases List.mem_append.mp hdir with hroot | hforge
      · exact root.proper name hroot
      · exact isFileName_forge name hforge
    · exact List.mem_singleton.mp hfile ▸ h
  rw [safePath, pathSegments_dashes (by simp) hproper, reflectionsDir]
  simp only [List.map_append]
  rfl

/-! ### Adding -/

variable {disk : Disk}

/-- A disk on which the directory of the reflections has been made. -/
def withReflectionsDir (links : Links) (root : ProjectRoot) (disk : Disk) : Disk :=
  Function.update disk (links (reflectionsDir root))
    (some ((disk (links (reflectionsDir root))).getD []))

theorem exec_makeReflectionsDir (h : HasForge links root disk) :
    (makeReflectionsDir links root).exec disk = (.ok (), withReflectionsDir links root disk) := by
  unfold makeReflectionsDir withReflectionsDir
  simp only [Effect.exec_bind, Effect.exec_get]
  cases hdir : disk (links (reflectionsDir root)) with
  | some files =>
      have hsame : Function.update disk (links (reflectionsDir root)) (some files) = disk := by
        rw [← hdir, Function.update_eq_self]
      simp [hsame]
  | none =>
      have hmade := h.reflections.resolve_left (by simp [hdir])
      simp [hmade]

theorem exec_save {reflection : Reflection} (h : HasForge links root disk)
    (hname : IsFileName (rawName reflection)) :
    (save links root reflection).exec disk =
      match withReflectionsDir links root disk (links (rewrittenDir root)) with
      | none => (.error (.fileNotFound (safePath root reflection)),
          withReflectionsDir links root disk)
      | some files => (.ok (), Function.update (withReflectionsDir links root disk)
          (links (rewrittenDir root))
          (some (files.set reflection.fileName (.decoded { reflection := reflection })))) := by
  have hdir : (safePath root reflection).dropLast = rewrittenDir root := by
    rw [safePath_eq hname, List.dropLast_concat]
  have hfile : (safePath root reflection).getLastD "" = reflection.fileName := by
    rw [safePath_eq hname, List.getLastD_concat]
  unfold save
  rw [Effect.exec_bind_ok _ (exec_makeReflectionsDir h)]
  simp only [Effect.exec_bind, Effect.exec_get, hdir, hfile]
  cases withReflectionsDir links root disk (links (rewrittenDir root)) with
  | none => rfl
  | some files => rfl

theorem exec_add {reflection : Reflection} {stamp : MemoryStamp} {eventType : String}
    {summary : { summary : String // summary ≠ "" }} {stageId : Option String}
    {observations lessonIds : List String} {metadata : JsonObject}
    (hnew : newReflection stamp eventType summary stageId observations lessonIds metadata =
      reflection) :
    (add links root stamp eventType summary stageId observations lessonIds metadata).exec disk =
      (save links root reflection >>= fun _ => pure reflection).exec disk := by
  rw [add, dif_neg summary.2]
  subst hnew
  rfl

theorem leadsHome_iff :
    LeadsHome links root ↔ links (rewrittenDir root) = links (reflectionsDir root) := by
  refine ⟨fun h => h.elim (fun hcolon => ?_) id, Or.inr⟩
  have hsame : root.names.map dashes = root.names :=
    (List.map_congr_left fun name hname => dashes_of_no_colon (hcolon name hname)).trans
      (List.map_id _)
  rw [rewrittenDir, hsame, reflectionsDir]

/-- Where the path leads home, `add` is the `add` of one directory. -/
theorem exec_add_of_leadsHome (h : LeadsHome links root) (hforge : HasForge links root disk)
    {stamp : MemoryStamp} (hstamp : IsStamp stamp) (eventType : String)
    (summary : { summary : String // summary ≠ "" }) (stageId : Option String)
    (observations lessonIds : List String) (metadata : JsonObject) :
    (add links root stamp eventType summary stageId observations lessonIds metadata).exec disk =
      match (addReflection stamp eventType summary stageId observations lessonIds metadata).exec
        ((disk (links (reflectionsDir root))).getD []) with
      | (added, files) => (added.mapError Failure.reflection,
          Function.update disk (links (reflectionsDir root)) (some files)) := by
  have hname := isFileName_rawName hstamp eventType summary stageId observations lessonIds metadata
  have hmade : withReflectionsDir links root disk (links (reflectionsDir root)) =
      some ((disk (links (reflectionsDir root))).getD []) := Function.update_self ..
  rw [exec_add rfl, Effect.exec_bind, exec_save hforge hname, leadsHome_iff.mp h, hmade,
    addReflection, dif_neg summary.2, withReflectionsDir]
  simp only [Function.update_idem]
  rfl

/-- A reflection that is written where the listing looks is listed. -/
theorem findsAgain_of_leadsHome (h : LeadsHome links root) : FindsAgain links root := by
  intro disk stamp eventType summary stageId observations lessonIds metadata reflection hforge
    hstamp hfresh
  have hfresh' : reflection.fileName ∉
      ((disk (links (reflectionsDir root))).getD []).map Prod.fst := by
    cases hfiles : disk (links (reflectionsDir root)) with
    | none => exact List.not_mem_nil
    | some files => exact hfresh files hfiles
  rw [exec_add_of_leadsHome h hforge hstamp, addReflection, dif_neg summary.2]
  refine ⟨_, rfl, ?_, ?_⟩
  · intro dir hdir
    have hne : dir ≠ links (reflectionsDir root) := fun heq =>
      hdir (reflectionsDir root) (List.prefix_append _ _) heq.symm
    exact Function.update_of_ne hne ..
  · intro previous hprevious
    obtain ⟨all, hall, hperm⟩ := listReflections_append hprevious [reflection]
    refine ⟨all, ?_, hperm⟩
    rw [List.map_singleton, ← Dict.set_of_not_mem hfresh'] at hall
    rw [list, Function.update_self]
    exact hall

/-- A disk with an empty directory for reflections. -/
def emptyDisk (links : Links) (root : ProjectRoot) : Disk := fun dir =>
  if dir = links (root.names ++ [".forge"]) ∨ dir = links (reflectionsDir root) then some []
  else none

/-- Nothing that is written elsewhere is listed. -/
theorem leadsHome_of_findsAgain (h : FindsAgain links root) : LeadsHome links root := by
  rw [leadsHome_iff]
  by_contra hdir
  have hempty : emptyDisk links root (links (reflectionsDir root)) = some [] :=
    if_pos (Or.inr rfl)
  have hforge : HasForge links root (emptyDisk links root) := by
    constructor
    · rw [emptyDisk, if_pos (Or.inl rfl)]
      rfl
    · exact Or.inl (by rw [hempty]; rfl)
  have hstamp : IsStamp ⟨"", ""⟩ := ⟨by decide, by decide⟩
  obtain ⟨disk', hexec, -, hlist⟩ := h (emptyDisk links root) ⟨"", ""⟩ "" ⟨"a", by decide⟩ none []
    [] [] hforge hstamp (by simp [hempty])
  have hprevious : list links root (emptyDisk links root) none = .ok [] := by
    rw [list, hempty]
    rfl
  obtain ⟨all, hall, hperm⟩ := hlist [] hprevious
  have hsame : disk' (links (reflectionsDir root)) = some [] := by
    rw [exec_add rfl, Effect.exec_bind,
      exec_save hforge (isFileName_rawName hstamp _ _ _ _ _ _)] at hexec
    have hmade : withReflectionsDir links root (emptyDisk links root)
        (links (reflectionsDir root)) = some [] := by
      rw [withReflectionsDir, Function.update_self, hempty]
      rfl
    cases hfiles : withReflectionsDir links root (emptyDisk links root)
        (links (rewrittenDir root)) with
    | none =>
        rw [hfiles] at hexec
        cases hexec
    | some files =>
        rw [hfiles] at hexec
        obtain ⟨-, rfl⟩ := Prod.mk.inj hexec
        rw [Function.update_of_ne (Ne.symm hdir), hmade]
  rw [list, hsame] at hall
  obtain rfl : [] = all := Except.ok.inj hall
  exact absurd hperm.length_eq (by decide)

/-- Reflections are found again exactly in projects whose root has no colon, or
whose reflections the path without its colons leads to. The colons are taken out
of the whole path that is written to, not out of the name alone. -/
theorem findsAgain_iff (links : Links) (root : ProjectRoot) :
    FindsAgain links root ↔ LeadsHome links root :=
  ⟨leadsHome_of_findsAgain, findsAgain_of_leadsHome⟩

/-- The project `/srv/a:b`. -/
def colonRoot : ProjectRoot where
  names := ["srv", "a:b"]
  proper := by decide

/-- Without links, its reflections are looked for where none is written. -/
theorem not_findsAgain : ¬FindsAgain id colonRoot := by
  intro h
  rcases leadsHome_of_findsAgain h with hcolon | hlinks
  · exact hcolon "a:b" (by decide) (by decide)
  · exact absurd hlinks (by decide)

end ReflectionStore

end ForgeOS
