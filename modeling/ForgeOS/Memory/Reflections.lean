import ForgeOS.Library.Dict
import ForgeOS.Library.Folds
import ForgeOS.Memory.Lessons

/-!
The reflection store, `.forge/reflections/`, which has a YAML file for every
reflection.
-/

namespace ForgeOS

open Library

/-- A structured reflection captured after lifecycle activity. -/
structure Reflection where
  id : String
  stageId : Option String := none
  eventType : String
  summary : String
  observations : List String := []
  lessonIds : List String := []
  createdAt : String
  metadata : JsonObject := []
  summary_nonempty : summary ≠ ""

/-- One reflection file. -/
structure ReflectionDocument where
  schemaVersion : String := "0.1"
  reflection : Reflection

/-- The files of the directory, none if there is no such directory. -/
abbrev ReflectionFiles : Type := Dict String (YamlFile ReflectionDocument)

/-- What a call on the store can raise: a `ReflectionStoreError`, or the
`ValueError` of an unreadable file or of an empty summary. -/
inductive ReflectionFailure where
  | store (message : String)
  | valueError
deriving DecidableEq, Repr

/-- `load_file`, of a file of the directory. -/
def loadReflection (dir name : String) :
    YamlFile ReflectionDocument → Except ReflectionFailure Reflection
  | .absent => .error (.store s!"Could not read reflection: {dir}/{name}")
  | .unreadable _ => .error .valueError
  | .invalidYaml _ => .error (.store s!"Reflection is not valid YAML: {dir}/{name}")
  | .blank _ =>
      .error (.store s!"Reflection file must contain a YAML mapping: {dir}/{name}")
  | .notMapping _ =>
      .error (.store s!"Reflection file must contain a YAML mapping: {dir}/{name}")
  | .invalidDocument _ complaint =>
      .error (.store s!"Invalid reflection file {dir}/{name}: {complaint}")
  | .decoded document => .ok document.reflection

namespace Reflection

/-- The key `list` sorts by. -/
def listedBefore (a b : Reflection) : Prop :=
  a.createdAt < b.createdAt ∨ a.createdAt = b.createdAt ∧ a.id ≤ b.id

instance : DecidableRel listedBefore := fun _ _ => inferInstanceAs (Decidable (_ ∨ _))

/-- The name `save` writes to, without a colon. -/
def fileName (reflection : Reflection) : String :=
  String.ofList ((s!"{reflection.createdAt}-{reflection.id}.yaml").toList.map fun c =>
    if c = ':' then '-' else c)

end Reflection

/-- The files that `glob("*.yaml")` finds. -/
def yamlFiles (files : ReflectionFiles) : ReflectionFiles :=
  files.filter fun entry => ".yaml".toList <:+ entry.1.toList

/-- `ReflectionStore.list`. -/
def listReflections (dir : String) (files : ReflectionFiles) (stageId : Option String) :
    Except ReflectionFailure (List Reflection) := do
  let paths := (yamlFiles files).insertionSort fun a b => a.1 ≤ b.1
  let reflections ← paths.mapM fun entry => loadReflection dir entry.1 entry.2
  let reflections := match stageId with
    | none => reflections
    | some stage => reflections.filter fun reflection => reflection.stageId = some stage
  return reflections.insertionSort Reflection.listedBefore

/-- `save`. -/
def saveReflection (reflection : Reflection) : Effect ReflectionFiles ReflectionFailure Unit :=
  modify fun files => files.set reflection.fileName (.decoded { reflection := reflection })

/-- `ReflectionStore.add`. -/
def addReflection (stamp : MemoryStamp) (eventType summary : String) (stageId : Option String)
    (observations lessonIds : List String) (metadata : JsonObject) :
    Effect ReflectionFiles ReflectionFailure Reflection :=
  if h : summary = "" then throw .valueError
  else do
    let reflection : Reflection := {
      id := s!"reflection-{stamp.uuid}"
      stageId := stageId
      eventType := eventType
      summary := summary
      observations := observations
      lessonIds := lessonIds
      createdAt := stamp.timestamp
      metadata := metadata
      summary_nonempty := h }
    saveReflection reflection
    return reflection

/-! ### What a listing finds -/

theorem Reflection.fileName_isYaml (reflection : Reflection) :
    ".yaml".toList <:+ reflection.fileName.toList := by
  have hsplit : (s!"{reflection.createdAt}-{reflection.id}.yaml").toList =
      (s!"{reflection.createdAt}-{reflection.id}").toList ++ ".yaml".toList := by
    simp only [String.toList_append]
    rfl
  have hyaml : (".yaml".toList.map fun c => if c = ':' then '-' else c) = ".yaml".toList := by
    decide
  refine ⟨(s!"{reflection.createdAt}-{reflection.id}").toList.map fun c =>
    if c = ':' then '-' else c, ?_⟩
  rw [fileName, hsplit, List.map_append, hyaml]
  exact String.toList_ofList.symm

/-- A listing has what the files hold, in some order. -/
theorem listReflections_eq_ok {dir : String} {files : ReflectionFiles} {all : List Reflection}
    (h : listReflections dir files none = .ok all) :
    ∃ reflections, (yamlFiles files).mapM (fun entry => loadReflection dir entry.1 entry.2) =
      .ok reflections ∧ all.Perm reflections := by
  obtain ⟨sorted, hsorted, h⟩ := bind_eq_ok_iff.mp h
  obtain ⟨reflections, hread, hperm⟩ := mapM_perm (List.perm_insertionSort _ _) hsorted
  refine ⟨reflections, hread, ?_⟩
  rw [← Except.ok.inj h]
  exact (List.perm_insertionSort _ _).trans hperm

theorem listReflections_isOk {dir : String} {files : ReflectionFiles}
    {reflections : List Reflection}
    (h : (yamlFiles files).mapM (fun entry => loadReflection dir entry.1 entry.2) =
      .ok reflections) :
    ∃ all, listReflections dir files none = .ok all := by
  obtain ⟨sorted, hsorted, -⟩ := mapM_perm (List.perm_insertionSort (fun a b => a.1 ≤ b.1) _).symm h
  refine ⟨sorted.insertionSort Reflection.listedBefore, ?_⟩
  rw [listReflections, hsorted]
  rfl

theorem listReflections_append {dir : String} {files : ReflectionFiles} {all : List Reflection}
    (h : listReflections dir files none = .ok all) (added : List Reflection) :
    ∃ all', listReflections dir (files ++ added.map fun reflection =>
        (reflection.fileName, .decoded { reflection := reflection })) none = .ok all' ∧
      all'.Perm (all ++ added) := by
  obtain ⟨reflections, hread, hperm⟩ := listReflections_eq_ok h
  have hadded : yamlFiles (files ++ added.map fun reflection =>
      (reflection.fileName, .decoded { reflection := reflection })) =
      yamlFiles files ++ added.map fun reflection =>
        (reflection.fileName, .decoded { reflection := reflection }) := by
    rw [yamlFiles, List.filter_append, yamlFiles, List.append_cancel_left_eq,
      List.filter_eq_self]
    intro entry hentry
    obtain ⟨reflection, -, rfl⟩ := List.mem_map.mp hentry
    exact decide_eq_true reflection.fileName_isYaml
  have hnew : (added.map fun reflection => ((reflection.fileName,
      .decoded { reflection := reflection }) : String × YamlFile ReflectionDocument)).mapM
        (fun entry => loadReflection dir entry.1 entry.2) = .ok added := by
    have hloaded : added.mapM (fun reflection => loadReflection dir reflection.fileName
        (.decoded { reflection := reflection })) = .ok (added.map id) :=
      mapM_eq_ok_of_forall fun _ _ => rfl
    rw [List.map_id] at hloaded
    rwa [List.mapM_map]
  have hboth := mapM_append_eq_ok hread hnew
  rw [← hadded] at hboth
  obtain ⟨all', hall'⟩ := listReflections_isOk hboth
  obtain ⟨reflections', hread', hperm'⟩ := listReflections_eq_ok hall'
  rw [hboth] at hread'
  rw [← Except.ok.inj hread'] at hperm'
  exact ⟨all', hall', hperm'.trans (hperm.symm.append_right added)⟩

end ForgeOS
