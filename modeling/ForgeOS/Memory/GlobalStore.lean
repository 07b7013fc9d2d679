import ForgeOS.Library.Effect
import ForgeOS.Library.Records
import ForgeOS.Memory.Models

/-!
The global memory store, `~/.forge/memory.yaml`: lessons promoted from
projects, and which projects have used them.
-/

namespace ForgeOS

open Library

/-- Which projects have used a global lesson. -/
structure GlobalLessonUsage where
  lessonId : String
  projectPaths : List String := []
  usageCount : Int := 0
  firstUsedAt : String := ""
  lastUsedAt : String := ""
deriving DecidableEq, Repr

section Store

variable (κ : Type) [Preorder κ] [Zero κ] [One κ]

structure GlobalMemoryDocument where
  schemaVersion : String := "0.1"
  globalLessons : List (Lesson κ) := []
  usage : List GlobalLessonUsage := []

/-- What stands in `memory.yaml`. -/
abbrev MemoryFile := YamlFile (GlobalMemoryDocument κ)

end Store

/-- What a promotion can raise: the `ValueError` of an unreadable file. -/
inductive GlobalStoreError where
  | valueError
deriving DecidableEq, Repr

/-- What `uuid4` and the clock return during a promotion. -/
structure PromotionStamp where
  identifier : String
  promotedAt : String
  usedAt : String

section Operations

variable {κ : Type} [Preorder κ] [Zero κ] [One κ]

/-- `load`. Only a `ValueError` gets through to the caller. -/
def loadMemory : MemoryFile κ → Except GlobalStoreError (GlobalMemoryDocument κ)
  | .absent => .ok {}
  | .unreadable _ => .error .valueError
  | .invalidYaml _ => .ok {}
  | .blank _ => .ok {}
  | .notMapping _ => .ok {}
  | .invalidDocument _ _ => .ok {}
  | .decoded document => .ok document

def GlobalLessonUsage.reread (yaml : YamlHost) (usage : GlobalLessonUsage) :
    GlobalLessonUsage where
  lessonId := yaml.text usage.lessonId
  projectPaths := usage.projectPaths.map yaml.text
  usageCount := usage.usageCount
  firstUsedAt := yaml.text usage.firstUsedAt
  lastUsedAt := yaml.text usage.lastUsedAt

/-- The document that is loaded where this one has been dumped. -/
def GlobalMemoryDocument.reread (yaml : YamlHost) (document : GlobalMemoryDocument κ) :
    Option (GlobalMemoryDocument κ) := do
  let globalLessons ← document.globalLessons.mapM (Lesson.reread yaml)
  return {
    schemaVersion := yaml.text document.schemaVersion
    globalLessons
    usage := document.usage.map (GlobalLessonUsage.reread yaml) }

/-- `save`. The file stands for what is loaded from it. -/
def saveMemory (yaml : YamlHost) (document : GlobalMemoryDocument κ) :
    Effect (MemoryFile κ) GlobalStoreError Unit :=
  match document.reread yaml with
  | none => throw .valueError
  | some reread => modify fun _ => .decoded reread

/-- The assignments `_record_usage` makes to a record that exists. -/
def GlobalLessonUsage.record (usage : GlobalLessonUsage) (projectPath timestamp : String) :
    GlobalLessonUsage :=
  let projectPaths :=
    if projectPath ∈ usage.projectPaths then usage.projectPaths
    else usage.projectPaths ++ [projectPath]
  { usage with
    projectPaths := projectPaths
    usageCount := projectPaths.length
    lastUsedAt := timestamp }

namespace GlobalMemoryDocument

/-- `_record_usage`: at the first record of the lesson, or at a new one. -/
def recordUsage (document : GlobalMemoryDocument κ) (lessonId projectPath timestamp : String) :
    GlobalMemoryDocument κ :=
  match document.usage.find? fun usage => usage.lessonId = lessonId with
  | some _ => { document with
      usage := document.usage.modify (document.usage.findIdx fun usage => usage.lessonId = lessonId)
        fun usage => usage.record projectPath timestamp }
  | none => { document with usage := document.usage ++ [{
      lessonId := lessonId
      projectPaths := [projectPath]
      usageCount := 1
      firstUsedAt := timestamp
      lastUsedAt := timestamp }] }

end GlobalMemoryDocument

/-- The lesson that `promote_lesson` constructs. Text and tags have been
validated before, so that validation leaves them alone. -/
def promotedLesson (stamp : PromotionStamp) (lesson : Lesson κ) (projectPath : String) :
    Lesson κ where
  id := s!"lesson-{stamp.identifier}"
  text := lesson.text
  status := .approved
  confidence := lesson.confidence
  tags := lesson.tags
  stageId := lesson.stageId
  source := .manual
  createdAt := stamp.promotedAt
  updatedAt := stamp.promotedAt
  metadata := JsonObject.metadata
    [("promoted_from", .str projectPath), ("original_id", .str lesson.id)]

def promoteLesson (yaml : YamlHost) (stamp : PromotionStamp) (lesson : Lesson κ)
    (projectPath : String) :
    Effect (MemoryFile κ) GlobalStoreError (Lesson κ) := do
  let document ← Effect.ofExcept (loadMemory (← get))
  match document.globalLessons.find? fun other => other.text = lesson.text with
  | some existing =>
      saveMemory yaml (document.recordUsage existing.id projectPath stamp.usedAt)
      return existing
  | none =>
      let globalLesson := promotedLesson stamp lesson projectPath
      let extended := { document with globalLessons := document.globalLessons ++ [globalLesson] }
      saveMemory yaml (extended.recordUsage globalLesson.id projectPath stamp.usedAt)
      return globalLesson

/-! ### What a promotion keeps -/

/-- The record is about the same lesson, and no project is missing from it. -/
structure GlobalLessonUsage.Continues (usage usage' : GlobalLessonUsage) : Prop where
  lessonId : usage'.lessonId = usage.lessonId
  firstUsedAt : usage'.firstUsedAt = usage.firstUsedAt
  projectPaths : usage.projectPaths <+: usage'.projectPaths

theorem GlobalLessonUsage.Continues.refl (usage : GlobalLessonUsage) : usage.Continues usage :=
  ⟨rfl, rfl, List.prefix_refl _⟩

theorem GlobalLessonUsage.continues_record (usage : GlobalLessonUsage)
    (projectPath timestamp : String) : usage.Continues (usage.record projectPath timestamp) := by
  refine ⟨rfl, rfl, ?_⟩
  unfold GlobalLessonUsage.record
  dsimp only
  split
  · exact List.prefix_refl _
  · exact List.prefix_append _ _

namespace GlobalMemoryDocument

theorem recordUsage_globalLessons (document : GlobalMemoryDocument κ)
    (lessonId projectPath timestamp : String) :
    (document.recordUsage lessonId projectPath timestamp).globalLessons =
      document.globalLessons := by
  unfold recordUsage
  split <;> rfl

theorem recordUsage_usage (document : GlobalMemoryDocument κ)
    (lessonId projectPath timestamp : String) :
    Extends GlobalLessonUsage.Continues document.usage
      (document.recordUsage lessonId projectPath timestamp).usage := by
  unfold recordUsage
  split
  · exact .modify .refl _ _ fun usage _ => usage.continues_record projectPath timestamp
  · exact .append .refl _ _

end GlobalMemoryDocument

theorem GlobalLessonUsage.reread_exact (usage : GlobalLessonUsage) :
    usage.reread .exact = usage := by
  simp [reread, YamlHost.exact]

theorem GlobalMemoryDocument.reread_exact (document : GlobalMemoryDocument κ) :
    document.reread .exact = some document := by
  have hlessons : document.globalLessons.mapM (Lesson.reread .exact) =
      some document.globalLessons := mapM_eq_self_iff.mpr fun lesson _ => lesson.kept_exact
  have husage : document.usage.map (GlobalLessonUsage.reread .exact) = document.usage :=
    (List.map_congr_left fun usage _ => usage.reread_exact).trans (List.map_id _)
  rw [reread, hlessons, husage]
  rfl

/-- What a promotion returns, and what it makes of a document in memory. -/
def GlobalMemoryDocument.promote (document : GlobalMemoryDocument κ) (stamp : PromotionStamp)
    (lesson : Lesson κ) (projectPath : String) : Lesson κ × GlobalMemoryDocument κ :=
  match document.globalLessons.find? fun other => other.text = lesson.text with
  | some existing => (existing, document.recordUsage existing.id projectPath stamp.usedAt)
  | none =>
      let globalLesson := promotedLesson stamp lesson projectPath
      let extended := { document with globalLessons := document.globalLessons ++ [globalLesson] }
      (globalLesson, extended.recordUsage globalLesson.id projectPath stamp.usedAt)

section Exec

variable {file : MemoryFile κ} {document : GlobalMemoryDocument κ} {stamp : PromotionStamp}
  {lesson : Lesson κ} {projectPath : String}

theorem GlobalMemoryDocument.promote_of_some {existing : Lesson κ}
    (h : (document.globalLessons.find? fun other => other.text = lesson.text) = some existing) :
    document.promote stamp lesson projectPath =
      (existing, document.recordUsage existing.id projectPath stamp.usedAt) := by
  rw [promote, h]

theorem GlobalMemoryDocument.promote_of_none
    (h : (document.globalLessons.find? fun other => other.text = lesson.text) = none) :
    document.promote stamp lesson projectPath =
      (promotedLesson stamp lesson projectPath,
        recordUsage { document with
          globalLessons := document.globalLessons ++ [promotedLesson stamp lesson projectPath] }
          (promotedLesson stamp lesson projectPath).id projectPath stamp.usedAt) := by
  rw [promote, h]

theorem exec_promoteLesson_of_error {error : GlobalStoreError}
    (hload : loadMemory file = .error error) (yaml : YamlHost) (stamp : PromotionStamp)
    (lesson : Lesson κ) (projectPath : String) :
    (promoteLesson yaml stamp lesson projectPath).exec file = (.error error, file) := by
  simp only [promoteLesson, Effect.exec_bind, Effect.exec_get, Effect.exec_ofExcept, hload]

/-- A promotion saves what it makes of the document, if that can be dumped. -/
theorem exec_promoteLesson {yaml : YamlHost} {reread : GlobalMemoryDocument κ}
    (hload : loadMemory file = .ok document)
    (hreread : (document.promote stamp lesson projectPath).2.reread yaml = some reread) :
    (promoteLesson yaml stamp lesson projectPath).exec file =
      (.ok (document.promote stamp lesson projectPath).1, .decoded reread) := by
  cases hfind : document.globalLessons.find? fun other => other.text = lesson.text with
  | some existing =>
      rw [GlobalMemoryDocument.promote_of_some hfind] at hreread ⊢
      simp only [promoteLesson, saveMemory, Effect.exec_bind, Effect.exec_get,
        Effect.exec_ofExcept, hload, hfind, hreread, Effect.exec_modify, Effect.exec_pure]
  | none =>
      rw [GlobalMemoryDocument.promote_of_none hfind] at hreread ⊢
      simp only [promoteLesson, saveMemory, Effect.exec_bind, Effect.exec_get,
        Effect.exec_ofExcept, hload, hfind, hreread, Effect.exec_modify, Effect.exec_pure]

/-- A promotion keeps what it has loaded. -/
theorem GlobalMemoryDocument.promote_extends (document : GlobalMemoryDocument κ)
    (stamp : PromotionStamp) (lesson : Lesson κ) (projectPath : String) :
    Extends Eq document.globalLessons
        (document.promote stamp lesson projectPath).2.globalLessons ∧
      Extends GlobalLessonUsage.Continues document.usage
        (document.promote stamp lesson projectPath).2.usage := by
  cases hfind : document.globalLessons.find? fun other => other.text = lesson.text with
  | some existing =>
      rw [promote_of_some hfind]
      rw [recordUsage_globalLessons]
      exact ⟨.refl (fun _ => rfl) _, document.recordUsage_usage _ _ _⟩
  | none =>
      rw [promote_of_none hfind]
      rw [recordUsage_globalLessons]
      exact ⟨.append (fun _ => rfl) _ _, recordUsage_usage _ _ _ _⟩

end Exec

end Operations

end ForgeOS
