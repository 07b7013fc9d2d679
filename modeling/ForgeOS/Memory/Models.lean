import ForgeOS.Library.Folds
import ForgeOS.Yaml
import Mathlib.Algebra.Field.Rat
import Mathlib.Algebra.Order.Ring.Rat

/-!
Lessons, as the project's store and the global one hold them. Confidences are
numbers of an ordered type: the floats of a file are exact rationals, and the
laws of decay are about real numbers.
-/

namespace ForgeOS

open Library

inductive LessonStatus where
  | pending
  | approved
  | deprecated
deriving DecidableEq, Repr

inductive LessonSource where
  | manual
  | inferred
  | reflection
deriving DecidableEq, Repr

/-- `Field(ge=0.0, le=1.0)`. -/
abbrev Confidence (κ : Type) [Preorder κ] [Zero κ] [One κ] : Type :=
  { confidence : κ // 0 ≤ confidence ∧ confidence ≤ 1 }

theorem one_isConfidence : (0 : ℚ) ≤ 1 ∧ (1 : ℚ) ≤ 1 := ⟨zero_le_one, le_rfl⟩

/-- A durable project-level lesson. -/
structure Lesson (κ : Type) [Preorder κ] [Zero κ] [One κ] where
  id : String
  text : String
  status : LessonStatus := .pending
  confidence : Confidence κ
  tags : List String := []
  stageId : Option String := none
  source : LessonSource := .manual
  createdAt : String
  updatedAt : String
  approvedAt : Option String := none
  deprecatedAt : Option String := none
  lastUsedAt : Option String := none
  useCount : Int := 0
  dormant : Bool := false
  dormantAt : Option String := none
  metadata : Metadata := []
  /-- What the file has of it in addition, which the model allows. -/
  extra : Metadata := []

/-- The lessons of a store. -/
structure LessonDocument (κ : Type) [Preorder κ] [Zero κ] [One κ] where
  schemaVersion : String := "0.1"
  lessons : List (Lesson κ) := []
  extra : Metadata := []

/-! ### A dump and a load -/

section Reread

variable {κ : Type} [Preorder κ] [Zero κ] [One κ]

/-- The lesson that is loaded where this one has been dumped. -/
def Lesson.reread (yaml : YamlHost) (lesson : Lesson κ) : Option (Lesson κ) := do
  let metadata ← yaml.metadata lesson.metadata
  let extra ← yaml.metadata lesson.extra
  return {
    id := yaml.text lesson.id
    text := yaml.text lesson.text
    status := lesson.status
    confidence := lesson.confidence
    tags := yaml.tags lesson.tags
    stageId := lesson.stageId.map yaml.text
    source := lesson.source
    createdAt := yaml.text lesson.createdAt
    updatedAt := yaml.text lesson.updatedAt
    approvedAt := lesson.approvedAt.map yaml.text
    deprecatedAt := lesson.deprecatedAt.map yaml.text
    lastUsedAt := lesson.lastUsedAt.map yaml.text
    useCount := lesson.useCount
    dormant := lesson.dormant
    dormantAt := lesson.dormantAt.map yaml.text
    metadata
    extra }

def LessonDocument.reread (yaml : YamlHost) (document : LessonDocument κ) :
    Option (LessonDocument κ) := do
  let lessons ← document.lessons.mapM (Lesson.reread yaml)
  let extra ← yaml.metadata document.extra
  return { schemaVersion := yaml.text document.schemaVersion, lessons, extra }

/-- A dump of the lesson is loaded as what it was. -/
def Lesson.Kept (yaml : YamlHost) (lesson : Lesson κ) : Prop := lesson.reread yaml = some lesson

def LessonDocument.Kept (yaml : YamlHost) (document : LessonDocument κ) : Prop :=
  document.reread yaml = some document

theorem Lesson.kept_iff {yaml : YamlHost} {lesson : Lesson κ} :
    lesson.Kept yaml ↔
      yaml.text lesson.id = lesson.id ∧ yaml.text lesson.text = lesson.text ∧
      yaml.tags lesson.tags = lesson.tags ∧ lesson.stageId.map yaml.text = lesson.stageId ∧
      yaml.text lesson.createdAt = lesson.createdAt ∧
      yaml.text lesson.updatedAt = lesson.updatedAt ∧
      lesson.approvedAt.map yaml.text = lesson.approvedAt ∧
      lesson.deprecatedAt.map yaml.text = lesson.deprecatedAt ∧
      lesson.lastUsedAt.map yaml.text = lesson.lastUsedAt ∧
      lesson.dormantAt.map yaml.text = lesson.dormantAt ∧
      yaml.metadata lesson.metadata = some lesson.metadata ∧
      yaml.metadata lesson.extra = some lesson.extra := by
  unfold Kept reread
  cases hmetadata : yaml.metadata lesson.metadata with
  | none => simp
  | some metadata =>
      cases hextra : yaml.metadata lesson.extra with
      | none => simp
      | some extra =>
          cases lesson
          simp

theorem LessonDocument.kept_iff {yaml : YamlHost} {document : LessonDocument κ} :
    document.Kept yaml ↔
      yaml.text document.schemaVersion = document.schemaVersion ∧
      yaml.metadata document.extra = some document.extra ∧
      ∀ lesson ∈ document.lessons, lesson.Kept yaml := by
  unfold Kept reread Lesson.Kept
  rw [← mapM_eq_self_iff]
  cases hlessons : document.lessons.mapM (Lesson.reread yaml) with
  | none => simp
  | some lessons =>
      cases hextra : yaml.metadata document.extra with
      | none => simp
      | some extra =>
          cases document
          simp only [Option.bind_eq_bind, Option.bind_some, Option.pure_def, Option.some.injEq,
            mk.injEq]
          tauto

theorem Lesson.kept_exact (lesson : Lesson κ) : lesson.Kept .exact := by
  simp [Lesson.kept_iff, YamlHost.exact]

theorem LessonDocument.kept_exact (document : LessonDocument κ) : document.Kept .exact :=
  LessonDocument.kept_iff.mpr ⟨rfl, rfl, fun lesson _ => lesson.kept_exact⟩

end Reread

end ForgeOS
