import ForgeOS.Library.Effect
import ForgeOS.Memory.Models
import Mathlib.Data.List.Sort
import Mathlib.Order.Defs.LinearOrder

/-!
The project's lesson store, `.forge/lessons.yaml`, and the lessons it renders
into the context of an agent. Rendering counts as usage and is written back.
-/

namespace ForgeOS

open Library

/-- What a call on the store can raise: a `LessonStoreError`, or the
`ValueError` of an unreadable file. -/
inductive LessonFailure where
  | store (message : String)
  | valueError
deriving DecidableEq, Repr

/-- What the agent reads of a lesson. -/
structure ContextEntry (κ : Type) [Preorder κ] [Zero κ] [One κ] where
  id : String
  text : String
  confidence : Confidence κ
  tags : List String
  stageId : Option String

def Lesson.contextEntry {κ : Type} [Preorder κ] [Zero κ] [One κ] (lesson : Lesson κ) :
    ContextEntry κ where
  id := lesson.id
  text := lesson.text
  confidence := lesson.confidence
  tags := lesson.tags
  stageId := lesson.stageId

/-- An entry of a context together with the lesson it was made of, which the
agent does not see. -/
structure Rendered {ε κ : Type} [Preorder κ] [Zero κ] [One κ] (render : Lesson κ → ε) where
  entry : ε
  lesson : Lesson κ
  made : entry = render lesson

/-- Make the entry of a lesson. -/
def Lesson.rendered {ε κ : Type} [Preorder κ] [Zero κ] [One κ] (render : Lesson κ → ε)
    (lesson : Lesson κ) : Rendered render := ⟨render lesson, lesson, rfl⟩

/-- `items[:stop]`: a negative stop counts from the end. -/
def sliceTo {α : Type} (items : List α) (stop : Int) : List α :=
  items.take (if stop < 0 then items.length + stop else stop).toNat

section Store

variable {κ : Type} [LinearOrder κ] [Zero κ] [One κ]

/-- What stands in `lessons.yaml`. -/
abbrev LessonFile (κ : Type) [LinearOrder κ] [Zero κ] [One κ] := YamlFile (LessonDocument κ)

/-- An entry that `render_context` makes. -/
abbrev ContextLesson (κ : Type) [LinearOrder κ] [Zero κ] [One κ] :=
  Rendered fun lesson : Lesson κ => lesson.contextEntry

/-- `LessonStore.load`, of a file at some path. -/
def loadLessons (path : String) : LessonFile κ → Except LessonFailure (LessonDocument κ)
  | .absent => .ok {}
  | .unreadable _ => .error .valueError
  | .invalidYaml _ => .error (.store s!"Lesson store is not valid YAML: {path}")
  | .blank _ => .ok {}
  | .notMapping _ => .error (.store s!"Lesson store must contain a YAML mapping: {path}")
  | .invalidDocument _ complaint => .error (.store s!"Invalid lesson store: {complaint}")
  | .decoded document => .ok document

/-- `LessonStore.save`. The file stands for what is loaded from it. -/
def saveLessons (yaml : YamlHost) (document : LessonDocument κ) :
    Effect (LessonFile κ) LessonFailure Unit :=
  match document.reread yaml with
  | none => throw .valueError
  | some reread => modify fun _ => .decoded reread

namespace LessonDocument

/-- The key `list` sorts by. -/
def listedBefore (a b : Lesson κ) : Prop :=
  a.createdAt < b.createdAt ∨ a.createdAt = b.createdAt ∧ a.id ≤ b.id

instance : DecidableRel (listedBefore (κ := κ)) := fun _ _ => inferInstanceAs (Decidable (_ ∨ _))

/-- `list`, of one status; a stage also has the lessons of no stage. -/
def list (document : LessonDocument κ) (status : LessonStatus) (stageId : Option String) :
    List (Lesson κ) :=
  let lessons := document.lessons.filter fun lesson => lesson.status = status
  let lessons := match stageId with
    | none => lessons
    | some stage => lessons.filter fun lesson =>
        lesson.stageId = none ∨ lesson.stageId = some stage
  lessons.insertionSort listedBefore

/-- The key `approved_for_context` sorts by, in reverse. -/
def renderedBefore (a b : Lesson κ) : Prop :=
  b.confidence < a.confidence ∨ b.confidence = a.confidence ∧ b.updatedAt ≤ a.updatedAt

instance : DecidableRel (renderedBefore (κ := κ)) :=
  fun _ _ => inferInstanceAs (Decidable (_ ∨ _))

def approvedForContext (document : LessonDocument κ) (stageId : Option String)
    (minConfidence : κ) (limit : Int) : List (Lesson κ) :=
  let lessons := (document.list .approved none).filter fun lesson =>
    ¬ lesson.dormant ∧ minConfidence ≤ lesson.confidence.1 ∧
      (lesson.stageId = none ∨ stageId = none ∨ lesson.stageId = stageId)
  sliceTo (lessons.insertionSort renderedBefore) limit

end LessonDocument

/-- What `uuid4` and the clock return while a lesson or a reflection is
built. -/
structure MemoryStamp where
  uuid : String
  timestamp : String

/-- `normalize_tags`; `lower` is `str.lower`. -/
def normalizeTags (lower : String → String) (tags : List String) : List String :=
  tags.foldl (fun normalized tag =>
    let candidate := lower (pyStrip tag)
    if candidate ≠ "" ∧ candidate ∉ normalized then normalized ++ [candidate] else normalized) []

/-- The lesson that `add` constructs, as it passes the validators. -/
def newLesson (lower : String → String) (stamp : MemoryStamp) (text : String)
    (confidence : Confidence κ) (tags : List String) (stageId : Option String)
    (source : LessonSource) (status : Option LessonStatus) (metadata : Metadata) :
    Lesson κ where
  id := s!"lesson-{stamp.uuid}"
  text := pyStrip text
  status := status.getD .pending
  confidence := confidence
  tags := normalizeTags lower tags
  stageId := stageId
  source := source
  createdAt := stamp.timestamp
  updatedAt := stamp.timestamp
  metadata := metadata

/-- `LessonStore.add`. A blank text is a `ValueError` of the validators. -/
def addLesson (yaml : YamlHost) (lower : String → String) (path : String) (stamp : MemoryStamp)
    (text : String) (confidence : Confidence κ) (tags : List String) (stageId : Option String)
    (source : LessonSource) (status : Option LessonStatus) (metadata : Metadata) :
    Effect (LessonFile κ) LessonFailure (Lesson κ) :=
  if pyStrip text = "" then throw .valueError
  else do
    let lesson := newLesson lower stamp text confidence tags stageId source status metadata
    let document ← Effect.ofExcept (loadLessons path (← get))
    saveLessons yaml { document with lessons := document.lessons ++ [lesson] }
    return lesson

namespace Lesson

/-- Usage, of the lessons that have been selected. -/
def touch (selectedIds : List String) (timestamp : String) (lesson : Lesson κ) : Lesson κ :=
  if lesson.id ∈ selectedIds then
    { lesson with lastUsedAt := some timestamp, useCount := lesson.useCount + 1 }
  else lesson

end Lesson

/-- Render approved lessons for agent-context injection. The entries are
collected by id, so that the last lesson of an id is the one rendered. -/
def renderContext (yaml : YamlHost) (path timestamp : String) (stageId : Option String)
    (minConfidence : κ) (limit : Int) :
    Effect (LessonFile κ) LessonFailure (List (ContextLesson κ)) := do
  let document ← Effect.ofExcept (loadLessons path (← get))
  let selectedIds := (document.approvedForContext stageId minConfidence limit).map Lesson.id
  if selectedIds = [] then
    return []
  else
    let document ← Effect.ofExcept (loadLessons path (← get))
    let lessons := document.lessons.map (Lesson.touch selectedIds timestamp)
    let rendered := Dict.update [] ((lessons.filter fun lesson => lesson.id ∈ selectedIds).map
      fun lesson => (lesson.id, lesson.rendered Lesson.contextEntry))
    saveLessons yaml { document with lessons := lessons }
    return selectedIds.filterMap rendered.get?

def changeFirst (change : Lesson κ → Lesson κ) (id : String) : List (Lesson κ) → List (Lesson κ)
  | [] => []
  | lesson :: rest =>
      if lesson.id = id then change lesson :: rest else lesson :: changeFirst change id rest

/-- Change the lesson that `_require_lesson` finds. -/
def changeLesson (yaml : YamlHost) (path : String) (change : Lesson κ → Lesson κ) (id : String) :
    Effect (LessonFile κ) LessonFailure (Lesson κ) := do
  let document ← Effect.ofExcept (loadLessons path (← get))
  match document.lessons.find? fun lesson => lesson.id = id with
  | none => throw (.store s!"Unknown lesson `{id}`.")
  | some lesson =>
      saveLessons yaml { document with lessons := changeFirst change id document.lessons }
      return change lesson

namespace Lesson

def approved (timestamp : String) (lesson : Lesson κ) : Lesson κ :=
  { lesson with
    status := .approved
    approvedAt := some timestamp
    deprecatedAt := none
    updatedAt := timestamp }

def deprecated (timestamp : String) (lesson : Lesson κ) : Lesson κ :=
  { lesson with
    status := .deprecated
    deprecatedAt := some timestamp
    updatedAt := timestamp }

/-- The lesson with its dormancy cleared. -/
def revived (timestamp : String) (lesson : Lesson κ) : Lesson κ :=
  { lesson with dormant := false, dormantAt := none, updatedAt := timestamp }

end Lesson

/-- `LessonStore.approve` -/
def approveLesson (yaml : YamlHost) (path timestamp id : String) :
    Effect (LessonFile κ) LessonFailure (Lesson κ) :=
  changeLesson yaml path (Lesson.approved timestamp) id

/-- `LessonStore.deprecate` -/
def deprecateLesson (yaml : YamlHost) (path timestamp id : String) :
    Effect (LessonFile κ) LessonFailure (Lesson κ) :=
  changeLesson yaml path (Lesson.deprecated timestamp) id

/-- Clear dormancy so an approved lesson re-enters context selection. -/
def revive (yaml : YamlHost) (path timestamp id : String) :
    Effect (LessonFile κ) LessonFailure (Lesson κ) :=
  changeLesson yaml path (Lesson.revived timestamp) id

theorem changeFirst_of_split {before after : List (Lesson κ)} {lesson : Lesson κ}
    (hfirst : ∀ other ∈ before, other.id ≠ lesson.id) (change : Lesson κ → Lesson κ) :
    changeFirst change lesson.id (before ++ lesson :: after) =
      before ++ change lesson :: after := by
  induction before with
  | nil => rw [List.nil_append, changeFirst, if_pos rfl, List.nil_append]
  | cons other rest ih =>
      rw [List.forall_mem_cons] at hfirst
      rw [List.cons_append, changeFirst, if_neg hfirst.1, ih hfirst.2, List.cons_append]

/-- The lessons behind the first one of the id stay as they are. -/
theorem getElem?_changeFirst {lessons : List (Lesson κ)} {place : Nat} {id : String}
    (h : ∃ other ∈ lessons.take place, other.id = id) (change : Lesson κ → Lesson κ) :
    (changeFirst change id lessons)[place]? = lessons[place]? := by
  induction lessons generalizing place with
  | nil => rfl
  | cons first rest ih =>
      cases place with
      | zero => simp at h
      | succ place =>
          unfold changeFirst
          split
          · rfl
          · rename_i hfirst
            rw [List.getElem?_cons_succ, List.getElem?_cons_succ]
            apply ih
            obtain ⟨other, hother, hid⟩ := h
            rw [List.take_succ_cons, List.mem_cons] at hother
            rcases hother with rfl | hother
            · exact absurd hid hfirst
            · exact ⟨other, hother, hid⟩

/-- Where ids are distinct, the first lesson of an id is the only one. -/
theorem changeFirst_eq_map {lessons : List (Lesson κ)} (hids : (lessons.map Lesson.id).Nodup)
    (change : Lesson κ → Lesson κ) (id : String) :
    changeFirst change id lessons =
      lessons.map fun lesson => if lesson.id = id then change lesson else lesson := by
  induction lessons with
  | nil => rfl
  | cons lesson rest ih =>
      rw [List.map_cons, List.nodup_cons] at hids
      rw [changeFirst, List.map_cons]
      split
      · rename_i hid
        have hothers : (rest.map fun other => if other.id = id then change other else other) =
            rest := by
          refine (List.map_congr_left fun other hother => if_neg ?_).trans (List.map_id rest)
          intro hsame
          exact hids.1 (List.mem_map.mpr ⟨other, hother, hsame.trans hid.symm⟩)
        rw [hothers]
      · rw [ih hids.2]

section Saved

variable {yaml : YamlHost} {path : String} {file : LessonFile κ}
  {document reread : LessonDocument κ}

theorem exec_saveLessons (hreread : document.reread yaml = some reread) (file : LessonFile κ) :
    (saveLessons yaml document).exec file = (.ok (), .decoded reread) := by
  rw [saveLessons, hreread]
  rfl

theorem exec_saveLessons_of_none (hreread : document.reread yaml = none) (file : LessonFile κ) :
    (saveLessons yaml document).exec file = (.error .valueError, file) := by
  rw [saveLessons, hreread]
  rfl

theorem exec_changeLesson {lesson : Lesson κ} {id : String}
    (hload : loadLessons path file = .ok document)
    (hfind : (document.lessons.find? fun lesson => lesson.id = id) = some lesson)
    (change : Lesson κ → Lesson κ)
    (hreread : ({ document with lessons := changeFirst change id document.lessons }
      : LessonDocument κ).reread yaml = some reread) :
    (changeLesson yaml path change id).exec file = (.ok (change lesson), .decoded reread) := by
  simp only [changeLesson, Effect.exec_bind, Effect.exec_get, Effect.exec_ofExcept, hload, hfind,
    exec_saveLessons hreread, Effect.exec_pure]

end Saved

/-! ### What is rendered -/

namespace Lesson

variable (selectedIds : List String) (timestamp : String) (lesson : Lesson κ)

@[simp]
theorem touch_id : (lesson.touch selectedIds timestamp).id = lesson.id := by
  unfold touch
  split <;> rfl

@[simp]
theorem touch_status : (lesson.touch selectedIds timestamp).status = lesson.status := by
  unfold touch
  split <;> rfl

@[simp]
theorem touch_dormant : (lesson.touch selectedIds timestamp).dormant = lesson.dormant := by
  unfold touch
  split <;> rfl

@[simp]
theorem touch_confidence :
    (lesson.touch selectedIds timestamp).confidence = lesson.confidence := by
  unfold touch
  split <;> rfl

@[simp]
theorem touch_stageId : (lesson.touch selectedIds timestamp).stageId = lesson.stageId := by
  unfold touch
  split <;> rfl

theorem listedBefore_touch {a b : Lesson κ} : LessonDocument.listedBefore a b ↔
    LessonDocument.listedBefore (a.touch selectedIds timestamp)
      (b.touch selectedIds timestamp) := by
  unfold touch
  split <;> split <;> rfl

end Lesson

namespace LessonDocument

def lastWithId (document : LessonDocument κ) (id : String) : Option (Lesson κ) :=
  document.lessons.reverse.find? fun lesson => lesson.id = id

/-- The document after usage. -/
def touch (document : LessonDocument κ) (selectedIds : List String) (timestamp : String) :
    LessonDocument κ :=
  { document with lessons := document.lessons.map (Lesson.touch selectedIds timestamp) }

/-- The entries made for the selected ids. -/
def rendered (document : LessonDocument κ) (selectedIds : List String) (timestamp : String) :
    List (ContextLesson κ) :=
  selectedIds.filterMap fun id => (document.lastWithId id).map fun lesson =>
    (lesson.touch selectedIds timestamp).rendered Lesson.contextEntry

/-- Usage does not change which lessons a listing has, nor their order. -/
theorem list_touch (document : LessonDocument κ) (selectedIds : List String)
    (timestamp : String) (status : LessonStatus) (stageId : Option String) :
    (document.touch selectedIds timestamp).list status stageId =
      (document.list status stageId).map (Lesson.touch selectedIds timestamp) := by
  have hsorted (lessons : List (Lesson κ)) :
      (lessons.map (Lesson.touch selectedIds timestamp)).insertionSort listedBefore =
        (lessons.insertionSort listedBefore).map (Lesson.touch selectedIds timestamp) :=
    (List.map_insertionSort listedBefore listedBefore (Lesson.touch selectedIds timestamp) lessons
      fun _ _ _ _ => Lesson.listedBefore_touch selectedIds timestamp).symm
  unfold list touch
  cases stageId with
  | none =>
      simp only [List.filter_map, hsorted]
      congr 3
      funext lesson
      simp
  | some stage =>
      simp only [List.filter_map, hsorted]
      congr 3
      · funext lesson
        simp
      · congr 1
        funext lesson
        simp

end LessonDocument

/-- What the dictionary built while rendering answers for a selected id. -/
private theorem get?_rendered (document : LessonDocument κ) {selectedIds : List String}
    (timestamp : String) {id : String} (hid : id ∈ selectedIds) :
    (Dict.update [] (((document.lessons.map (Lesson.touch selectedIds timestamp)).filter
      fun lesson => lesson.id ∈ selectedIds).map fun lesson =>
        (lesson.id, lesson.rendered Lesson.contextEntry))).get? id =
      (document.lastWithId id).map fun lesson =>
        (lesson.touch selectedIds timestamp).rendered Lesson.contextEntry := by
  rw [Dict.get?_update_reverse, Dict.get?_nil, Option.or_none, ← List.map_reverse, Dict.get?_map,
    ← List.filter_reverse, List.find?_filter, ← List.map_reverse, List.find?_map, Option.map_map]
  have hsame : (fun lesson : Lesson κ => decide (lesson.id = id)) =
      (fun lesson => decide (decide (lesson.id ∈ selectedIds) = true ∧
        decide (lesson.id = id) = true)) ∘ Lesson.touch selectedIds timestamp := by
    funext lesson
    rw [Function.comp_apply, Lesson.touch_id]
    by_cases heq : lesson.id = id
    · simp [heq, hid]
    · simp [heq]
  rw [LessonDocument.lastWithId, hsame]
  rfl

section Rendering

variable {path : String} (yaml : YamlHost) (timestamp : String) (stageId : Option String)
  (minConfidence : κ) (limit : Int) {file : LessonFile κ}

theorem exec_renderContext_of_error {failure : LessonFailure}
    (hload : loadLessons path file = .error failure) :
    (renderContext yaml path timestamp stageId minConfidence limit).exec file =
      (.error failure, file) := by
  simp only [renderContext, Effect.exec_bind, Effect.exec_get, Effect.exec_ofExcept, hload]

/-- A store of which no lesson is selected is left alone. -/
theorem exec_renderContext_of_nil {document : LessonDocument κ}
    (hload : loadLessons path file = .ok document)
    (hnone : document.approvedForContext stageId minConfidence limit = []) :
    (renderContext yaml path timestamp stageId minConfidence limit).exec file = (.ok [], file) := by
  simp only [renderContext, Effect.exec_bind, Effect.exec_get, Effect.exec_ofExcept, hload]
  rw [hnone]
  rfl

/-- Rendering returns an entry for each selected id, and saves the store with
the usage entered, if that can be dumped. -/
theorem exec_renderContext_of_ne {document : LessonDocument κ}
    (hload : loadLessons path file = .ok document)
    (hsome : document.approvedForContext stageId minConfidence limit ≠ []) :
    let selectedIds := (document.approvedForContext stageId minConfidence limit).map Lesson.id
    (renderContext yaml path timestamp stageId minConfidence limit).exec file =
      match (document.touch selectedIds timestamp).reread yaml with
      | none => (.error .valueError, file)
      | some reread => (.ok (document.rendered selectedIds timestamp), .decoded reread) := by
  intro selectedIds
  have hids : ¬ selectedIds = [] := mt List.map_eq_nil_iff.mp hsome
  have hentries : selectedIds.filterMap (Dict.update [] (((document.lessons.map
      (Lesson.touch selectedIds timestamp)).filter fun lesson => lesson.id ∈ selectedIds).map
        fun lesson => (lesson.id, lesson.rendered Lesson.contextEntry))).get? =
      document.rendered selectedIds timestamp :=
    List.filterMap_congr fun id hid => get?_rendered document timestamp hid
  simp only [renderContext, Effect.exec_bind, Effect.exec_get, Effect.exec_ofExcept, hload]
  rw [if_neg hids]
  simp only [Effect.exec_bind, Effect.exec_get, Effect.exec_ofExcept, hload]
  cases hreread : (document.touch selectedIds timestamp).reread yaml with
  | none =>
      rw [LessonDocument.touch] at hreread
      rw [exec_saveLessons_of_none hreread]
  | some reread =>
      rw [LessonDocument.touch] at hreread
      rw [exec_saveLessons hreread]
      simp only [Effect.exec_pure]
      rw [hentries]

/-- A store that comes back from its dump is left with the usage entered. -/
theorem exec_renderContext_of_kept {document : LessonDocument κ}
    (hload : loadLessons path file = .ok document)
    (hkept : (document.touch ((document.approvedForContext stageId minConfidence limit).map
      Lesson.id) timestamp).Kept yaml) :
    let selectedIds := (document.approvedForContext stageId minConfidence limit).map Lesson.id
    ∃ file', (renderContext yaml path timestamp stageId minConfidence limit).exec file =
        (.ok (document.rendered selectedIds timestamp), file') ∧
      loadLessons path file' = .ok (document.touch selectedIds timestamp) := by
  intro selectedIds
  by_cases hnone : document.approvedForContext stageId minConfidence limit = []
  · have hids : selectedIds = [] := List.map_eq_nil_iff.mpr hnone
    have hsame : document.lessons.map (Lesson.touch [] timestamp) = document.lessons :=
      List.map_id'' (fun _ => rfl) _
    refine ⟨file, ?_, ?_⟩
    · rw [exec_renderContext_of_nil yaml timestamp stageId minConfidence limit hload hnone, hids]
      rfl
    · rw [hload, hids, LessonDocument.touch, hsame]
  · refine ⟨.decoded (document.touch selectedIds timestamp), ?_, rfl⟩
    rw [exec_renderContext_of_ne yaml timestamp stageId minConfidence limit hload hnone, hkept]

end Rendering

end Store

end ForgeOS
