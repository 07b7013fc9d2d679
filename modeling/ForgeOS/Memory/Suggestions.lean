import ForgeOS.Memory.Lessons
import ForgeOS.Memory.Promotions

/-!
What the commands of the global memory come to: lessons are promoted by their
ids from the stores of the projects, and those that enough projects share are
suggested.
-/

namespace ForgeOS

open Library

section Suggestions

variable {κ : Type} [LinearOrder κ] [Zero κ] [One κ]

/-- What `suggest_promotions` lists of a lesson. -/
structure PromotionSuggestion where
  lessonId : String
  text : String
  usageCount : Int
  projects : List String
deriving DecidableEq, Repr

/-- The body of the loop over the records. -/
def suggestionOf (document : GlobalMemoryDocument κ) (minProjects : Int)
    (usage : GlobalLessonUsage) : Option PromotionSuggestion :=
  if usage.usageCount ≥ minProjects then
    (document.globalLessons.find? fun lesson => lesson.id = usage.lessonId).map fun matched => {
      lessonId := matched.id
      text := String.ofList (matched.text.toList.take 80)
      usageCount := usage.usageCount
      projects := usage.projectPaths }
  else none

/-- Suggest lessons used across so many projects. -/
def suggestPromotions (file : MemoryFile κ) (minProjects : Int) :
    Except GlobalStoreError (List PromotionSuggestion) := do
  let document ← loadMemory file
  return document.usage.filterMap (suggestionOf document minProjects)

def getUsage (file : MemoryFile κ) (lessonId : String) :
    Except GlobalStoreError (Option GlobalLessonUsage) := do
  let document ← loadMemory file
  return document.usage.find? fun usage => usage.lessonId = lessonId

/-- What the command that promotes a lesson raises. -/
inductive PromotionFailure where
  | lessons (failure : LessonFailure)
  | memory (error : GlobalStoreError)

/-- A use of that command in a project, with the lesson store it finds there. -/
structure PromotionRequest (κ : Type) [LinearOrder κ] [Zero κ] [One κ] where
  stamp : PromotionStamp
  projectRoot : String
  lessonsPath : String
  lessons : LessonFile κ
  lessonId : String

namespace PromotionRequest

/-- `GlobalMemoryUseCases.promote_lesson` -/
def perform (yaml : YamlHost) (request : PromotionRequest κ) :
    Effect (MemoryFile κ) PromotionFailure (Option (Lesson κ)) := do
  let document ← Effect.ofExcept
    ((loadLessons request.lessonsPath request.lessons).mapError .lessons)
  match document.lessons.find? fun lesson => lesson.id = request.lessonId with
  | none => return none
  | some lesson => do
      let promoted ← (promoteLesson yaml request.stamp lesson request.projectRoot).mapError
        .memory
      return some promoted

/-- The promotion that a use of the command comes to, if it finds its lesson. -/
def promotion? (request : PromotionRequest κ) : Option (Promotion κ) :=
  match loadLessons request.lessonsPath request.lessons with
  | .error _ => none
  | .ok document =>
      (document.lessons.find? fun lesson => lesson.id = request.lessonId).map fun lesson =>
        ⟨request.stamp, lesson, request.projectRoot⟩

/-- The global memory after some uses of the command. -/
def after (yaml : YamlHost) (file : MemoryFile κ) (requests : List (PromotionRequest κ)) :
    MemoryFile κ :=
  run (fun file request => ((request.perform yaml).exec file).2) file requests

theorem exec_perform (yaml : YamlHost) (request : PromotionRequest κ) (file : MemoryFile κ) :
    ((request.perform yaml).exec file).2 =
      match request.promotion? with
      | none => file
      | some promotion => ((promotion.perform yaml).exec file).2 := by
  simp only [perform, promotion?, Effect.exec_bind, Effect.exec_ofExcept]
  cases loadLessons request.lessonsPath request.lessons with
  | error failure => rfl
  | ok document =>
      simp only [Except.mapError]
      cases document.lessons.find? fun lesson => lesson.id = request.lessonId with
      | none => rfl
      | some lesson =>
          dsimp only [Option.map_some]
          rw [Effect.exec_bind_pure_snd, Effect.exec_mapError]
          rfl

/-- Only what is found is promoted. -/
theorem after_eq (yaml : YamlHost) (file : MemoryFile κ) (requests : List (PromotionRequest κ)) :
    after yaml file requests = Promotion.after yaml file (requests.filterMap promotion?) := by
  induction requests using List.reverseRecOn with
  | nil => rfl
  | append_singleton requests request ih =>
      rw [after, run_snoc, ← after, ih, exec_perform, filterMap_snoc]
      cases request.promotion? with
      | none => rw [Option.toList_none, List.append_nil]
      | some promotion => rw [Option.toList_some, Promotion.after, Promotion.after, run_snoc]

end PromotionRequest

namespace Promotion

/-- What is suggested of the text of a founder. -/
def suggestion (promotions : List (Promotion κ)) (founder : Promotion κ) :
    PromotionSuggestion where
  lessonId := founder.lessonId
  text := String.ofList (founder.text.toList.take 80)
  usageCount := (projects promotions founder.text).toFinset.card
  projects := firsts id (projects promotions founder.text)

theorem usageCount_usage (promotions : List (Promotion κ)) (founder : Promotion κ) :
    (usage promotions founder).usageCount = (projects promotions founder.text).toFinset.card :=
  congrArg Int.ofNat (length_firsts _)

/-- A suggestion is made of the id and the text of its lesson. -/
theorem suggestionOf_congr {document other : GlobalMemoryDocument κ}
    (h : document.Resembles other) (minProjects : Int) (usage : GlobalLessonUsage) :
    suggestionOf document minProjects usage = suggestionOf other minProjects usage := by
  have hkeys (document : GlobalMemoryDocument κ) : suggestionOf document minProjects usage =
      if usage.usageCount ≥ minProjects then
        (document.keys.find? fun key => key.1 = usage.lessonId).map fun key => {
          lessonId := key.1
          text := String.ofList (key.2.toList.take 80)
          usageCount := usage.usageCount
          projects := usage.projectPaths }
      else none := by
    rw [suggestionOf, GlobalMemoryDocument.keys, List.find?_map, Option.map_map]
    rfl
  rw [hkeys, hkeys, h.keys]

theorem suggestionOf_usage {promotions : List (Promotion κ)}
    (hids : ((founders promotions).map lessonId).Nodup) (minProjects : Int) {founder : Promotion κ}
    (hfounder : founder ∈ founders promotions) :
    suggestionOf (GlobalMemoryDocument.ofPromotions promotions) minProjects
        (usage promotions founder) =
      if minProjects ≤ (projects promotions founder.text).toFinset.card then
        some (suggestion promotions founder)
      else none := by
  have hfound : ((GlobalMemoryDocument.ofPromotions promotions).globalLessons.find? fun lesson =>
      lesson.id = (usage promotions founder).lessonId) = some founder.globalLesson :=
    find?_key (by rwa [GlobalMemoryDocument.globalLessons_id]) (List.mem_map_of_mem hfounder)
  rw [suggestionOf, hfound, usageCount_usage]
  rfl

end Promotion

/-- After any promotions from the stores of any projects, exactly the texts are
suggested that enough projects have promoted, in the order of their first
promotions and with those projects, and each has the record of its uses. The
texts and the paths of the projects are such as come back from a dump. -/
theorem PromotionRequest.suggested_after (yaml : YamlHost) {file : MemoryFile κ}
    (hempty : loadMemory file = .ok {}) {requests : List (PromotionRequest κ)}
    (hids : ((Promotion.founders (requests.filterMap promotion?)).map Promotion.lessonId).Nodup)
    (hstamped : ∀ promotion ∈ requests.filterMap promotion?, promotion.Stamped)
    (hkept : ∀ promotion ∈ requests.filterMap promotion?, promotion.Kept yaml)
    (minProjects : Int) :
    let promotions := requests.filterMap promotion?
    suggestPromotions (after yaml file requests) minProjects =
      .ok (((Promotion.founders promotions).filter fun founder =>
        minProjects ≤ (Promotion.projects promotions founder.text).toFinset.card).map
          (Promotion.suggestion promotions)) ∧
    ∀ founder ∈ Promotion.founders promotions,
      getUsage (after yaml file requests) founder.lessonId =
        .ok (some (Promotion.usage promotions founder)) := by
  intro promotions
  obtain ⟨document, hload, hresembles, -⟩ :=
    Promotion.loadMemory_after hempty hids hstamped hkept
  rw [← after_eq] at hload
  constructor
  · simp only [suggestPromotions, hload, ok_bind]
    refine congrArg Except.ok ?_
    rw [hresembles.usage, ← List.filterMap_eq_map, ← List.filterMap_eq_filter,
      List.filterMap_filterMap, GlobalMemoryDocument.ofPromotions, List.filterMap_map]
    refine List.filterMap_congr fun founder hfounder => ?_
    refine (Promotion.suggestionOf_congr hresembles minProjects _).trans ?_
    refine (Promotion.suggestionOf_usage hids minProjects hfounder).trans ?_
    split
    · rename_i hshared
      rw [Option.guard, if_pos (decide_eq_true hshared)]
      rfl
    · rename_i hshared
      rw [Option.guard, if_neg (mt of_decide_eq_true hshared)]
      rfl
  · intro founder hfounder
    simp only [getUsage, hload, ok_bind]
    refine congrArg Except.ok ?_
    have hnodup : ((GlobalMemoryDocument.ofPromotions promotions).usage.map
        GlobalLessonUsage.lessonId).Nodup := by
      rwa [GlobalMemoryDocument.usage_lessonId]
    rw [hresembles.usage]
    exact find?_key hnodup (List.mem_map_of_mem hfounder)

end Suggestions

/-- Two projects that promote one text, and one that asks for a lesson it does
not have. -/
def sharedRequests : List (PromotionRequest ℚ) :=
  let request (identifier projectRoot lessonId : String) : PromotionRequest ℚ := {
    stamp := ⟨identifier, "2026-01-01T00:00:00Z", "2026-01-01T00:00:00Z"⟩
    projectRoot
    lessonsPath := ".forge/lessons.yaml"
    lessons := .decoded { lessons := [{
      id := "lesson-a"
      text := "Cache the index."
      confidence := ⟨1, one_isConfidence⟩
      createdAt := ""
      updatedAt := "" }] }
    lessonId }
  [request "1" "/a" "lesson-a", request "2" "/c" "lesson-b", request "3" "/b" "lesson-a",
    request "4" "/a" "lesson-a"]

theorem PromotionRequest.suggested_after_shared :
    suggestPromotions (PromotionRequest.after .folding .absent sharedRequests) 2 =
      .ok [⟨"lesson-1", "Cache the index.", 2, ["/a", "/b"]⟩] := by
  have hids : ((Promotion.founders (sharedRequests.filterMap
      PromotionRequest.promotion?)).map Promotion.lessonId).Nodup := by decide
  refine (PromotionRequest.suggested_after .folding rfl hids (by decide) (by decide)
    2).1.trans ?_
  exact congrArg Except.ok (by decide +kernel)

end ForgeOS
