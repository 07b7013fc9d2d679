import ForgeOS.Context.Lazy

/-!
The lessons in the context of a stage agent. They get there on two ways: the
lesson store renders the approved ones with high confidence, and the lazy
context lists those with low confidence in its index.
-/

namespace ForgeOS

open Library

/-- The lazy context in the payload, or the error put in its place. -/
inductive LazyContext where
  | built (bundle : LazyContextBundle)
  | failed (error : String)

def LazyContext.lessonIndex : LazyContext → List Indexed
  | .built bundle => bundle.lessonIndex
  | .failed _ => []

/-- The lessons of a context; nothing else in it is made of lessons. -/
structure StageContext where
  stageId : String
  approvedLessons : List (ContextLesson ℚ)
  lazyContext : LazyContext

/-- The double nearest to `0.8`, the bound of `render_context`. -/
def minConfidence : ℚ := mkRat 7205759403792794 (2 ^ 53)

/-- An error of the lesson store, where nothing catches it. -/
def ContextFailure.uncaught : LessonFailure → ContextFailure
  | .store message => .lessonStore message
  | .valueError => .valueError

section Assembly

variable (host : LazyHost) (skills : List SkillFile) (path timestamp stageId : String)
  (tokenBudget : Int)

/-- `_stage_context`. An error of the lazy context is put into the payload. -/
def stageContext (file : LessonFile ℚ) (approved : List (ContextLesson ℚ)) :
    Except ContextFailure StageContext :=
  match buildLazyContext host skills path file stageId tokenBudget with
  | .ok bundle => .ok ⟨stageId, approved, .built bundle⟩
  | .error (.lazy message) => .ok ⟨stageId, approved, .failed message⟩
  | .error failure => .error failure

/-- What `run_stage_agent` does to get at the context. -/
def assembleContext : Effect (LessonFile ℚ) ContextFailure StageContext := do
  let approved ← (renderContext .exact path timestamp (some stageId) minConfidence 5).mapError
    ContextFailure.uncaught
  Effect.ofExcept (stageContext host skills path stageId tokenBudget (← get) approved)

end Assembly

def Lesson.Live (lesson : Lesson ℚ) : Prop := lesson.status = .approved ∧ lesson.dormant = false

namespace StageContext

/-- The lessons of which something stands in the context. -/
def lessons (context : StageContext) : List (Lesson ℚ) :=
  context.approvedLessons.map Rendered.lesson ++ context.lazyContext.lessonIndex.map Rendered.lesson

end StageContext

/-- Only live lessons stand in the context that is assembled, if one is. -/
def OnlyLive (host : LazyHost) (skills : List SkillFile) (path timestamp stageId : String)
    (tokenBudget : Int) (file : LessonFile ℚ) : Prop :=
  ∀ context, ((assembleContext host skills path timestamp stageId tokenBudget).exec file).1 =
    .ok context → ∀ lesson ∈ context.lessons, lesson.Live

namespace LessonDocument

def LastLive (document : LessonDocument ℚ) (stageId : String) : Prop :=
  ∀ lesson ∈ document.approvedForContext (some stageId) minConfidence 5,
    ∀ last, document.lastWithId lesson.id = some last → last.Live

/-- The key by which lessons of the index are trimmed. -/
def trimKey (lesson : Lesson ℚ) : Lex (ℚ × String) := toLex (lesson.confidence.1, lesson.id)

/-- A dormant lesson with low confidence does not fit the budget together with
the menu and all the lessons that would be trimmed after it. -/
def DormantTrimmed (host : LazyHost) (menu : List SkillEntry) (budget : Nat)
    (document : LessonDocument ℚ) (stageId : String) : Prop :=
  ∀ before lesson after,
    document.lowConfidence (some stageId) maxConfidence = before ++ lesson :: after →
    lesson.dormant = true → budget < menuTokens host menu +
      weightFrom trimKey (fun lesson => entryTokens host lesson.indexEntry.json)
        before lesson after

end LessonDocument

/-- The store keeps what is not live out of the context of a stage. Without a
positive budget the index is empty; where the menu or the budget raises, there
is no context. -/
def KeepsOut (host : LazyHost) (skills : List SkillFile) (path stageId : String)
    (tokenBudget : Int) (file : LessonFile ℚ) : Prop :=
  ∀ document, loadLessons path file = .ok document →
    (tokenBudget < 1 → document.LastLive stageId) ∧
    (1 ≤ tokenBudget → ∀ menu budget, skillMenu host skills = .ok menu →
      lazyBudget tokenBudget.toNat = .ok budget →
      document.LastLive stageId ∧ document.DormantTrimmed host menu budget stageId)

/-! ### The rendered lessons -/

section Approved

variable {document : LessonDocument ℚ} {stageId timestamp : String}

private theorem live_touch_iff (selectedIds : List String) (timestamp : String)
    (lesson : Lesson ℚ) : (lesson.touch selectedIds timestamp).Live ↔ lesson.Live := by
  rw [Lesson.Live, Lesson.touch_status, Lesson.touch_dormant]
  rfl

/-- The entries for the selected lessons are made of the last lessons of their
ids. -/
theorem rendered_live_iff (document : LessonDocument ℚ) (stageId timestamp : String) :
    (∀ rendered ∈ document.rendered ((document.approvedForContext (some stageId) minConfidence
        5).map Lesson.id) timestamp, rendered.lesson.Live) ↔ document.LastLive stageId := by
  constructor
  · intro h lesson hlesson last hlast
    have hid := List.mem_map_of_mem (f := Lesson.id) hlesson
    have hlive := h _ (List.mem_filterMap.mpr ⟨lesson.id, hid, by rw [hlast]; rfl⟩)
    exact (live_touch_iff _ timestamp last).mp hlive
  · intro h rendered hrendered
    obtain ⟨id, hid, hsome⟩ := List.mem_filterMap.mp hrendered
    obtain ⟨lesson, hlesson, rfl⟩ := List.mem_map.mp hid
    obtain ⟨last, hlast, rfl⟩ := Option.map_eq_some_iff.mp hsome
    exact (live_touch_iff _ timestamp last).mpr (h lesson hlesson last hlast)

end Approved

/-! ### The index -/

section Index

variable {document : LessonDocument ℚ}

/-- An entry of the index, as it is made after the rendering. -/
private def indexedAfter (selectedIds : List String) (timestamp : String) (lesson : Lesson ℚ) :
    Indexed :=
  (lesson.touch selectedIds timestamp).rendered Lesson.indexEntry

private theorem indexedAfter_entry (selectedIds : List String) (timestamp : String)
    (lesson : Lesson ℚ) :
    (indexedAfter selectedIds timestamp lesson).entry = lesson.indexEntry := by
  change (lesson.touch selectedIds timestamp).indexEntry = lesson.indexEntry
  unfold Lesson.touch
  split <;> rfl

private theorem lessonIndex_touch (document : LessonDocument ℚ) (selectedIds : List String)
    (timestamp : String) (stageId : Option String) :
    lessonIndex (document.touch selectedIds timestamp) stageId =
      (document.lowConfidence stageId maxConfidence).map (indexedAfter selectedIds timestamp) := by
  rw [lessonIndex, LessonDocument.lowConfidence, LessonDocument.list_touch, List.filter_map,
    List.map_map]
  have hsame : ((fun lesson : Lesson ℚ => decide (lesson.confidence.1 < maxConfidence)) ∘
      Lesson.touch selectedIds timestamp) =
        fun lesson => decide (lesson.confidence.1 < maxConfidence) := by
    funext lesson
    rw [Function.comp_apply, Lesson.touch_confidence]
  rw [hsame]
  rfl

private theorem weightFrom_indexedAfter (host : LazyHost) (selectedIds : List String)
    (timestamp : String) (before : List (Lesson ℚ)) (lesson : Lesson ℚ)
    (after : List (Lesson ℚ)) :
    weightFrom Indexed.key (Indexed.tokens host) (before.map (indexedAfter selectedIds timestamp))
        (indexedAfter selectedIds timestamp lesson)
        (after.map (indexedAfter selectedIds timestamp)) =
      weightFrom LessonDocument.trimKey (fun lesson => entryTokens host lesson.indexEntry.json)
        before lesson after := by
  have hkey : (fun lesson => (indexedAfter selectedIds timestamp lesson).key) =
      LessonDocument.trimKey := by
    funext lesson
    rw [Indexed.key, indexedAfter_entry]
    rfl
  have htokens : (fun lesson => (indexedAfter selectedIds timestamp lesson).tokens host) =
      fun lesson => entryTokens host lesson.indexEntry.json := by
    funext lesson
    rw [Indexed.tokens, indexedAfter_entry]
  rw [weightFrom_map, hkey, htokens]

private theorem approved_of_lowConfidence {stageId : Option String} {bound : ℚ}
    {lesson : Lesson ℚ} (h : lesson ∈ document.lowConfidence stageId bound) :
    lesson.status = .approved := by
  have hlisted := (List.mem_filter.mp h).1
  unfold LessonDocument.list at hlisted
  rw [List.mem_insertionSort] at hlisted
  cases stageId with
  | none => exact of_decide_eq_true (List.mem_filter.mp hlisted).2
  | some stage =>
      exact of_decide_eq_true (List.mem_filter.mp (List.mem_filter.mp hlisted).1).2

/-- The index is left with live lessons exactly when the dormant ones are
trimmed. -/
theorem index_live_iff (host : LazyHost) (menu : List SkillEntry) (budget : Nat)
    (document : LessonDocument ℚ) (selectedIds : List String) (timestamp stageId : String) :
    (∀ indexed ∈ (trimIndex host menu budget
        (lessonIndex (document.touch selectedIds timestamp) (some stageId)).length
        (lessonIndex (document.touch selectedIds timestamp) (some stageId))).1,
      indexed.lesson.Live) ↔ document.DormantTrimmed host menu budget stageId := by
  constructor
  · intro h before lesson after hsplit hdormant
    by_contra hfits
    rw [not_lt] at hfits
    have hlive := h (indexedAfter selectedIds timestamp lesson)
      ((mem_trimIndex_iff menu budget _ _).mpr
        ⟨before.map (indexedAfter selectedIds timestamp),
          after.map (indexedAfter selectedIds timestamp),
          by rw [lessonIndex_touch, hsplit, List.map_append, List.map_cons],
          by rwa [weightFrom_indexedAfter]⟩)
    have hawake := ((live_touch_iff _ _ lesson).mp hlive).2
    rw [hdormant] at hawake
    cases hawake
  · intro h indexed hindexed
    obtain ⟨before', after', hsplit, hfits⟩ := (mem_trimIndex_iff menu budget _ _).mp hindexed
    rw [lessonIndex_touch] at hsplit
    obtain ⟨before, rest, hlessons, rfl, hrest⟩ := List.map_eq_append_iff.mp hsplit
    obtain ⟨lesson, after, rfl, rfl, rfl⟩ := List.map_eq_cons_iff.mp hrest
    rw [weightFrom_indexedAfter] at hfits
    refine (live_touch_iff _ _ lesson).mpr ⟨?_, ?_⟩
    · exact approved_of_lowConfidence (by rw [hlessons]; simp)
    · by_contra hdormant
      have hover := h before lesson after hlessons (by simpa using hdormant)
      omega

end Index

/-! ### The context -/

section Context

variable (host : LazyHost) (skills : List SkillFile) {path : String}
  (timestamp stageId : String) (tokenBudget : Int) {file : LessonFile ℚ}

private theorem exec_assembleContext_of_error {failure : LessonFailure}
    (hload : loadLessons path file = .error failure) :
    (assembleContext host skills path timestamp stageId tokenBudget).exec file =
      (.error (.uncaught failure), file) := by
  simp only [assembleContext, Effect.exec_bind, Effect.exec_mapError,
    exec_renderContext_of_error _ _ _ _ _ hload]
  rfl

/-- After the rendering, the lazy context is built from the store with the
usage entered. -/
private theorem exec_assembleContext {document : LessonDocument ℚ}
    (hload : loadLessons path file = .ok document) :
    let selectedIds := (document.approvedForContext (some stageId) minConfidence 5).map Lesson.id
    ∃ file', loadLessons path file' = .ok (document.touch selectedIds timestamp) ∧
      ((assembleContext host skills path timestamp stageId tokenBudget).exec file).1 =
        stageContext host skills path stageId tokenBudget file'
          (document.rendered selectedIds timestamp) := by
  intro selectedIds
  obtain ⟨file', hexec, hload'⟩ := exec_renderContext_of_kept .exact timestamp (some stageId)
    minConfidence 5 hload (LessonDocument.kept_exact _)
  refine ⟨file', hload', ?_⟩
  simp only [assembleContext, Effect.exec_bind, Effect.exec_mapError, hexec, Effect.exec_get,
    Effect.exec_ofExcept]
  rfl

end Context

section Payload

variable {host : LazyHost} {skills : List SkillFile} {path stageId : String} {tokenBudget : Int}
  {file : LessonFile ℚ} (approved : List (ContextLesson ℚ))

private theorem stageContext_of_built {bundle : LazyContextBundle}
    (h : buildLazyContext host skills path file stageId tokenBudget = .ok bundle) :
    stageContext host skills path stageId tokenBudget file approved =
      .ok ⟨stageId, approved, .built bundle⟩ := by
  rw [stageContext, h]

private theorem stageContext_of_lazy {message : String}
    (h : buildLazyContext host skills path file stageId tokenBudget = .error (.lazy message)) :
    stageContext host skills path stageId tokenBudget file approved =
      .ok ⟨stageId, approved, .failed message⟩ := by
  rw [stageContext, h]

private theorem stageContext_of_error {failure : ContextFailure}
    (h : buildLazyContext host skills path file stageId tokenBudget = .error failure)
    (huncaught : ∀ message, failure ≠ .lazy message) :
    stageContext host skills path stageId tokenBudget file approved = .error failure := by
  rw [stageContext, h]
  cases failure with
  | lazy message => exact absurd rfl (huncaught message)
  | _ => rfl

end Payload

/-- The lessons of a context are those of its two parts. -/
theorem StageContext.live_iff (context : StageContext) :
    (∀ lesson ∈ context.lessons, lesson.Live) ↔
      (∀ rendered ∈ context.approvedLessons, rendered.lesson.Live) ∧
        ∀ indexed ∈ context.lazyContext.lessonIndex, indexed.lesson.Live := by
  simp only [lessons, List.forall_mem_append, List.forall_mem_map]

/-- Only live lessons reach the agent exactly when the store keeps out what is
not live. The lazy index asks for no dormancy, and the rendered lessons are
looked up by their ids, which another lesson of the store may have. -/
theorem onlyLive_iff (host : LazyHost) (skills : List SkillFile)
    (path timestamp stageId : String) (tokenBudget : Int) (file : LessonFile ℚ) :
    OnlyLive host skills path timestamp stageId tokenBudget file ↔
      KeepsOut host skills path stageId tokenBudget file := by
  unfold OnlyLive KeepsOut
  cases hload : loadLessons path file with
  | error failure =>
      rw [exec_assembleContext_of_error host skills timestamp stageId tokenBudget hload]
      exact iff_of_true (fun _ h => nomatch h) (fun _ h => nomatch h)
  | ok document =>
      obtain ⟨file', hload', hexec⟩ := exec_assembleContext host skills timestamp
        stageId tokenBudget hload
      rw [hexec]
      simp only [Except.ok.injEq, forall_eq']
      by_cases hpositive : tokenBudget < 1
      · rw [stageContext_of_lazy _ (buildLazyContext_of_not_positive hpositive _ _ _ _)]
        simp only [Except.ok.injEq, forall_eq', StageContext.live_iff, rendered_live_iff]
        simp [LazyContext.lessonIndex, hpositive, not_le.mpr hpositive]
      · have hone : 1 ≤ tokenBudget := not_lt.mp hpositive
        cases hmenu : skillMenu host skills with
        | error failure =>
            rw [stageContext_of_error _ (buildLazyContext_of_menu_error hone hmenu stageId)
              (skillMenu_error hmenu)]
            simp [hpositive]
        | ok menu =>
            cases hbudget : lazyBudget tokenBudget.toNat with
            | error failure =>
                have huncaught (message : String) : failure ≠ .lazy message := by
                  rw [lazyBudget_error hbudget]
                  exact nofun
                rw [stageContext_of_error _ (buildLazyContext_of_budget_error hone hmenu hload'
                  hbudget stageId) huncaught]
                simp [hpositive]
            | ok budget =>
                obtain ⟨bundle, hbuilt, hindex⟩ :=
                  buildLazyContext_of_ok hone hmenu hload' hbudget stageId
                rw [stageContext_of_built _ hbuilt]
                simp only [Except.ok.injEq, forall_eq', StageContext.live_iff, rendered_live_iff,
                  LazyContext.lessonIndex, hindex, index_live_iff]
                simp [hpositive, hone]

/-- Python's library on the index entry below. -/
def LazyHost.demo : LazyHost where
  dumps _ := "\x7b\"confidence\": 0.25, \"id\": \"lesson-1\", " ++
    "\"summary\": \"Pin the toolchain.\", \"tags\": []\x7d"
  str _ := "None"

/-- A lesson that decay has marked dormant. -/
def dormantLesson : Lesson ℚ where
  id := "lesson-1"
  text := "Pin the toolchain."
  status := .approved
  confidence := ⟨mkRat 1 4, by decide⟩
  createdAt := "2026-01-01T10:00:00Z"
  updatedAt := "2026-01-01T10:00:00Z"
  dormant := true
  dormantAt := some "2026-03-02T10:00:00Z"

/-- The agent finds it in the lesson index. -/
theorem not_onlyLive : ¬ OnlyLive LazyHost.demo [] "lessons.yaml" "2026-03-03T10:00:00Z" "srs" 2000
    (.decoded { lessons := [dormantLesson] }) := by
  intro hlive
  have hdormant : ((assembleContext LazyHost.demo [] "lessons.yaml" "2026-03-03T10:00:00Z" "srs"
      2000).exec (.decoded { lessons := [dormantLesson] })).1.toOption.map
        (fun context => context.lessons.map Lesson.dormant) = some [true] := by
    decide
  cases hcontext : ((assembleContext LazyHost.demo [] "lessons.yaml" "2026-03-03T10:00:00Z" "srs"
      2000).exec (.decoded { lessons := [dormantLesson] })).1 with
  | error failure =>
      rw [hcontext] at hdormant
      cases hdormant
  | ok context =>
      rw [hcontext] at hdormant
      have hlessons : context.lessons.map Lesson.dormant = [true] := Option.some.inj hdormant
      obtain ⟨lesson, hlesson, htrue⟩ := List.mem_map.mp (hlessons ▸ List.mem_singleton_self true)
      have hfalse := (hlive context hcontext lesson hlesson).2
      rw [htrue] at hfalse
      cases hfalse

end ForgeOS
