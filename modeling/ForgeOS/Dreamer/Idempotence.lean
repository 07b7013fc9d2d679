import ForgeOS.Dreamer.Tensions

/-!
A second scan at the same moment changes nothing. What a scan writes is given
in closed form by what it has read; what the next one reads is that and what
was written.
-/

namespace ForgeOS

open Library

/-! ### The texts -/

theorem head?_toList_append {front back : String} {c : Char}
    (h : front.toList.head? = some c) : (front ++ back).toList.head? = some c := by
  rw [String.toList_append, List.head?_append, h, Option.some_or]

theorem getLast?_toList_append {front back : String} {c : Char}
    (h : back.toList.getLast? = some c) : (front ++ back).toList.getLast? = some c := by
  rw [String.toList_append, List.getLast?_append, h, Option.some_or]

theorem ne_empty_of_head? {text : String} {c : Char} (h : text.toList.head? = some c) :
    text ≠ "" := by
  rintro rfl
  cases h

theorem Tension.summary_ne (tension : Tension) : tension.summary ≠ "" := by
  have hfirst : tension.summary.toList.head? = some 'T' := by
    unfold summary
    repeat apply head?_toList_append
    decide
  exact ne_empty_of_head? hfirst

theorem head?_recurrenceText (windowText stage : String) :
    (recurrenceText windowText stage).toList.head? = some 'S' := by
  unfold recurrenceText
  repeat apply head?_toList_append
  decide

/-- The validators leave the text of a proposal as it is. -/
theorem pyStrip_recurrenceText (windowText stage : String) :
    pyStrip (recurrenceText windowText stage) = recurrenceText windowText stage := by
  have hlast : (recurrenceText windowText stage).toList.getLast? = some '.' :=
    getLast?_toList_append (by decide)
  apply pyStrip_eq_self
  · intro c hc
    rw [head?_recurrenceText, Option.mem_some_iff] at hc
    rw [← hc]
    decide
  · intro c hc
    rw [hlast, Option.mem_some_iff] at hc
    rw [← hc]
    decide

theorem recurrenceText_ne (windowText stage : String) : recurrenceText windowText stage ≠ "" :=
  ne_empty_of_head? (head?_recurrenceText windowText stage)

/-! ### What is written -/

section Writing

variable (host : ReingestHost) (path : String) (run : ReingestRun) (windowDays : PyFloat)

/-- The lesson that is proposed for a stage. -/
def proposal (stage : String) : Lesson ℚ :=
  newLesson host.lower (run.lessonStamp stage) (recurrenceText (host.general windowDays) stage)
    proposalConfidence ["dreamer", "reingest"] (some stage) .reflection none []

theorem proposal_text (stage : String) :
    (proposal host run windowDays stage).text =
      recurrenceText (host.general windowDays) stage :=
  pyStrip_recurrenceText _ _

/-- A stage recurs, and no pending lesson has its text. -/
def Proposed (recurrence : Dict String Nat) (pendingTexts : List String) (stage : String) :
    Prop :=
  minStageRecurrence ≤ (recurrence.get? stage).getD 0 ∧
    recurrenceText (host.general windowDays) stage ∉ pendingTexts

instance (recurrence : Dict String Nat) (pendingTexts : List String) (stage : String) :
    Decidable (Proposed host windowDays recurrence pendingTexts stage) :=
  inferInstanceAs (Decidable (_ ∧ _))

/-- The lesson file after some lessons were added one by one. -/
def withLessons (file : LessonFile ℚ) (document : LessonDocument ℚ) :
    List (Lesson ℚ) → LessonFile ℚ
  | [] => file
  | lesson :: rest => .decoded { document with lessons := document.lessons ++ lesson :: rest }

theorem loadLessons_withLessons {file : LessonFile ℚ} {document : LessonDocument ℚ}
    (hload : loadLessons path file = .ok document) (lessons : List (Lesson ℚ)) :
    loadLessons path (withLessons file document lessons) =
      .ok { document with lessons := document.lessons ++ lessons } := by
  cases lessons with
  | nil => rw [withLessons, hload, List.append_nil]
  | cons lesson rest => rfl

theorem withLessons_cons (file : LessonFile ℚ) (document : LessonDocument ℚ) (lesson : Lesson ℚ)
    (rest : List (Lesson ℚ)) :
    withLessons (withLessons file document [lesson])
      { document with lessons := document.lessons ++ [lesson] } rest =
        withLessons file document (lesson :: rest) := by
  cases rest with
  | nil => rfl
  | cons other rest => rw [withLessons, withLessons, List.append_assoc]; rfl

variable {path}

variable {file : LessonFile ℚ} {document : LessonDocument ℚ} (reflections : ReflectionFiles)

/-- The turn of the loop for a stage that is proposed, -/
theorem exec_proposeLesson {recurrence : Dict String Nat} {pendingTexts : List String}
    {stage : String} (h : Proposed host windowDays recurrence pendingTexts stage)
    (lessonsProposed : List String) (hload : loadLessons path file = .ok document) :
    (proposeLesson host path run windowDays recurrence pendingTexts lessonsProposed stage).exec
        ⟨file, reflections⟩ =
      (.ok (lessonsProposed ++ [(proposal host run windowDays stage).id]),
        ⟨withLessons file document [proposal host run windowDays stage], reflections⟩) := by
  have hadd : (addLesson .exact host.lower path (run.lessonStamp stage)
      (recurrenceText (host.general windowDays) stage) proposalConfidence
      ["dreamer", "reingest"] (some stage) .reflection none []).exec file =
        (.ok (proposal host run windowDays stage),
          withLessons file document [proposal host run windowDays stage]) := by
    rw [addLesson, if_neg (by rw [pyStrip_recurrenceText]; exact recurrenceText_ne _ _)]
    simp only [Effect.exec_bind, Effect.exec_get, Effect.exec_ofExcept, hload]
    rw [exec_saveLessons (LessonDocument.kept_exact _)]
    rfl
  rw [proposeLesson, if_neg (not_lt.mpr h.1)]
  dsimp only
  rw [if_neg h.2]
  simp only [Effect.exec_bind, Effect.exec_within, Effect.exec_mapError, hadd, Effect.exec_pure]
  rfl

/-- and for any other stage. -/
theorem exec_proposeLesson_of_not {recurrence : Dict String Nat} {pendingTexts : List String}
    {stage : String} (h : ¬ Proposed host windowDays recurrence pendingTexts stage)
    (lessonsProposed : List String) (stores : DreamerStores) :
    (proposeLesson host path run windowDays recurrence pendingTexts lessonsProposed stage).exec
        stores = (.ok lessonsProposed, stores) := by
  unfold proposeLesson
  split
  · rfl
  · rename_i hcount
    dsimp only
    rw [if_pos (by_contra fun htext => h ⟨not_lt.mp hcount, htext⟩)]
    rfl

/-- The lessons that are proposed. -/
def proposals (recurrence : Dict String Nat) (pendingTexts stages : List String) :
    List (Lesson ℚ) :=
  (stages.filter fun stage => Proposed host windowDays recurrence pendingTexts stage).map
    (proposal host run windowDays)

/-- The loop over the stages. -/
theorem exec_proposeLessons (recurrence : Dict String Nat) (pendingTexts stages : List String)
    (lessonsProposed : List String) (hload : loadLessons path file = .ok document) :
    (stages.foldlM (proposeLesson host path run windowDays recurrence pendingTexts)
        lessonsProposed).exec ⟨file, reflections⟩ =
      (.ok (lessonsProposed ++
          (proposals host run windowDays recurrence pendingTexts stages).map Lesson.id),
        ⟨withLessons file document (proposals host run windowDays recurrence pendingTexts stages),
          reflections⟩) := by
  induction stages generalizing lessonsProposed file document with
  | nil => simp [proposals, withLessons]
  | cons stage rest ih =>
      rw [List.foldlM_cons, proposals]
      by_cases h : Proposed host windowDays recurrence pendingTexts stage
      · rw [Effect.exec_bind_ok _
            (exec_proposeLesson host run windowDays reflections h lessonsProposed hload),
          ih _ (loadLessons_withLessons path hload _), withLessons_cons,
          List.filter_cons_of_pos (by simpa using h), List.map_cons, List.map_cons,
          List.append_assoc]
        rfl
      · rw [Effect.exec_bind_ok _ (exec_proposeLesson_of_not host run windowDays h _ _),
          ih _ hload, List.filter_cons_of_neg (by simpa using h)]
        rfl

def tensionReflection (tension : Tension) : Reflection where
  id := s!"reflection-{(run.reflectionStamp tension.summary).uuid}"
  eventType := "DreamerTension"
  summary := tension.summary
  createdAt := (run.reflectionStamp tension.summary).timestamp
  metadata := [("lesson_a", .str tension.lessonA), ("lesson_b", .str tension.lessonB),
    ("shared_terms", .arr (tension.sharedTerms.map .str))]
  summary_nonempty := tension.summary_ne

def reflectionEntries (reflections : List Reflection) : ReflectionFiles :=
  reflections.map fun reflection => (reflection.fileName, .decoded { reflection := reflection })

theorem exec_recordTension (existingSummaries : List String) (tension : Tension)
    (stores : DreamerStores) :
    (recordTension run existingSummaries tension).exec stores =
      if tension.summary ∈ existingSummaries then (.ok existingSummaries, stores)
      else (.ok (tension.summary :: existingSummaries), { stores with
        reflections := stores.reflections.update
          (reflectionEntries [tensionReflection run tension]) }) := by
  unfold recordTension
  dsimp only
  split
  · rfl
  · rw [addReflection, dif_neg tension.summary_ne]
    rfl

/-- The loop over the tensions. -/
theorem exec_recordTensions (tensions : List Tension) (existingSummaries : List String)
    (stores : DreamerStores) :
    ∃ summaries, (tensions.foldlM (recordTension run) existingSummaries).exec stores =
      (.ok summaries, { stores with
        reflections := stores.reflections.update (reflectionEntries
          ((firstsFrom Tension.summary existingSummaries tensions).map
            (tensionReflection run))) }) := by
  induction tensions generalizing existingSummaries stores with
  | nil => exact ⟨existingSummaries, rfl⟩
  | cons tension rest ih =>
      rw [List.foldlM_cons, Effect.exec_bind, exec_recordTension, firstsFrom]
      by_cases hknown : tension.summary ∈ existingSummaries
      · rw [if_pos hknown, if_pos hknown]
        exact ih existingSummaries stores
      · rw [if_neg hknown, if_neg hknown]
        exact ih (tension.summary :: existingSummaries) _

end Writing

/-! ### One scan in closed form -/

theorem LessonDocument.mem_list {document : LessonDocument ℚ} {status : LessonStatus}
    {lesson : Lesson ℚ} :
    lesson ∈ document.list status none ↔ lesson ∈ document.lessons ∧ lesson.status = status := by
  rw [list, (List.perm_insertionSort _ _).mem_iff, List.mem_filter, decide_eq_true_eq]

/-- Lessons of another status do not show in a listing. -/
theorem LessonDocument.list_append {document : LessonDocument ℚ} {status : LessonStatus}
    {lessons : List (Lesson ℚ)} (h : ∀ lesson ∈ lessons, lesson.status ≠ status) :
    { document with lessons := document.lessons ++ lessons }.list status none =
      document.list status none := by
  have hnone : (lessons.filter fun lesson => lesson.status = status) = [] :=
    List.filter_eq_nil_iff.mpr fun lesson hlesson => by simpa using h lesson hlesson
  rw [list, list, List.filter_append, hnone, List.append_nil]

/-- What a scan reads before it writes. -/
structure ScanInput where
  all : List Reflection
  recent : List Reflection
  document : LessonDocument ℚ

namespace ScanInput

variable (host : ReingestHost) (run : ReingestRun) (windowDays : PyFloat) (input : ScanInput)

def pendingTexts : List String := (input.document.list .pending none).map Lesson.text

def stages : List String :=
  ((recurrenceByStage input.recent).map Prod.fst).insertionSort (· ≤ ·)

def lessons : List (Lesson ℚ) :=
  proposals host run windowDays (recurrenceByStage input.recent) input.pendingTexts input.stages

def tensions : List Tension := detectTensions host.lower (input.document.list .approved none)

def reflections : List Reflection :=
  (firstsFrom Tension.summary (input.all.map Reflection.summary) (input.tensions host)).map
    (tensionReflection run)

def report : ReingestReport where
  reflectionsScanned := input.recent.length
  tensions := input.tensions host
  lessonsProposed := (input.lessons host run windowDays).map Lesson.id

/-- The stores that a scan leaves behind. -/
def written (stores : DreamerStores) : DreamerStores where
  lessons := withLessons stores.lessons input.document (input.lessons host run windowDays)
  reflections := stores.reflections.update (reflectionEntries (input.reflections host run))

theorem status_of_mem_lessons {lesson : Lesson ℚ}
    (h : lesson ∈ input.lessons host run windowDays) : lesson.status = .pending := by
  obtain ⟨stage, -, rfl⟩ := List.mem_map.mp h
  rfl

end ScanInput

section Scan

variable (host : ReingestHost) (path dir : String) (run : ReingestRun) (windowDays : PyFloat)

def readStores (timestamp : String) (stores : DreamerStores) :
    Except ReingestFailure ScanInput := do
  let start ← windowStart host windowDays timestamp
  let all ← (listReflections dir stores.reflections none).mapError .reflections
  let recent ← recentReflections host start all
  let document ← (loadLessons path stores.lessons).mapError .lessons
  return ⟨all, recent, document⟩

/-- A scan that cannot read its stores writes nothing. -/
theorem exec_reingestReflections (now : Option String) (stores : DreamerStores) :
    (reingestReflections host path dir run windowDays now).exec stores =
      match readStores host path dir windowDays (textOr now run.clock) stores with
      | .error failure => (.error failure, stores)
      | .ok input => (.ok (input.report host run windowDays),
          input.written host run windowDays stores) := by
  obtain ⟨file, files⟩ := stores
  unfold reingestReflections readStores listLessons
  cases hstart : windowStart host windowDays (textOr now run.clock) with
  | error failure => simp only [Effect.exec_bind, Effect.exec_ofExcept, error_bind]
  | ok start =>
  cases hall : listReflections dir files none with
  | error failure =>
      simp only [Effect.exec_bind, Effect.exec_ofExcept, Effect.exec_get, ok_bind, hall,
        error_mapError, error_bind]
  | ok all =>
  cases hrecent : recentReflections host start all with
  | error failure =>
      simp only [Effect.exec_bind, Effect.exec_ofExcept, Effect.exec_get, ok_bind, hall,
        ok_mapError, hrecent, error_bind]
  | ok recent =>
  cases hload : loadLessons path file with
  | error failure =>
      simp only [Effect.exec_bind, Effect.exec_ofExcept, Effect.exec_get, ok_bind, hall,
        ok_mapError, hrecent, hload, error_mapError, error_bind]
  | ok document =>
  let input : ScanInput := ⟨all, recent, document⟩
  have hproposed : (input.stages.foldlM (proposeLesson host path run windowDays
      (recurrenceByStage recent) input.pendingTexts) []).exec ⟨file, files⟩ =
        (.ok ((input.lessons host run windowDays).map Lesson.id),
          ⟨withLessons file document (input.lessons host run windowDays), files⟩) :=
    exec_proposeLessons host run windowDays files _ _ _ [] hload
  have hkept := loadLessons_withLessons path hload (input.lessons host run windowDays)
  have happroved : { document with
      lessons := document.lessons ++ input.lessons host run windowDays }.list .approved none =
        document.list .approved none :=
    LessonDocument.list_append fun lesson hlesson => by
      rw [input.status_of_mem_lessons host run windowDays hlesson]
      decide
  obtain ⟨summaries, hrecorded⟩ := exec_recordTensions run (input.tensions host)
    (all.map Reflection.summary) ⟨withLessons file document (input.lessons host run windowDays),
      files⟩
  unfold ScanInput.stages ScanInput.pendingTexts at hproposed
  unfold ScanInput.tensions at hrecorded
  dsimp only [input] at hproposed hkept happroved hrecorded
  simp only [Effect.exec_bind, Effect.exec_ofExcept, Effect.exec_get, ok_bind, hall,
    ok_mapError, hrecent, hload, Effect.exec_pure, hproposed, hkept, happroved, hrecorded]
  rfl

theorem readStores_eq_ok_iff {timestamp : String} {stores : DreamerStores} {input : ScanInput} :
    readStores host path dir windowDays timestamp stores = .ok input ↔
      (∃ start, windowStart host windowDays timestamp = .ok start ∧
        recentReflections host start input.all = .ok input.recent) ∧
      listReflections dir stores.reflections none = .ok input.all ∧
      loadLessons path stores.lessons = .ok input.document := by
  unfold readStores
  rw [bind_eq_ok_iff]
  constructor
  · rintro ⟨start, hstart, h⟩
    obtain ⟨all, hall, h⟩ := bind_eq_ok_iff.mp h
    obtain ⟨recent, hrecent, h⟩ := bind_eq_ok_iff.mp h
    obtain ⟨document, hload, h⟩ := bind_eq_ok_iff.mp h
    obtain rfl : ScanInput.mk all recent document = input := Except.ok.inj h
    exact ⟨⟨start, hstart, hrecent⟩, mapError_eq_ok_iff.mp hall, mapError_eq_ok_iff.mp hload⟩
  · rintro ⟨⟨start, hstart, hrecent⟩, hall, hload⟩
    refine ⟨start, hstart, ?_⟩
    rw [hall, ok_mapError, ok_bind, hrecent, ok_bind, hload]
    rfl

end Scan

/-! ### What the next scan reads -/

theorem getD_countStage (recurrence : Dict String Nat) (reflection : Reflection)
    (stage : String) : ((countStage recurrence reflection).get? stage).getD 0 =
      (recurrence.get? stage).getD 0 + if reflection.stageId = some stage then 1 else 0 := by
  unfold countStage
  cases hstage : reflection.stageId with
  | none => rfl
  | some other =>
      rw [Dict.get?_set]
      by_cases hsame : other = stage
      · simp [hsame]
      · simp [hsame]

/-- A stage recurs as often as it occurs. -/
theorem getD_recurrenceByStage (recent : List Reflection) (stage : String) :
    ((recurrenceByStage recent).get? stage).getD 0 =
      (recent.filterMap Reflection.stageId).count stage := by
  suffices h : ∀ recurrence : Dict String Nat,
      ((recent.foldl countStage recurrence).get? stage).getD 0 =
        (recurrence.get? stage).getD 0 + (recent.filterMap Reflection.stageId).count stage from
    (h []).trans (Nat.zero_add _)
  induction recent with
  | nil => exact fun recurrence => rfl
  | cons reflection rest ih =>
      intro recurrence
      rw [List.foldl_cons, ih, getD_countStage, Nat.add_assoc]
      congr 1
      cases hstage : reflection.stageId with
      | none => rw [List.filterMap_cons_none hstage, if_neg nofun, Nat.zero_add]
      | some other =>
          rw [List.filterMap_cons_some hstage, List.count_cons, Nat.add_comm]
          simp

theorem mem_stages {recent : List Reflection} {stage : String}
    (h : 0 < ((recurrenceByStage recent).get? stage).getD 0) :
    stage ∈ (recurrenceByStage recent).map Prod.fst := by
  by_contra hmissing
  rw [Dict.get?_eq_none hmissing] at h
  cases h

/-- Reflections of no stage add nothing to the stages of the window. -/
theorem recentReflections_stages {host : ReingestHost} {start : PyDatetime}
    {all added all' recent recent' : List Reflection} (hall : all'.Perm (all ++ added))
    (hadded : ∀ reflection ∈ added, reflection.stageId = none)
    (h : recentReflections host start all = .ok recent)
    (h' : recentReflections host start all' = .ok recent') :
    (recent'.filterMap Reflection.stageId).Perm (recent.filterMap Reflection.stageId) := by
  obtain ⟨read, hread, h⟩ := bind_eq_ok_iff.mp h
  obtain ⟨read', hread', h'⟩ := bind_eq_ok_iff.mp h'
  obtain ⟨both, hboth, hperm⟩ := mapM_perm hall hread'
  obtain ⟨old, new, hold, hnew, rfl⟩ := mapM_append_eq_ok_iff.mp hboth
  obtain rfl : read = old := Except.ok.inj (hread.symm.trans hold)
  have hnone : ((new.filter Prod.snd).map Prod.fst).filterMap Reflection.stageId = [] := by
    rw [List.filterMap_eq_nil_iff]
    intro reflection hreflection
    obtain ⟨entry, hentry, rfl⟩ := List.mem_map.mp hreflection
    obtain ⟨item, hitem, hvalue⟩ := mem_of_mapM_eq_ok hnew (List.mem_filter.mp hentry).1
    obtain ⟨within, -, hvalue⟩ := bind_eq_ok_iff.mp hvalue
    rw [← Except.ok.inj hvalue]
    exact hadded item hitem
  rw [← Except.ok.inj h, ← Except.ok.inj h']
  have hstages := ((hperm.filter Prod.snd).map Prod.fst).filterMap Reflection.stageId
  rwa [List.filter_append, List.map_append, List.filterMap_append, hnone, List.append_nil]
    at hstages

/-- The reflections that a scan adds go to files of their own: the names
contain uuids. -/
structure ReingestRun.DrawsNewFiles (run : ReingestRun) (tensions : List Tension)
    (files : ReflectionFiles) : Prop where
  unused : ∀ tension ∈ tensions, (tensionReflection run tension).fileName ∉ files.map Prod.fst
  distinct : ∀ tension ∈ tensions, ∀ other ∈ tensions,
    (tensionReflection run tension).fileName = (tensionReflection run other).fileName →
      tension.summary = other.summary

/-- What the next scan of the same moment reads. -/
structure ScanInput.Next (host : ReingestHost) (run : ReingestRun) (windowDays : PyFloat)
    (input next : ScanInput) : Prop where
  document : next.document = { input.document with
    lessons := input.document.lessons ++ input.lessons host run windowDays }
  all : next.all.Perm (input.all ++ input.reflections host run)
  stages : (next.recent.filterMap Reflection.stageId).Perm
    (input.recent.filterMap Reflection.stageId)

section Next

variable {host : ReingestHost} {path dir : String} {run : ReingestRun} {windowDays : PyFloat}
  {input next : ScanInput}

/-- New files stand beside the old ones. -/
theorem ScanInput.written_reflections {stores : DreamerStores}
    (hfresh : run.DrawsNewFiles (input.tensions host) stores.reflections) :
    (input.written host run windowDays stores).reflections =
      stores.reflections ++ reflectionEntries (input.reflections host run) := by
  have hnames : (reflectionEntries (input.reflections host run)).map Prod.fst =
      (firstsFrom Tension.summary (input.all.map Reflection.summary) (input.tensions host)).map
        fun tension => (tensionReflection run tension).fileName := by
    rw [reflectionEntries, reflections, List.map_map, List.map_map]
    rfl
  have hmem {tension : Tension} (h : tension ∈ firstsFrom Tension.summary
      (input.all.map Reflection.summary) (input.tensions host)) :
      tension ∈ input.tensions host := (firstsFrom_sublist _ _).mem h
  apply Dict.update_of_fresh
  · rw [hnames, List.Nodup, List.pairwise_map]
    have hsummaries : ((firstsFrom Tension.summary (input.all.map Reflection.summary)
        (input.tensions host)).map Tension.summary).Nodup := nodup_keys_firstsFrom _ _
    rw [List.Nodup, List.pairwise_map] at hsummaries
    apply hsummaries.imp_of_mem
    intro tension other htension hother hne heq
    exact hne (hfresh.distinct tension (hmem htension) other (hmem hother) heq)
  · intro name hname
    rw [hnames] at hname
    obtain ⟨tension, htension, rfl⟩ := List.mem_map.mp hname
    exact hfresh.unused tension (hmem htension)

theorem ScanInput.next_of_readStores {timestamp : String} {stores : DreamerStores}
    (hread : readStores host path dir windowDays timestamp stores = .ok input)
    (hfresh : run.DrawsNewFiles (input.tensions host) stores.reflections)
    (hagain : readStores host path dir windowDays timestamp
      (input.written host run windowDays stores) = .ok next) :
    input.Next host run windowDays next := by
  obtain ⟨⟨start, hstart, hrecent⟩, hall, hload⟩ := (readStores_eq_ok_iff ..).mp hread
  obtain ⟨⟨start', hstart', hrecent'⟩, hall', hload'⟩ := (readStores_eq_ok_iff ..).mp hagain
  obtain rfl : start = start' := Except.ok.inj (hstart.symm.trans hstart')
  obtain ⟨listed, hlisted, hperm⟩ := listReflections_append hall (input.reflections host run)
  rw [written_reflections hfresh] at hall'
  obtain rfl : next.all = listed := Except.ok.inj (hall'.symm.trans hlisted)
  rw [written, loadLessons_withLessons path hload] at hload'
  refine ⟨(Except.ok.inj hload').symm, hperm, recentReflections_stages hperm ?_ hrecent hrecent'⟩
  intro reflection hreflection
  obtain ⟨tension, -, rfl⟩ := List.mem_map.mp hreflection
  rfl

namespace ScanInput.Next

theorem tensions_eq (h : input.Next host run windowDays next) :
    next.tensions host = input.tensions host := by
  rw [tensions, tensions, h.document, LessonDocument.list_append]
  intro lesson hlesson
  rw [input.status_of_mem_lessons host run windowDays hlesson]
  decide

/-- Every tension has been recorded. -/
theorem reflections_eq_nil (h : input.Next host run windowDays next) (other : ReingestRun) :
    next.reflections host other = [] := by
  have hknown : ∀ tension ∈ next.tensions host,
      tension.summary ∈ next.all.map Reflection.summary := by
    intro tension htension
    rw [h.tensions_eq] at htension
    rw [(h.all.map Reflection.summary).mem_iff, List.map_append, List.mem_append]
    by_cases hold : tension.summary ∈ input.all.map Reflection.summary
    · exact Or.inl hold
    · right
      have hnew := mem_keys_firstsFrom.mpr ⟨List.mem_map_of_mem htension, hold⟩
      rw [reflections, List.map_map]
      exact hnew
  rw [reflections, firstsFrom_eq_nil hknown, List.map_nil]

/-- Every stage that recurs has its pending lesson. -/
theorem lessons_eq_nil (h : input.Next host run windowDays next) (other : ReingestRun) :
    next.lessons host other windowDays = [] := by
  rw [lessons, proposals, List.map_eq_nil_iff, List.filter_eq_nil_iff]
  intro stage _ hproposed
  obtain ⟨hcount, hmissing⟩ := of_decide_eq_true hproposed
  have hsame : ((recurrenceByStage next.recent).get? stage).getD 0 =
      ((recurrenceByStage input.recent).get? stage).getD 0 := by
    rw [getD_recurrenceByStage, getD_recurrenceByStage, h.stages.count_eq]
  rw [hsame] at hcount
  apply hmissing
  by_cases hold : recurrenceText (host.general windowDays) stage ∈ input.pendingTexts
  · obtain ⟨lesson, hlesson, htext⟩ := List.mem_map.mp hold
    obtain ⟨hmem, hpending⟩ := LessonDocument.mem_list.mp hlesson
    refine List.mem_map.mpr ⟨lesson, LessonDocument.mem_list.mpr ⟨?_, hpending⟩, htext⟩
    rw [h.document]
    exact List.mem_append_left _ hmem
  · have hstage : stage ∈ input.stages := by
      apply (List.perm_insertionSort _ _).mem_iff.mpr
      exact mem_stages (lt_of_lt_of_le (by decide) hcount)
    have hlesson : proposal host run windowDays stage ∈ input.lessons host run windowDays :=
      List.mem_map_of_mem (List.mem_filter.mpr ⟨hstage, decide_eq_true ⟨hcount, hold⟩⟩)
    refine List.mem_map.mpr ⟨proposal host run windowDays stage,
      LessonDocument.mem_list.mpr ⟨?_, rfl⟩, proposal_text host run windowDays stage⟩
    rw [h.document]
    exact List.mem_append_right _ hlesson

theorem written_eq (h : input.Next host run windowDays next) (other : ReingestRun)
    (stores : DreamerStores) :
    next.written host other windowDays stores = stores := by
  rw [written, h.lessons_eq_nil, h.reflections_eq_nil]
  rfl

end ScanInput.Next

/-- A text that is read as a moment of UTC, as `utc_now()` gives it. -/
def ReingestHost.ReadsUtc (host : ReingestHost) (timestamp : String) : Prop :=
  ∃ micros, parseTimestamp host.fromisoformat timestamp = .ok (.aware micros)

theorem inWindow_of_readsUtc {reflection : Reflection}
    (hutc : host.ReadsUtc reflection.createdAt) (start : Int) :
    ∃ within, inWindow host (.aware start) reflection = .ok within := by
  obtain ⟨micros, hmicros⟩ := hutc
  refine ⟨decide (0 ≤ micros - start), ?_⟩
  rw [inWindow, hmicros]
  rfl

theorem recentReflections_isOk_iff {start : PyDatetime} {all : List Reflection} :
    (∃ recent, recentReflections host start all = .ok recent) ↔
      ∀ reflection ∈ all, ∃ within, inWindow host start reflection = .ok within := by
  constructor
  · rintro ⟨recent, h⟩ reflection hreflection
    obtain ⟨read, hread, -⟩ := bind_eq_ok_iff.mp h
    obtain ⟨entry, hentry⟩ := mapM_eq_ok_iff.mp ⟨read, hread⟩ reflection hreflection
    obtain ⟨within, hwithin, -⟩ := bind_eq_ok_iff.mp hentry
    exact ⟨within, hwithin⟩
  · intro h
    have hentries : ∀ reflection ∈ all, ∃ entry, (do
        return (reflection, ← inWindow host start reflection) :
          Except ReingestFailure (Reflection × Bool)) = .ok entry := by
      intro reflection hreflection
      obtain ⟨within, hwithin⟩ := h reflection hreflection
      exact ⟨(reflection, within), bind_eq_ok_iff.mpr ⟨within, hwithin, rfl⟩⟩
    obtain ⟨read, hread⟩ := mapM_eq_ok_iff.mpr hentries
    exact ⟨_, bind_eq_ok_iff.mpr ⟨read, hread, rfl⟩⟩

/-- Where moments are of UTC, what a scan leaves can be read. -/
theorem exists_next {timestamp : String} {stores : DreamerStores}
    (hread : readStores host path dir windowDays timestamp stores = .ok input)
    (hfresh : run.DrawsNewFiles (input.tensions host) stores.reflections)
    (hwindow : ∃ micros, windowStart host windowDays timestamp = .ok (.aware micros))
    (hutc : ∀ summary, host.ReadsUtc (run.reflectionStamp summary).timestamp) :
    ∃ next, readStores host path dir windowDays timestamp
      (input.written host run windowDays stores) = .ok next := by
  obtain ⟨micros, hmicros⟩ := hwindow
  obtain ⟨⟨start, hstart, hrecent⟩, hall, hload⟩ := (readStores_eq_ok_iff ..).mp hread
  obtain rfl : start = .aware micros := Except.ok.inj (hstart.symm.trans hmicros)
  obtain ⟨listed, hlisted, hperm⟩ := listReflections_append hall (input.reflections host run)
  have hreadable : ∀ reflection ∈ listed,
      ∃ within, inWindow host (.aware micros) reflection = .ok within := by
    intro reflection hreflection
    rcases List.mem_append.mp (hperm.mem_iff.mp hreflection) with hold | hnew
    · exact recentReflections_isOk_iff.mp ⟨_, hrecent⟩ reflection hold
    · obtain ⟨tension, -, rfl⟩ := List.mem_map.mp hnew
      have hcreated : host.ReadsUtc (tensionReflection run tension).createdAt :=
        hutc tension.summary
      exact inWindow_of_readsUtc hcreated micros
  obtain ⟨recent, hrecent'⟩ := recentReflections_isOk_iff.mpr hreadable
  refine ⟨⟨listed, recent, { input.document with
    lessons := input.document.lessons ++ input.lessons host run windowDays }⟩, ?_⟩
  refine (readStores_eq_ok_iff ..).mpr ⟨⟨.aware micros, hstart, hrecent'⟩, ?_, ?_⟩
  · rw [ScanInput.written_reflections hfresh]
    exact hlisted
  · exact loadLessons_withLessons path hload _

end Next

/-- A second scan leaves both stores as the first one did and proposes nothing.
It returns if the first one did and the moments are of UTC; a `now` without a
time zone cannot be compared with what the first scan recorded. -/
theorem reingestReflections_idempotent (host : ReingestHost) (path dir : String)
    (windowDays : PyFloat) (now : Option String) (first second : ReingestRun)
    (stores : DreamerStores) (hnow : textOr now second.clock = textOr now first.clock)
    (hfresh : ∀ document, loadLessons path stores.lessons = .ok document →
      first.DrawsNewFiles (detectTensions host.lower (document.list .approved none))
        stores.reflections) :
    let once := (reingestReflections host path dir first windowDays now).exec stores
    let again := (reingestReflections host path dir second windowDays now).exec once.2
    again.2 = once.2 ∧ (∀ report, again.1 = .ok report → report.lessonsProposed = []) ∧
      (once.1.isOk = true →
        (∃ micros, windowStart host windowDays (textOr now first.clock) = .ok (.aware micros)) →
        (∀ summary, host.ReadsUtc (first.reflectionStamp summary).timestamp) →
        again.1.isOk = true) := by
  intro once again
  have honce : once = _ := exec_reingestReflections host path dir first windowDays now stores
  have hagain : again = _ :=
    exec_reingestReflections host path dir second windowDays now once.2
  rw [hnow] at hagain
  cases hread : readStores host path dir windowDays (textOr now first.clock) stores with
  | error failure =>
      rw [hread] at honce
      rw [honce, hread] at hagain
      rw [hagain, honce]
      exact ⟨rfl, nofun, nofun⟩
  | ok input =>
      have hnew := hfresh input.document ((readStores_eq_ok_iff ..).mp hread).2.2
      rw [hread] at honce
      rw [honce] at hagain ⊢
      cases hnext : readStores host path dir windowDays (textOr now first.clock)
          (input.written host first windowDays stores) with
      | error failure =>
          rw [hnext] at hagain
          rw [hagain]
          refine ⟨rfl, nofun, fun _ hwindow hutc => ?_⟩
          obtain ⟨next, hnext'⟩ := exists_next hread hnew hwindow hutc
          rw [hnext] at hnext'
          cases hnext'
      | ok next =>
          have hfollows := ScanInput.next_of_readStores hread hnew hnext
          rw [hnext] at hagain
          rw [hagain]
          refine ⟨hfollows.written_eq second _, ?_, fun _ _ _ => rfl⟩
          rintro report hreport
          rw [← Except.ok.inj hreport, ScanInput.report, hfollows.lessons_eq_nil]
          rfl

/-! A project with two lessons at odds and three reflections of one stage. -/

def ReingestHost.demo : ReingestHost where
  lower text := String.ofList (text.toList.map Char.toLower)
  fromisoformat text :=
    if text = "2026-06-10T08:00:00+00:00" then some (.aware 1781078400000000) else none
  minusDays _ moment :=
    match moment with
    | .aware micros => some (.aware (micros - 7 * 86400 * 1000000))
    | .naive micros => some (.naive (micros - 7 * 86400 * 1000000))
  general _ := "7"

def toolsLesson (id text : String) : Lesson ℚ where
  id := id
  text := text
  status := .approved
  confidence := ⟨1, zero_le_one, le_rfl⟩
  tags := ["tools"]
  createdAt := "2026-06-01T08:00:00Z"
  updatedAt := "2026-06-01T08:00:00Z"

def srsReflection (id : String) : Reflection where
  id := id
  stageId := some "srs"
  eventType := "StageCompleted"
  summary := "Stage `srs` completed; reflection captured for lesson review."
  createdAt := "2026-06-10T08:00:00Z"
  summary_nonempty := by decide

def LessonDocument.demo : LessonDocument ℚ where
  lessons := [toolsLesson "lesson-1" "Never pin tools.",
    toolsLesson "lesson-2" "Always pin tools."]

def DreamerStores.demo : DreamerStores where
  lessons := .decoded .demo
  reflections := reflectionEntries
    [srsReflection "reflection-1", srsReflection "reflection-2", srsReflection "reflection-3"]

def ReingestRun.demo (uuid : String) : ReingestRun where
  clock := "2026-06-10T08:00:00Z"
  lessonStamp _ := ⟨uuid, "2026-06-10T08:00:00Z"⟩
  reflectionStamp _ := ⟨uuid, "2026-06-10T08:00:00Z"⟩

theorem detectTensions_demo :
    detectTensions ReingestHost.demo.lower (LessonDocument.demo.list .approved none) =
      [⟨"lesson-1", "lesson-2", ["tools"]⟩] := by
  decide +kernel

theorem parseTimestamp_demo :
    parseTimestamp ReingestHost.demo.fromisoformat "2026-06-10T08:00:00Z" =
      .ok (.aware 1781078400000000) := by
  have htext : String.ofList ("2026-06-10T08:00:00Z".toList.flatMap fun c =>
      if c = 'Z' then "+00:00".toList else [c]) = "2026-06-10T08:00:00+00:00" := by
    decide +kernel
  unfold parseTimestamp
  rw [htext]
  rfl

theorem drawsNewFiles_demo :
    (ReingestRun.demo "7c9e6679-7425-40de-944b-e07fc1f90ae7").DrawsNewFiles
      [⟨"lesson-1", "lesson-2", ["tools"]⟩] DreamerStores.demo.reflections := by
  constructor
  · intro tension htension
    rw [List.mem_singleton.mp htension]
    decide +kernel
  · intro tension htension other hother _
    rw [List.mem_singleton.mp htension, List.mem_singleton.mp hother]

theorem windowStart_demo : windowStart .demo (.finite 7) "2026-06-10T08:00:00Z" =
    .ok (.aware 1780473600000000) := by
  rw [windowStart, parseTimestamp_demo]
  rfl

theorem toOption_demo :
    ((reingestReflections .demo "lessons.yaml" "reflections"
      (.demo "7c9e6679-7425-40de-944b-e07fc1f90ae7") (.finite 7) none).exec .demo).1.toOption =
      some ⟨3, [⟨"lesson-1", "lesson-2", ["tools"]⟩],
        ["lesson-7c9e6679-7425-40de-944b-e07fc1f90ae7"]⟩ := by
  decide +kernel

/-- The first of two scans proposes a lesson and records a tension, the second
one finds both. -/
theorem reingestReflections_idempotent_demo :
    let once := (reingestReflections .demo "lessons.yaml" "reflections"
      (.demo "7c9e6679-7425-40de-944b-e07fc1f90ae7") (.finite 7) none).exec .demo
    let again := (reingestReflections .demo "lessons.yaml" "reflections"
      (.demo "16fd2706-8baf-433b-82eb-8c7fada847da") (.finite 7) none).exec once.2
    once.1.toOption = some ⟨3, [⟨"lesson-1", "lesson-2", ["tools"]⟩],
      ["lesson-7c9e6679-7425-40de-944b-e07fc1f90ae7"]⟩ ∧
      again.2 = once.2 ∧ again.1.isOk = true := by
  have hfresh (document : LessonDocument ℚ)
      (hload : loadLessons "lessons.yaml" DreamerStores.demo.lessons = .ok document) :
      (ReingestRun.demo "7c9e6679-7425-40de-944b-e07fc1f90ae7").DrawsNewFiles
        (detectTensions ReingestHost.demo.lower (document.list .approved none))
        DreamerStores.demo.reflections := by
    rw [← Except.ok.inj hload, detectTensions_demo]
    exact drawsNewFiles_demo
  have hboth := reingestReflections_idempotent .demo "lessons.yaml" "reflections"
    (.finite 7) none (.demo "7c9e6679-7425-40de-944b-e07fc1f90ae7")
    (.demo "16fd2706-8baf-433b-82eb-8c7fada847da") .demo rfl hfresh
  dsimp only at hboth ⊢
  exact ⟨toOption_demo, hboth.1, hboth.2.2 (isOk_of_toOption toOption_demo)
    ⟨1780473600000000, windowStart_demo⟩ fun _ => ⟨1781078400000000, parseTimestamp_demo⟩⟩

end ForgeOS
