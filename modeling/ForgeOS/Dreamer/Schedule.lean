import ForgeOS.Dreamer.Decay

/-!
Decay over several runs. A run takes off for all the days since the last use,
also for those that earlier runs have taken off for, so that the confidence
depends on when the daemon runs.
-/

namespace ForgeOS

open Library

section Runs

variable {κ : Type} [LinearOrder κ] [Zero κ] [One κ] [DecayArithmetic κ]

namespace DecayTask

variable (task : DecayTask κ)

/-- The store after a run at some time, whether it raised or not. -/
def decayed (file : LessonFile κ) (timestamp : String) : LessonFile κ :=
  ((task.effect timestamp).exec file).2

/-- The lesson at some place of the store. -/
def lessonAt (file : LessonFile κ) (place : Nat) : Option (Lesson κ) :=
  match loadLessons task.path file with
  | .ok document => document.lessons[place]?
  | .error _ => none

end DecayTask

/-! ### A lesson in a run -/

namespace Lesson

section Decay

variable (settings : DecaySettings κ) (timestamp : String) (daysSinceUse : Days κ)
  (lesson : Lesson κ)

@[simp]
theorem decay_lastUse : (lesson.decay settings timestamp daysSinceUse).lastUse =
    lesson.lastUse := by
  unfold decay
  split <;> rfl

@[simp]
theorem decay_status : (lesson.decay settings timestamp daysSinceUse).status =
    lesson.status := by
  unfold decay
  split <;> rfl

@[simp]
theorem decay_confidence : (lesson.decay settings timestamp daysSinceUse).confidence =
    lesson.confidence.decayed settings.halfLife daysSinceUse := by
  unfold decay
  split <;> rfl

/-- A lesson that is awake falls asleep by the rules only. -/
theorem decay_dormant_iff (hawake : lesson.dormant = false) :
    (lesson.decay settings timestamp daysSinceUse).dormant = true ↔
      settings.Dormant daysSinceUse
        (lesson.confidence.decayed settings.halfLife daysSinceUse) := by
  unfold decay
  split
  · rename_i hrules
    exact iff_of_true rfl hrules
  · rename_i hrules
    exact iff_of_false (by simp [hawake]) hrules

theorem decay_examined_iff (hexamined : lesson.Examined) :
    (lesson.decay settings timestamp daysSinceUse).Examined ↔
      ¬ settings.Dormant daysSinceUse
        (lesson.confidence.decayed settings.halfLife daysSinceUse) := by
  rw [Examined, decay_status, and_iff_right hexamined.1, ← Bool.not_eq_true,
    decay_dormant_iff settings timestamp daysSinceUse lesson hexamined.2]

end Decay

section DecayAt

variable {fromisoformat : String → Option PyDatetime} {settings : DecaySettings κ}
  {timestamp : String} {now : PyDatetime} {lesson : Lesson κ}

theorem daysSinceUse_congr {other : Lesson κ} (h : lesson.lastUse = other.lastUse) :
    lesson.daysSinceUse fromisoformat now = other.daysSinceUse fromisoformat now := by
  rw [daysSinceUse, daysSinceUse, h]

@[simp]
theorem decayAt_lastUse (lesson : Lesson κ) :
    (lesson.decayAt fromisoformat settings timestamp now).lastUse = lesson.lastUse := by
  unfold decayAt
  split
  · split
    · exact decay_lastUse _ _ _ _
    · rfl
  · rfl

/-- A run does not wake a lesson. -/
theorem examined_of_decayAt
    (h : (lesson.decayAt fromisoformat settings timestamp now).Examined) : lesson.Examined := by
  by_contra hexamined
  rw [decayAt_of_not_examined settings timestamp hexamined] at h
  exact hexamined h

end DecayAt

end Lesson

theorem PyDatetime.sub_ok_iff {moment other : PyDatetime} :
    (∃ micros, moment.sub other = .ok micros) ↔ moment.isAware = other.isAware := by
  cases moment <;> cases other <;> simp [PyDatetime.sub, PyDatetime.isAware]

/-- A lesson can be dated at a time of the same kind as its last use. -/
theorem Lesson.daysSinceUse_ok_iff {fromisoformat : String → Option PyDatetime}
    {now : PyDatetime} {lesson : Lesson κ} :
    (∃ daysSinceUse, lesson.daysSinceUse fromisoformat now = .ok daysSinceUse) ↔
      ∃ moment, parseTimestamp fromisoformat lesson.lastUse = .ok moment ∧
        now.isAware = moment.isAware := by
  unfold Lesson.daysSinceUse
  cases hparse : parseTimestamp fromisoformat lesson.lastUse with
  | error failure => exact iff_of_false (fun ⟨_, h⟩ => nomatch h) (fun ⟨_, h, _⟩ => nomatch h)
  | ok moment =>
      simp only [ok_bind, Except.ok.injEq, exists_eq_left', ← PyDatetime.sub_ok_iff]
      cases hsub : now.sub moment with
      | error failure => exact iff_of_false (fun ⟨_, h⟩ => nomatch h) (fun ⟨_, h⟩ => nomatch h)
      | ok micros => exact iff_of_true ⟨_, rfl⟩ ⟨_, rfl⟩

/-! ### A store in a run -/

section Store

variable {task : DecayTask κ} {timestamp : String} {file : LessonFile κ}
  {settings : DecaySettings κ} {now : PyDatetime} {document : LessonDocument κ} {place : Nat}
  {lesson : Lesson κ}

namespace DecayTask

omit [DecayArithmetic κ] in
theorem lessonAt_of_loaded (h : loadLessons task.path file = .ok document) (place : Nat) :
    task.lessonAt file place = document.lessons[place]? := by
  rw [lessonAt, h]

theorem decayed_of_passes (h : task.Passes timestamp file settings now document) :
    task.decayed file timestamp = .decoded { document with
      lessons := document.lessons.map
        (Lesson.decayAt task.fromisoformat settings timestamp now) } := by
  rw [decayed, exec_effect_of_passes h]

theorem decayed_of_not_passes
    (h : ¬ ∃ settings now document, task.Passes timestamp file settings now document) :
    task.decayed file timestamp = file := by
  obtain ⟨failure, hexec⟩ := exec_effectWith_of_not_passes .exact h
  rw [decayed, effect, hexec]

/-- A run that goes through works on each lesson by itself. -/
theorem lessonAt_decayed (h : task.Passes timestamp file settings now document) (place : Nat) :
    task.lessonAt (task.decayed file timestamp) place = (task.lessonAt file place).map
      (Lesson.decayAt task.fromisoformat settings timestamp now) := by
  rw [decayed_of_passes h, lessonAt_of_loaded h.loaded, lessonAt_of_loaded rfl, List.getElem?_map]

/-- No run changes a lesson that it does not examine. -/
theorem lessonAt_decayed_of_not_examined (hlesson : task.lessonAt file place = some lesson)
    (hexamined : ¬ lesson.Examined) (timestamp : String) :
    task.lessonAt (task.decayed file timestamp) place = some lesson := by
  by_cases hpasses : ∃ settings now document, task.Passes timestamp file settings now document
  · obtain ⟨settings, now, document, h⟩ := hpasses
    rw [lessonAt_decayed h, hlesson, Option.map_some,
      Lesson.decayAt_of_not_examined settings timestamp hexamined]
  · rwa [decayed_of_not_passes hpasses]

theorem lessonAt_decayed_of_examined (h : task.Passes timestamp file settings now document)
    (hlesson : task.lessonAt file place = some lesson) (hexamined : lesson.Examined)
    {daysSinceUse : Days κ}
    (hdays : lesson.daysSinceUse task.fromisoformat now = .ok daysSinceUse) :
    task.lessonAt (task.decayed file timestamp) place =
      some (lesson.decay settings timestamp daysSinceUse) := by
  rw [lessonAt_decayed h, hlesson, Option.map_some,
    Lesson.decayAt_of_examined settings timestamp hexamined hdays]

end DecayTask

end Store

end Runs

noncomputable section

/-- The floor is never needed. -/
@[simp]
theorem Confidence.val_decayed (halfLife : HalfLife ℝ) (daysSinceUse : Days ℝ)
    (confidence : Confidence ℝ) :
    (confidence.decayed halfLife daysSinceUse).1 =
      halved halfLife.1 daysSinceUse.1 confidence.1 :=
  max_eq_left (halved_nonneg _ _ confidence.2.1)

theorem Confidence.decayed_injective (halfLife : HalfLife ℝ) (daysSinceUse : Days ℝ) :
    Function.Injective (Confidence.decayed halfLife daysSinceUse) := by
  intro first second h
  have hval := congrArg Subtype.val h
  rw [Confidence.val_decayed, Confidence.val_decayed] at hval
  exact Subtype.ext (halved_injective _ _ hval)

theorem Confidence.decayed_eq_self_iff {halfLife : HalfLife ℝ} {daysSinceUse : Days ℝ}
    {confidence : Confidence ℝ} :
    confidence.decayed halfLife daysSinceUse = confidence ↔
      confidence.1 = 0 ∨ daysSinceUse.1 = 0 := by
  rw [Subtype.ext_iff, Confidence.val_decayed]
  exact halved_eq_self_iff halfLife.2 daysSinceUse.2

namespace DecayTask

variable (task : DecayTask ℝ)

/-- Running twice leaves every lesson that the first run does not mark dormant
with the confidence that the second run alone leaves it with. -/
def ScheduleIndependent (first second : String) (file : LessonFile ℝ) : Prop :=
  ∀ place lesson, task.lessonAt file place = some lesson →
    (task.lessonAt (task.decayed file first) place).map Lesson.dormant = some lesson.dormant →
    (task.lessonAt (task.decayed (task.decayed file first) second) place).map
        Lesson.confidence =
      (task.lessonAt (task.decayed file second) place).map Lesson.confidence

/-- A run has nothing to take off: each lesson that it examines has no
confidence, or no days without use, or falls under a rule of dormancy. -/
def Idle (first : String) (file : LessonFile ℝ) : Prop :=
  ∀ settings now document, task.Passes first file settings now document →
    ∀ lesson ∈ document.lessons, lesson.Examined →
      ∀ daysSinceUse, lesson.daysSinceUse task.fromisoformat now = .ok daysSinceUse →
        lesson.confidence.1 = 0 ∨ daysSinceUse.1 = 0 ∨
          settings.Dormant daysSinceUse
            (lesson.confidence.decayed settings.halfLife daysSinceUse)

variable {task} {timestamp : String} {file : LessonFile ℝ} {settings : DecaySettings ℝ}
  {now : PyDatetime} {document : LessonDocument ℝ} {place : Nat} {lesson : Lesson ℝ}

/-! ### A schedule of runs -/

/-- The days without use that a run at some time counts for a lesson. -/
def age (task : DecayTask ℝ) (lesson : Lesson ℝ) (timestamp : String) : ℝ :=
  match parseTimestamp task.fromisoformat timestamp with
  | .error _ => 0
  | .ok now =>
      match lesson.daysSinceUse task.fromisoformat now with
      | .ok daysSinceUse => daysSinceUse.1
      | .error _ => 0

theorem age_congr {other : Lesson ℝ} (h : lesson.lastUse = other.lastUse) :
    task.age lesson = task.age other := by
  funext timestamp
  unfold age
  split
  · rfl
  · rw [Lesson.daysSinceUse_congr h]

theorem age_of_passes (h : task.Passes timestamp file settings now document)
    {daysSinceUse : Days ℝ}
    (hdays : lesson.daysSinceUse task.fromisoformat now = .ok daysSinceUse) :
    task.age lesson timestamp = daysSinceUse.1 := by
  rw [age, h.parsed]
  simp only [hdays]

/-- A lesson that is not examined stays as it is through all runs. -/
theorem lessonAt_run_of_not_examined (hlesson : task.lessonAt file place = some lesson)
    (hexamined : ¬ lesson.Examined) (times : List String) :
    task.lessonAt (run task.decayed file times) place = some lesson :=
  run_invariant (I := fun file => task.lessonAt file place = some lesson) hlesson
    fun _ timestamp _ h => lessonAt_decayed_of_not_examined h hexamined timestamp

/-- A lesson that is awake after a schedule of runs has lost for the days of
every run, all counted from its last use. -/
theorem confidence_run {times : List String}
    (hpasses : ∀ before timestamp after, times = before ++ timestamp :: after →
      ∃ settings now document,
        task.Passes timestamp (run task.decayed file before) settings now document)
    (hlesson : task.lessonAt file place = some lesson) (hexamined : lesson.Examined)
    {last : Lesson ℝ} (hlast : task.lessonAt (run task.decayed file times) place = some last)
    (hawake : last.Examined) :
    last.confidence.1 =
      halved task.halfLifeDays (times.map (task.age lesson)).sum lesson.confidence.1 := by
  rw [← foldl_halved]
  induction times generalizing file lesson with
  | nil =>
      obtain rfl := Option.some.inj (hlesson.symm.trans hlast)
      rfl
  | cons timestamp rest ih =>
      obtain ⟨settings, now, document, h⟩ := hpasses [] timestamp rest rfl
      have hmem := List.mem_of_getElem? ((lessonAt_of_loaded h.loaded place).symm.trans hlesson)
      obtain ⟨daysSinceUse, hdays⟩ := h.datable lesson hmem hexamined
      have hnext := lessonAt_decayed_of_examined h hlesson hexamined hdays
      have hexamined' : (lesson.decay settings timestamp daysSinceUse).Examined := by
        by_contra hasleep
        have hsame := lessonAt_run_of_not_examined hnext hasleep rest
        exact hasleep (Option.some.inj (hsame.symm.trans hlast) ▸ hawake)
      have hrest := ih (fun before timestamp' after hsplit =>
          hpasses (timestamp :: before) timestamp' after (by rw [hsplit, List.cons_append]))
        hnext hexamined' hlast
      rw [hrest, age_congr (Lesson.decay_lastUse settings timestamp daysSinceUse lesson),
        Lesson.decay_confidence, Confidence.val_decayed, List.map_cons, List.foldl_cons,
        age_of_passes h hdays, DecaySettings.halfLife_of_check h.checked]

/-! ### Two runs -/

/-- After a run that goes through and leaves some lesson awake, another run goes
through exactly if it would have done so before: the times must be of the kind
of the last uses, of which there is still one. -/
theorem passes_decayed_iff {first : String} (h : task.Passes first file settings now document)
    (hmem : lesson ∈ document.lessons)
    (hawake : (lesson.decayAt task.fromisoformat settings first now).Examined)
    (second : String) (settings' : DecaySettings ℝ) (now' : PyDatetime) :
    (∃ document', task.Passes second (task.decayed file first) settings' now' document') ↔
      task.Passes second file settings' now' document := by
  constructor
  · rintro ⟨document', h'⟩
    refine ⟨h'.checked, h'.parsed, h.loaded, ?_⟩
    have hlessons := h'.loaded
    rw [decayed_of_passes h] at hlessons
    obtain rfl := Except.ok.inj hlessons
    have hlast := h'.datable _ (List.mem_map_of_mem hmem) hawake
    obtain ⟨moment, hmoment, haware⟩ := Lesson.daysSinceUse_ok_iff.mp hlast
    rw [Lesson.decayAt_lastUse] at hmoment
    intro other hother hexamined
    obtain ⟨use, huse, hkind⟩ :=
      Lesson.daysSinceUse_ok_iff.mp (h.datable other hother hexamined)
    obtain ⟨use', huse', hkind'⟩ := Lesson.daysSinceUse_ok_iff.mp
      (h.datable lesson hmem (Lesson.examined_of_decayAt hawake))
    obtain rfl := Except.ok.inj (hmoment.symm.trans huse')
    exact Lesson.daysSinceUse_ok_iff.mpr
      ⟨use, huse, haware.trans (hkind'.symm.trans hkind)⟩
  · intro h'
    refine ⟨_, h'.checked, h'.parsed, by rw [decayed_of_passes h]; rfl, ?_⟩
    intro other hother hexamined
    obtain ⟨before, hbefore, rfl⟩ := List.mem_map.mp hother
    rw [Lesson.daysSinceUse_congr (Lesson.decayAt_lastUse before)]
    exact h'.datable before hbefore (Lesson.examined_of_decayAt hexamined)

/-- What two runs leave of the confidence of a lesson that stays awake in the
first: as much as the second alone, if the first takes nothing off. -/
theorem confidence_decayed_decayed_iff {first : String}
    (h : task.Passes first file settings now document)
    (hlesson : document.lessons[place]? = some lesson) (hexamined : lesson.Examined)
    {daysSinceUse : Days ℝ}
    (hdays : lesson.daysSinceUse task.fromisoformat now = .ok daysSinceUse)
    (hawake : ¬ settings.Dormant daysSinceUse
      (lesson.confidence.decayed settings.halfLife daysSinceUse)) (second : String) :
    (task.lessonAt (task.decayed (task.decayed file first) second) place).map
          Lesson.confidence =
        (task.lessonAt (task.decayed file second) place).map Lesson.confidence ↔
      lesson.confidence.1 = 0 ∨ daysSinceUse.1 = 0 := by
  have hmem := List.mem_of_getElem? hlesson
  have hfirst := Lesson.decayAt_of_examined settings first hexamined hdays
  have hexamined' := (Lesson.decay_examined_iff settings first daysSinceUse lesson hexamined).mpr
    hawake
  have hpasses (settings' : DecaySettings ℝ) (now' : PyDatetime) :=
    passes_decayed_iff h hmem (hfirst ▸ hexamined') second settings' now'
  have hbefore : task.lessonAt file place = some lesson :=
    (lessonAt_of_loaded h.loaded place).trans hlesson
  have hbetween := lessonAt_decayed_of_examined h hbefore hexamined hdays
  by_cases hsecond : ∃ settings now document, task.Passes second file settings now document
  · obtain ⟨settings', now', document', h'⟩ := hsecond
    obtain rfl := Except.ok.inj (h.checked.symm.trans h'.checked)
    obtain rfl := Except.ok.inj (h.loaded.symm.trans h'.loaded)
    obtain ⟨_, htwice⟩ := (hpasses settings now').mpr h'
    obtain ⟨days', hdays'⟩ := h'.datable lesson hmem hexamined
    have hdays'' : (lesson.decay settings first daysSinceUse).daysSinceUse task.fromisoformat
        now' = .ok days' :=
      (Lesson.daysSinceUse_congr (Lesson.decay_lastUse _ _ _ _)).trans hdays'
    rw [lessonAt_decayed_of_examined htwice hbetween hexamined' hdays'',
      lessonAt_decayed_of_examined h' hbefore hexamined hdays']
    simp only [Option.map_some, Option.some.injEq, Lesson.decay_confidence,
      (Confidence.decayed_injective _ _).eq_iff, Confidence.decayed_eq_self_iff]
  · have htwice : ¬ ∃ settings now document,
        task.Passes second (task.decayed file first) settings now document :=
      fun ⟨settings', now', h'⟩ => hsecond ⟨settings', now', document,
        (hpasses settings' now').mp h'⟩
    rw [decayed_of_not_passes hsecond, decayed_of_not_passes htwice, hbetween, hbefore]
    simp only [Option.map_some, Option.some.injEq, Lesson.decay_confidence,
      Confidence.decayed_eq_self_iff]

/-- A lesson that a run examines is not marked by it if no rule applies. -/
theorem unmarked_iff (h : task.Passes timestamp file settings now document)
    (hlesson : task.lessonAt file place = some lesson) (hexamined : lesson.Examined)
    {daysSinceUse : Days ℝ}
    (hdays : lesson.daysSinceUse task.fromisoformat now = .ok daysSinceUse) :
    (task.lessonAt (task.decayed file timestamp) place).map Lesson.dormant =
        some lesson.dormant ↔
      ¬ settings.Dormant daysSinceUse
        (lesson.confidence.decayed settings.halfLife daysSinceUse) := by
  rw [lessonAt_decayed_of_examined h hlesson hexamined hdays, Option.map_some, hexamined.2,
    Option.some.injEq, ← Bool.not_eq_true,
    Lesson.decay_dormant_iff settings timestamp daysSinceUse lesson hexamined.2]

/-- The runs of the daemon can be told apart from one run exactly when the first
takes something off and leaves the lesson awake. Then the second takes the whole
age off what the first has left. -/
theorem scheduleIndependent_iff (task : DecayTask ℝ) (first second : String)
    (file : LessonFile ℝ) :
    task.ScheduleIndependent first second file ↔ task.Idle first file := by
  constructor
  · intro hindependent settings now document h lesson hmem hexamined daysSinceUse hdays
    by_cases hdormant : settings.Dormant daysSinceUse
        (lesson.confidence.decayed settings.halfLife daysSinceUse)
    · exact .inr (.inr hdormant)
    · obtain ⟨place, hplace⟩ := List.getElem?_of_mem hmem
      have hbefore : task.lessonAt file place = some lesson :=
        (lessonAt_of_loaded h.loaded place).trans hplace
      have hunmarked := (unmarked_iff h hbefore hexamined hdays).mpr hdormant
      have hsame := hindependent place lesson hbefore hunmarked
      rw [confidence_decayed_decayed_iff h hplace hexamined hdays hdormant second] at hsame
      exact hsame.imp_right .inl
  · intro hidle place lesson hlesson hunmarked
    by_cases hpasses : ∃ settings now document, task.Passes first file settings now document
    · obtain ⟨settings, now, document, h⟩ := hpasses
      by_cases hexamined : lesson.Examined
      · have hplace := (lessonAt_of_loaded h.loaded place).symm.trans hlesson
        have hmem := List.mem_of_getElem? hplace
        obtain ⟨daysSinceUse, hdays⟩ := h.datable lesson hmem hexamined
        have hawake := (unmarked_iff h hlesson hexamined hdays).mp hunmarked
        refine (confidence_decayed_decayed_iff h hplace hexamined hdays hawake second).mpr ?_
        obtain hzero | hnone | hdormant := hidle settings now document h lesson hmem hexamined
          daysSinceUse hdays
        · exact .inl hzero
        · exact .inr hnone
        · exact absurd hdormant hawake
      · have hbetween := lessonAt_decayed_of_not_examined hlesson hexamined first
        rw [lessonAt_decayed_of_not_examined hlesson hexamined second,
          lessonAt_decayed_of_not_examined hbetween hexamined second]
    · rw [decayed_of_not_passes hpasses]

end DecayTask

/-- Python's library on the times below. -/
def demoIsoformat (text : String) : Option PyDatetime :=
  if text = "2026-01-01T00:00:00+00:00" then some (.aware 1767225600000000)
  else if text = "2026-01-31T00:00:00+00:00" then some (.aware 1769817600000000)
  else if text = "2026-03-02T00:00:00+00:00" then some (.aware 1772409600000000)
  else none

/-- The defaults of `apply_decay`. -/
def DecaySettings.default : DecaySettings ℝ where
  halfLife := ⟨30, by norm_num⟩
  dormancyThreshold := 3 / 10
  dormancyDays := 30
  dormancyDays_pos := by norm_num
  dormancyThreshold_mem := by norm_num

/-- The daemon's task. -/
def DecayTask.daily : DecayTask ℝ where
  fromisoformat := demoIsoformat
  path := "lessons.yaml"
  halfLifeDays := DecaySettings.default.halfLife
  dormancyThreshold := DecaySettings.default.dormancyThreshold
  dormancyDays := DecaySettings.default.dormancyDays

/-- A lesson that was used on the first of January. -/
def usedLesson : Lesson ℝ where
  id := "lesson-1"
  text := "Pin the toolchain."
  status := .approved
  confidence := ⟨1, zero_le_one, le_rfl⟩
  createdAt := "2026-01-01T00:00:00Z"
  updatedAt := "2026-01-01T00:00:00Z"
  lastUsedAt := some "2026-01-01T00:00:00Z"

/-- One half-life. -/
def Days.month : Days ℝ := ⟨30, by norm_num⟩

private theorem daysSinceUse_usedLesson :
    usedLesson.daysSinceUse demoIsoformat (.aware 1769817600000000) = .ok Days.month := by
  have hmicros : usedLesson.daysSinceUse demoIsoformat (.aware 1769817600000000) =
      .ok ⟨max (((2592000000000 : Int) : ℝ) / 1000000 / 86400) 0, le_max_right _ _⟩ := rfl
  rw [hmicros]
  exact congrArg Except.ok (Subtype.ext (by norm_num [Days.month]))

/-- After a month half of the confidence is left, which is enough. -/
private theorem awake_usedLesson : ¬ DecaySettings.default.Dormant Days.month
    (usedLesson.confidence.decayed DecaySettings.default.halfLife Days.month) := by
  have hhalf : (usedLesson.confidence.decayed DecaySettings.default.halfLife Days.month).1 =
      1 / 2 :=
    (Confidence.val_decayed _ _ _).trans (halved_halfLife DecaySettings.default.halfLife.2.ne' 1)
  rw [DecaySettings.Dormant, hhalf]
  norm_num [DecaySettings.default, Days.month]

private theorem passes_daily : DecayTask.daily.Passes "2026-01-31T00:00:00Z"
    (.decoded { lessons := [usedLesson] }) DecaySettings.default (.aware 1769817600000000)
    { lessons := [usedLesson] } where
  checked := DecaySettings.check_val DecaySettings.default
  parsed := rfl
  loaded := rfl
  datable _ hlesson _ :=
    ⟨Days.month, List.mem_singleton.mp hlesson ▸ daysSinceUse_usedLesson⟩

/-- A run after the first half-life leaves a lesson with less confidence after
the second one than the run after the second alone. -/
theorem not_scheduleIndependent :
    parseTimestamp demoIsoformat "2026-01-31T00:00:00Z" = .ok (.aware 1769817600000000) ∧
    parseTimestamp demoIsoformat "2026-03-02T00:00:00Z" = .ok (.aware 1772409600000000) ∧
    ¬ DecayTask.daily.ScheduleIndependent "2026-01-31T00:00:00Z" "2026-03-02T00:00:00Z"
      (.decoded { lessons := [usedLesson] }) := by
  refine ⟨rfl, rfl, fun hindependent => ?_⟩
  have hlesson : DecayTask.daily.lessonAt (.decoded { lessons := [usedLesson] }) 0 =
      some usedLesson := rfl
  have hexamined : usedLesson.Examined := ⟨rfl, rfl⟩
  have hunmarked := (DecayTask.unmarked_iff passes_daily hlesson hexamined
    daysSinceUse_usedLesson).mpr awake_usedLesson
  have hsame := hindependent 0 usedLesson hlesson hunmarked
  rw [DecayTask.confidence_decayed_decayed_iff passes_daily rfl hexamined
    daysSinceUse_usedLesson awake_usedLesson] at hsame
  rcases hsame with hzero | hnone
  · exact one_ne_zero hzero
  · exact absurd hnone (by norm_num [Days.month])

end

end ForgeOS
