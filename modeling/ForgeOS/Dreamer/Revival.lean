import ForgeOS.Dreamer.Schedule

/-!
A revival followed by a run of the decay at the same time. The revival clears
the dormancy, but not the time of the last use, by which the run tells the age
of the lesson.
-/

namespace ForgeOS

open Library

section Revivals

variable {κ : Type} [LinearOrder κ] [Zero κ] [One κ] [DecayArithmetic κ]

namespace DecayTask

variable (task : DecayTask κ)

/-- The store after `revive` at some time, whether it raised or not. -/
def revived (file : LessonFile κ) (timestamp id : String) : LessonFile κ :=
  ((revive .exact task.path timestamp id).exec file).2

/-- After a revival of the lesson at some place and a run, both at one time,
the lesson is awake. -/
def Sticks (timestamp : String) (file : LessonFile κ) (place : Nat) (lesson : Lesson κ) : Prop :=
  (task.lessonAt (task.decayed (task.revived file timestamp lesson.id) timestamp) place).map
    Lesson.dormant = some false

/-- The days since the last use of a lesson, or its approval, are within the
bounds of dormancy; without either, they are counted from the time given. The
confidence is what these days leave of it. -/
def Fresh (timestamp : String) (lesson : Lesson κ) (settings : DecaySettings κ)
    (now : PyDatetime) : Prop :=
  ∀ daysSinceUse, ({ lesson with updatedAt := timestamp } : Lesson κ).daysSinceUse
      task.fromisoformat now = .ok daysSinceUse →
    daysSinceUse.1 ≤ settings.dormancyDays ∧
      settings.dormancyThreshold ≤ (lesson.confidence.decayed settings.halfLife daysSinceUse).1

/-- The condition: the lesson is the first of its id, and it is fresh, unless
the run raises over its arguments, the time, or the date of an awake lesson. -/
def Revivable (timestamp : String) (file : LessonFile κ) (place : Nat) (lesson : Lesson κ) :
    Prop :=
  ∀ document, loadLessons task.path file = .ok document →
    (∀ other ∈ document.lessons.take place, other.id ≠ lesson.id) ∧
      ∀ settings now,
        DecaySettings.check task.halfLifeDays task.dormancyThreshold task.dormancyDays =
          .ok settings →
        parseTimestamp task.fromisoformat timestamp = .ok now →
        Datable task.fromisoformat now document.lessons →
        task.Fresh timestamp lesson settings now

variable {task} {timestamp : String} {file : LessonFile κ} {document : LessonDocument κ}
  {place : Nat} {lesson : Lesson κ}

omit [DecayArithmetic κ] in
theorem eq_of_lessonAt (h : task.lessonAt file place = some lesson) :
    ∃ document, loadLessons task.path file = .ok document ∧
      document.lessons[place]? = some lesson := by
  unfold lessonAt at h
  cases hload : loadLessons task.path file with
  | error failure =>
      rw [hload] at h
      cases h
  | ok document =>
      rw [hload] at h
      exact ⟨document, rfl, h⟩

omit [DecayArithmetic κ] in
theorem revived_of_loaded (hload : loadLessons task.path file = .ok document)
    (hplace : document.lessons[place]? = some lesson) (timestamp : String) :
    task.revived file timestamp lesson.id = .decoded { document with
      lessons := changeFirst (Lesson.revived timestamp) lesson.id document.lessons } := by
  obtain ⟨found, hfound⟩ : ∃ found, document.lessons.find? (fun other => other.id = lesson.id) =
      some found := by
    rw [← Option.isSome_iff_exists, List.find?_isSome]
    exact ⟨lesson, List.mem_of_getElem? hplace, decide_eq_true rfl⟩
  rw [revived, revive, exec_changeLesson hload hfound _ (LessonDocument.kept_exact _)]

/-- A revival of another lesson of the id does not wake this one. -/
theorem not_sticks_of_later (hload : loadLessons task.path file = .ok document)
    (hplace : document.lessons[place]? = some lesson) (hdormant : lesson.dormant = true)
    (h : ∃ other ∈ document.lessons.take place, other.id = lesson.id) :
    ¬ task.Sticks timestamp file place lesson := by
  have hbetween : task.lessonAt (task.revived file timestamp lesson.id) place = some lesson := by
    rw [revived_of_loaded hload hplace, lessonAt_of_loaded rfl, getElem?_changeFirst h]
    exact hplace
  have hexamined : ¬ lesson.Examined := by
    rintro ⟨-, hawake⟩
    rw [hdormant] at hawake
    cases hawake
  unfold Sticks
  rw [lessonAt_decayed_of_not_examined hbetween hexamined timestamp, Option.map_some, hdormant]
  simp

/-- The lessons can be dated after the revival if they could be before, and the
one revived can be. -/
theorem datable_revived_iff {now : PyDatetime} {before after : List (Lesson κ)}
    (hdormant : lesson.dormant = true) (happroved : lesson.status = .approved) :
    Datable task.fromisoformat now (before ++ lesson.revived timestamp :: after) ↔
      Datable task.fromisoformat now (before ++ lesson :: after) ∧
        ∃ daysSinceUse, (lesson.revived timestamp).daysSinceUse task.fromisoformat now =
          .ok daysSinceUse := by
  have hexamined : ¬ lesson.Examined := by
    rintro ⟨-, hawake⟩
    rw [hdormant] at hawake
    cases hawake
  have hrevived : (lesson.revived timestamp).Examined := ⟨happroved, rfl⟩
  unfold Datable
  simp only [List.forall_mem_append, List.forall_mem_cons, hexamined, hrevived, forall_true_left,
    false_implies, true_and]
  tauto

theorem not_dormant_iff {settings : DecaySettings κ} {daysSinceUse : Days κ}
    {confidence : Confidence κ} :
    ¬ settings.Dormant daysSinceUse (confidence.decayed settings.halfLife daysSinceUse) ↔
      daysSinceUse.1 ≤ settings.dormancyDays ∧
        settings.dormancyThreshold ≤ (confidence.decayed settings.halfLife daysSinceUse).1 := by
  unfold DecaySettings.Dormant
  rw [not_or, not_lt, not_lt, and_comm]

/-- A lesson that is revived stays awake just if it is fresh, where the run
goes through. -/
theorem sticks_of_first_iff (hload : loadLessons task.path file = .ok document)
    (hplace : document.lessons[place]? = some lesson) (happroved : lesson.status = .approved)
    (hdormant : lesson.dormant = true)
    (hfirst : ∀ other ∈ document.lessons.take place, other.id ≠ lesson.id) :
    task.Sticks timestamp file place lesson ↔
      ∀ settings now,
        DecaySettings.check task.halfLifeDays task.dormancyThreshold task.dormancyDays =
          .ok settings →
        parseTimestamp task.fromisoformat timestamp = .ok now →
        Datable task.fromisoformat now document.lessons →
        task.Fresh timestamp lesson settings now := by
  obtain ⟨hbound, hget⟩ := List.getElem?_eq_some_iff.mp hplace
  have hsplit : document.lessons =
      document.lessons.take place ++ lesson :: document.lessons.drop (place + 1) := by
    rw [← hget, ← List.drop_eq_getElem_cons hbound, List.take_append_drop]
  have hlength : (document.lessons.take place).length = place := List.length_take_of_le hbound.le
  generalize document.lessons.take place = before at hfirst hsplit hlength
  generalize document.lessons.drop (place + 1) = after at hsplit
  have hfile := revived_of_loaded hload hplace timestamp
  rw [hsplit, changeFirst_of_split hfirst] at hfile
  have hbetween : task.lessonAt (task.revived file timestamp lesson.id) place =
      some (lesson.revived timestamp) := by
    rw [hfile, lessonAt_of_loaded rfl, List.getElem?_append_right hlength.le, hlength,
      Nat.sub_self, List.getElem?_cons_zero]
  have hexamined : (lesson.revived timestamp).Examined := ⟨happroved, rfl⟩
  have hdatable (now : PyDatetime) :
      Datable task.fromisoformat now (before ++ lesson.revived timestamp :: after) ↔
        Datable task.fromisoformat now (before ++ lesson :: after) ∧
          ∃ daysSinceUse, (lesson.revived timestamp).daysSinceUse task.fromisoformat now =
            .ok daysSinceUse := datable_revived_iff hdormant happroved
  unfold Sticks
  by_cases hpasses : ∃ settings now document', task.Passes timestamp
      (task.revived file timestamp lesson.id) settings now document'
  · obtain ⟨settings, now, document', h⟩ := hpasses
    have hloaded := h.loaded
    rw [hfile] at hloaded
    obtain rfl := Except.ok.inj hloaded
    obtain ⟨hbefore, daysSinceUse, hdays⟩ := (hdatable now).mp h.datable
    rw [lessonAt_decayed_of_examined h hbetween hexamined hdays, Option.map_some,
      Option.some.injEq, ← Bool.not_eq_true,
      Lesson.decay_dormant_iff settings timestamp daysSinceUse _ hexamined.2, not_dormant_iff]
    constructor
    · intro hfresh settings' now' hchecked hparsed _ others hothers
      obtain rfl := Except.ok.inj (h.checked.symm.trans hchecked)
      obtain rfl := Except.ok.inj (h.parsed.symm.trans hparsed)
      obtain rfl := Except.ok.inj (hdays.symm.trans hothers)
      exact hfresh
    · intro hfresh
      exact hfresh settings now h.checked h.parsed (hsplit ▸ hbefore) daysSinceUse hdays
  · rw [decayed_of_not_passes hpasses, hbetween]
    refine iff_of_true rfl ?_
    intro settings now hchecked hparsed hbefore daysSinceUse hdays
    refine absurd ⟨settings, now, _, hchecked, hparsed, by rw [hfile]; rfl, ?_⟩ hpasses
    exact (hdatable now).mpr ⟨hsplit ▸ hbefore, daysSinceUse, hdays⟩

/-- Reviving a dormant lesson sticks exactly if it is the first lesson of its id
and fresh, or the run raises. Its age is counted from its last use, which
reviving does not touch. -/
theorem sticks_iff (task : DecayTask κ) (timestamp : String)
    (hlesson : task.lessonAt file place = some lesson) (happroved : lesson.status = .approved)
    (hdormant : lesson.dormant = true) :
    task.Sticks timestamp file place lesson ↔ task.Revivable timestamp file place lesson := by
  obtain ⟨document, hload, hplace⟩ := eq_of_lessonAt hlesson
  unfold Revivable
  simp only [hload, Except.ok.injEq, forall_eq']
  by_cases hfirst : ∀ other ∈ document.lessons.take place, other.id ≠ lesson.id
  · rw [and_iff_right hfirst]
    exact sticks_of_first_iff hload hplace happroved hdormant hfirst
  · push Not at hfirst
    refine iff_of_false (not_sticks_of_later hload hplace hdormant hfirst) ?_
    rintro ⟨hnone, -⟩
    obtain ⟨other, hother, hid⟩ := hfirst
    exact hnone other hother hid

end DecayTask

end Revivals

noncomputable section

namespace DecayTask

/-- The lesson of the first of January, fallen asleep. -/
def sleepingLesson : Lesson ℝ :=
  { usedLesson with dormant := true, dormantAt := some "2026-02-01T00:00:00Z" }

/-- A store with that lesson alone. -/
def sleepingStore : LessonFile ℝ := .decoded { lessons := [sleepingLesson] }

theorem sticks_sleepingLesson_iff :
    daily.Sticks "2026-03-02T00:00:00Z" sleepingStore 0 sleepingLesson ↔
      daily.Revivable "2026-03-02T00:00:00Z" sleepingStore 0 sleepingLesson :=
  sticks_iff daily "2026-03-02T00:00:00Z" rfl rfl rfl

/-- Sixty days after its last use a lesson of full confidence is put to sleep
again by the run that follows its revival. -/
theorem not_sticks :
    ¬ ∀ (task : DecayTask ℝ) (timestamp : String) (file : LessonFile ℝ) (place : Nat)
      (lesson : Lesson ℝ), task.lessonAt file place = some lesson → lesson.status = .approved →
      lesson.dormant = true → task.dormancyThreshold ≤ lesson.confidence.1 →
      task.Sticks timestamp file place lesson := by
  intro h
  have hthreshold : daily.dormancyThreshold ≤ sleepingLesson.confidence.1 := by
    change (3 / 10 : ℝ) ≤ 1
    norm_num
  have hsticks := h daily "2026-03-02T00:00:00Z" sleepingStore 0 sleepingLesson rfl rfl rfl
    hthreshold
  have hdays : ({ sleepingLesson with updatedAt := "2026-03-02T00:00:00Z" } : Lesson ℝ).daysSinceUse
      demoIsoformat (.aware 1772409600000000) =
        .ok ⟨max (((5184000000000 : Int) : ℝ) / 1000000 / 86400) 0, le_max_right _ _⟩ := rfl
  have hdatable : Datable demoIsoformat (.aware 1772409600000000) [sleepingLesson] := by
    intro lesson hlesson hexamined
    obtain rfl := List.mem_singleton.mp hlesson
    cases hexamined.2
  have hload : loadLessons daily.path sleepingStore = .ok { lessons := [sleepingLesson] } := rfl
  have hfresh := (sticks_of_first_iff hload rfl rfl rfl (by simp)).mp hsticks
    DecaySettings.default (.aware 1772409600000000)
    (DecaySettings.check_val DecaySettings.default) rfl hdatable
  have hbound := (hfresh _ hdays).1
  revert hbound
  norm_num [DecaySettings.default]

end DecayTask

end

end ForgeOS
