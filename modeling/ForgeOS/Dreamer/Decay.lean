import ForgeOS.Datetime
import ForgeOS.Library.Halving
import ForgeOS.Memory.Lessons

/-!
Decay of the lessons' confidence, which the daemon applies every day. It is
written for any arithmetic, of the real numbers or of floats, which have an
order if they are not NaN.
-/

namespace ForgeOS

open Library

/-- The arithmetic of the decay: that of Python's floats, where each operation
rounds, or that of the real numbers. All of the decay is written for both. -/
class DecayArithmetic (κ : Type) [LinearOrder κ] [Zero κ] where
  /-- `timedelta.total_seconds`, of so many microseconds. -/
  totalSeconds : Int → κ
  /-- `SECONDS_PER_DAY` -/
  secondsPerDay : κ
  mul : κ → κ → κ
  div : κ → κ → κ
  /-- `0.5 ** exponent` -/
  halfPower : κ → κ
  /-- A factor of at most one makes nothing larger, rounded or not. -/
  mul_halfPower_le {amount elapsed halfLife : κ} : 0 ≤ amount → 0 ≤ elapsed → 0 < halfLife →
    mul amount (halfPower (div elapsed halfLife)) ≤ amount

open DecayArithmetic

noncomputable instance : DecayArithmetic ℝ where
  totalSeconds micros := micros / 1000000
  secondsPerDay := 86400
  mul amount factor := amount * factor
  div elapsed halfLife := elapsed / halfLife
  halfPower := powerOfHalf
  mul_halfPower_le hamount helapsed hlife := halved_le hlife helapsed hamount

/-- What reading a time, or taking the difference of two, can raise. -/
inductive TimestampFailure where
  /-- `Invalid isoformat string: …` -/
  | isoformat (value : String)
  /-- `can't subtract offset-naive and offset-aware datetimes` -/
  | mixedDatetimes

/-- What a run of the decay can raise. -/
inductive DecayFailure (κ : Type) where
  /-- `half_life_days must be positive, got …` -/
  | halfLifeDays (value : κ)
  /-- `dormancy_days must be positive, got …` -/
  | dormancyDays (value : κ)
  /-- `dormancy_threshold must be within [0, 1], got …` -/
  | dormancyThreshold (value : κ)
  | timestamp (failure : TimestampFailure)
  | lessons (failure : LessonFailure)

/-- `self - other`, in microseconds. -/
def PyDatetime.sub : PyDatetime → PyDatetime → Except TimestampFailure Int
  | .aware moment, .aware other => .ok (moment - other)
  | .naive moment, .naive other => .ok (moment - other)
  | _, _ => .error .mixedDatetimes

section Numbers

variable (κ : Type) [LinearOrder κ] [Zero κ] [One κ]

abbrev HalfLife : Type := { days : κ // 0 < days }

/-- Days since some moment, none if it is still to come. -/
abbrev Days : Type := { days : κ // 0 ≤ days }

/-- The arguments of `apply_decay`, as they pass its checks. -/
structure DecaySettings where
  halfLife : HalfLife κ
  dormancyThreshold : κ
  dormancyDays : κ
  dormancyDays_pos : 0 < dormancyDays
  dormancyThreshold_mem : 0 ≤ dormancyThreshold ∧ dormancyThreshold ≤ 1

end Numbers

/-- What `apply_decay` returns; `newly_dormant` is the number of the ids. -/
structure DecayReport where
  examined : Nat := 0
  decayed : Nat := 0
  dormantIds : List String := []

def DecayReport.newlyDormant (report : DecayReport) : Nat := report.dormantIds.length

section Decay

variable {κ : Type} [LinearOrder κ] [Zero κ]

def HalfLife.check (halfLifeDays : κ) : Except (DecayFailure κ) (HalfLife κ) :=
  if h : halfLifeDays ≤ 0 then .error (.halfLifeDays halfLifeDays)
  else .ok ⟨halfLifeDays, not_le.mp h⟩

@[simp]
theorem HalfLife.check_val (halfLife : HalfLife κ) :
    HalfLife.check halfLife.1 = .ok halfLife := by
  rw [check, dif_neg (not_le.mpr halfLife.2)]

variable [One κ]

/-- The checks of `apply_decay`, in their order. -/
def DecaySettings.check (halfLifeDays dormancyThreshold dormancyDays : κ) :
    Except (DecayFailure κ) (DecaySettings κ) := do
  let halfLife ← HalfLife.check halfLifeDays
  if hdays : dormancyDays ≤ 0 then .error (.dormancyDays dormancyDays)
  else if hthreshold : 0 ≤ dormancyThreshold ∧ dormancyThreshold ≤ 1 then
    .ok ⟨halfLife, dormancyThreshold, dormancyDays, not_le.mp hdays, hthreshold⟩
  else .error (.dormancyThreshold dormancyThreshold)

/-- Settings that pass the checks come out of them. -/
theorem DecaySettings.check_val (settings : DecaySettings κ) :
    DecaySettings.check settings.halfLife.1 settings.dormancyThreshold settings.dormancyDays =
      .ok settings := by
  rw [check, HalfLife.check_val]
  simp only [ok_bind, dif_neg (not_le.mpr settings.dormancyDays_pos),
    dif_pos settings.dormancyThreshold_mem]

theorem DecaySettings.halfLife_of_check {halfLifeDays dormancyThreshold dormancyDays : κ}
    {settings : DecaySettings κ}
    (h : DecaySettings.check halfLifeDays dormancyThreshold dormancyDays = .ok settings) :
    settings.halfLife.1 = halfLifeDays := by
  unfold DecaySettings.check HalfLife.check at h
  split at h
  · cases h
  · simp only [ok_bind] at h
    split at h
    · cases h
    · split at h
      · obtain rfl := Except.ok.inj h
        rfl
      · cases h

variable [DecayArithmetic κ]

/-- A confidence after some days without use, floored at zero. -/
def Confidence.decayed (halfLife : HalfLife κ) (daysSinceUse : Days κ)
    (confidence : Confidence κ) : Confidence κ :=
  ⟨max (mul confidence.1 (halfPower (div daysSinceUse.1 halfLife.1))) 0, le_max_right _ _,
    max_le ((mul_halfPower_le confidence.2.1 daysSinceUse.2 halfLife.2).trans confidence.2.2)
      (confidence.2.1.trans confidence.2.2)⟩

/-- `decayed_confidence`, of the confidence of a lesson. -/
def decayedConfidence (confidence : Confidence κ) (daysSinceUse : Days κ) (halfLifeDays : κ) :
    Except (DecayFailure κ) (Confidence κ) := do
  let halfLife ← HalfLife.check halfLifeDays
  return confidence.decayed halfLife daysSinceUse

/-- Python's `or`, of a text that may be missing. -/
def textOr (text : Option String) (other : String) : String :=
  match text with
  | none => other
  | some text => if text = "" then other else text

def Lesson.lastUse (lesson : Lesson κ) : String :=
  textOr lesson.lastUsedAt (textOr lesson.approvedAt lesson.updatedAt)

section Run

variable (fromisoformat : String → Option PyDatetime)

/-- `parse_timestamp`, which accepts the suffix `Z`. -/
def parseTimestamp (value : String) : Except TimestampFailure PyDatetime :=
  let text := String.ofList
    (value.toList.flatMap fun c => if c = 'Z' then "+00:00".toList else [c])
  match fromisoformat text with
  | none => .error (.isoformat text)
  | some moment => .ok moment

def Lesson.daysSinceUse (now : PyDatetime) (lesson : Lesson κ) :
    Except TimestampFailure (Days κ) := do
  let micros ← now.sub (← parseTimestamp fromisoformat lesson.lastUse)
  return ⟨max (div (DecayArithmetic.totalSeconds micros) secondsPerDay) 0, le_max_right _ _⟩

/-- The approved lessons that are awake. -/
def Lesson.Examined (lesson : Lesson κ) : Prop :=
  lesson.status = .approved ∧ lesson.dormant = false

instance (lesson : Lesson κ) : Decidable lesson.Examined := inferInstanceAs (Decidable (_ ∧ _))

/-- Both rules of dormancy, for a lesson with its new confidence. -/
def DecaySettings.Dormant (settings : DecaySettings κ) (daysSinceUse : Days κ)
    (confidence : Confidence κ) : Prop :=
  confidence.1 < settings.dormancyThreshold ∨ settings.dormancyDays < daysSinceUse.1

instance (settings : DecaySettings κ) (daysSinceUse : Days κ) (confidence : Confidence κ) :
    Decidable (settings.Dormant daysSinceUse confidence) := inferInstanceAs (Decidable (_ ∨ _))

/-- The body of the loop over the lessons. -/
def decayLesson (settings : DecaySettings κ) (timestamp : String) (now : PyDatetime)
    (lesson : Lesson κ) (report : DecayReport) :
    Except (DecayFailure κ) (Lesson κ × DecayReport) :=
  if ¬ lesson.Examined then return (lesson, report)
  else do
    let daysSinceUse ← (lesson.daysSinceUse fromisoformat now).mapError .timestamp
    let confidence ← decayedConfidence lesson.confidence daysSinceUse settings.halfLife.1
    let report := { report with
      examined := report.examined + 1
      decayed := report.decayed + if confidence.1 < lesson.confidence.1 then 1 else 0 }
    if settings.Dormant daysSinceUse confidence then
      return ({ lesson with
          confidence := confidence
          dormant := true
          dormantAt := some timestamp },
        { report with dormantIds := report.dormantIds ++ [lesson.id] })
    else return ({ lesson with confidence := confidence }, report)

/-- The loop over the lessons. -/
def decayLessons (settings : DecaySettings κ) (timestamp : String) (now : PyDatetime) :
    List (Lesson κ) → DecayReport → Except (DecayFailure κ) (List (Lesson κ) × DecayReport)
  | [], report => return ([], report)
  | lesson :: rest, report => do
      let (lesson, report) ← decayLesson fromisoformat settings timestamp now lesson report
      let (rest, report) ← decayLessons settings timestamp now rest report
      return (lesson :: rest, report)

/-- `apply_decay`, at the time that is given or that the clock shows. The loop
works on the document in memory, which is saved once. -/
def applyDecay (yaml : YamlHost) (path : String)
    (halfLifeDays dormancyThreshold dormancyDays : κ) (timestamp : String) :
    Effect (LessonFile κ) (DecayFailure κ) DecayReport := do
  let settings ← Effect.ofExcept
    (DecaySettings.check halfLifeDays dormancyThreshold dormancyDays)
  let now ← Effect.ofExcept ((parseTimestamp fromisoformat timestamp).mapError .timestamp)
  let document ← Effect.ofExcept ((loadLessons path (← get)).mapError .lessons)
  let (lessons, report) ← Effect.ofExcept
    (decayLessons fromisoformat settings timestamp now document.lessons {})
  (saveLessons yaml { document with lessons := lessons }).mapError .lessons
  return report

/-! ### One run -/

/-- A lesson that is examined, after so many days. -/
def Lesson.decay (settings : DecaySettings κ) (timestamp : String) (daysSinceUse : Days κ)
    (lesson : Lesson κ) : Lesson κ :=
  if settings.Dormant daysSinceUse (lesson.confidence.decayed settings.halfLife daysSinceUse) then
    { lesson with
      confidence := lesson.confidence.decayed settings.halfLife daysSinceUse
      dormant := true
      dormantAt := some timestamp }
  else { lesson with confidence := lesson.confidence.decayed settings.halfLife daysSinceUse }

/-- What becomes of a lesson in a run that goes through. -/
def Lesson.decayAt (settings : DecaySettings κ) (timestamp : String) (now : PyDatetime)
    (lesson : Lesson κ) : Lesson κ :=
  if lesson.Examined then
    match lesson.daysSinceUse fromisoformat now with
    | .ok daysSinceUse => lesson.decay settings timestamp daysSinceUse
    | .error _ => lesson
  else lesson

/-- The last use of every lesson that is examined can be compared with a time. -/
def Datable (now : PyDatetime) (lessons : List (Lesson κ)) : Prop :=
  ∀ lesson ∈ lessons, lesson.Examined →
    ∃ daysSinceUse, lesson.daysSinceUse fromisoformat now = .ok daysSinceUse

end Run

/-- The report on a lesson, by what it was and what it has become. -/
def DecayReport.count (report : DecayReport) (lesson decayed : Lesson κ) : DecayReport :=
  if lesson.Examined then {
    examined := report.examined + 1
    decayed := report.decayed + if decayed.confidence.1 < lesson.confidence.1 then 1 else 0
    dormantIds := report.dormantIds ++ if decayed.dormant then [lesson.id] else [] }
  else report

def DecayReport.on (decayed : Lesson κ → Lesson κ) (lessons : List (Lesson κ)) : DecayReport :=
  let examined := lessons.filter fun lesson => lesson.Examined
  { examined := examined.length
    decayed := examined.countP fun lesson =>
      (decayed lesson).confidence.1 < lesson.confidence.1
    dormantIds := (examined.filter fun lesson => (decayed lesson).dormant).map Lesson.id }

/-- What the runs have in common, which the daemon makes at different times. -/
structure DecayTask (κ : Type) where
  fromisoformat : String → Option PyDatetime
  path : String
  halfLifeDays : κ
  dormancyThreshold : κ
  dormancyDays : κ

/-- A run at some time. -/
def DecayTask.effectWith (yaml : YamlHost) (task : DecayTask κ) (timestamp : String) :
    Effect (LessonFile κ) (DecayFailure κ) DecayReport :=
  applyDecay task.fromisoformat yaml task.path task.halfLifeDays task.dormancyThreshold
    task.dormancyDays timestamp

/-- A run at some time on a store that its dump does not change. -/
def DecayTask.effect (task : DecayTask κ) (timestamp : String) :
    Effect (LessonFile κ) (DecayFailure κ) DecayReport := task.effectWith .exact timestamp

/-- A run at some time goes through: nothing that it checks or reads raises. -/
structure DecayTask.Passes (task : DecayTask κ) (timestamp : String) (file : LessonFile κ)
    (settings : DecaySettings κ) (now : PyDatetime) (document : LessonDocument κ) : Prop where
  checked : DecaySettings.check task.halfLifeDays task.dormancyThreshold task.dormancyDays =
    .ok settings
  parsed : parseTimestamp task.fromisoformat timestamp = .ok now
  loaded : loadLessons task.path file = .ok document
  datable : Datable task.fromisoformat now document.lessons

/-- Nothing gains confidence. -/
theorem Confidence.decayed_le (halfLife : HalfLife κ) (daysSinceUse : Days κ)
    (confidence : Confidence κ) : (confidence.decayed halfLife daysSinceUse).1 ≤ confidence.1 :=
  max_le (mul_halfPower_le confidence.2.1 daysSinceUse.2 halfLife.2) confidence.2.1

theorem decayedConfidence_val (confidence : Confidence κ) (daysSinceUse : Days κ)
    (halfLife : HalfLife κ) :
    decayedConfidence confidence daysSinceUse halfLife.1 =
      .ok (confidence.decayed halfLife daysSinceUse) := by
  rw [decayedConfidence, HalfLife.check_val]
  rfl

section Loop

variable {fromisoformat : String → Option PyDatetime} (settings : DecaySettings κ)
  (timestamp : String) {now : PyDatetime} {lesson : Lesson κ} {lessons : List (Lesson κ)}

theorem Lesson.decayAt_of_not_examined (h : ¬ lesson.Examined) :
    lesson.decayAt fromisoformat settings timestamp now = lesson := if_neg h

theorem Lesson.decayAt_of_examined (h : lesson.Examined) {daysSinceUse : Days κ}
    (hdays : lesson.daysSinceUse fromisoformat now = .ok daysSinceUse) :
    lesson.decayAt fromisoformat settings timestamp now =
      lesson.decay settings timestamp daysSinceUse := by
  rw [decayAt, if_pos h, hdays]

theorem decayLesson_ok (hdays : lesson.Examined →
      ∃ daysSinceUse, lesson.daysSinceUse fromisoformat now = .ok daysSinceUse)
    (report : DecayReport) :
    decayLesson fromisoformat settings timestamp now lesson report =
      .ok (lesson.decayAt fromisoformat settings timestamp now,
        report.count lesson (lesson.decayAt fromisoformat settings timestamp now)) := by
  by_cases hexamined : lesson.Examined
  · obtain ⟨daysSinceUse, hdays⟩ := hdays hexamined
    rw [decayLesson, if_neg (not_not.mpr hexamined), hdays, DecayReport.count, if_pos hexamined,
      Lesson.decayAt_of_examined settings timestamp hexamined hdays, Lesson.decay]
    simp only [Except.mapError, ok_bind, decayedConfidence_val]
    split
    · rfl
    · simp only [hexamined.2, Bool.false_eq_true, if_false, List.append_nil]
      rfl
  · rw [Lesson.decayAt_of_not_examined settings timestamp hexamined, decayLesson, if_pos hexamined,
      DecayReport.count, if_neg hexamined]
    rfl

theorem decayLesson_error (hexamined : lesson.Examined) {failure : TimestampFailure}
    (hdays : lesson.daysSinceUse fromisoformat now = .error failure) (report : DecayReport) :
    decayLesson fromisoformat settings timestamp now lesson report =
      .error (.timestamp failure) := by
  rw [decayLesson, if_neg (not_not.mpr hexamined), hdays]
  rfl

/-- The loop goes through all lessons, if they can be dated. -/
theorem decayLessons_ok (hdatable : Datable fromisoformat now lessons) (report : DecayReport) :
    decayLessons fromisoformat settings timestamp now lessons report =
      .ok (lessons.map (Lesson.decayAt fromisoformat settings timestamp now),
        lessons.foldl (fun report lesson => report.count lesson
          (lesson.decayAt fromisoformat settings timestamp now)) report) := by
  induction lessons generalizing report with
  | nil => rfl
  | cons lesson rest ih =>
      obtain ⟨hhead, hrest⟩ := List.forall_mem_cons.mp hdatable
      rw [decayLessons, decayLesson_ok settings timestamp hhead report]
      simp only [ok_bind, ih hrest]
      rfl

theorem decayLessons_error (hdatable : ¬ Datable fromisoformat now lessons)
    (report : DecayReport) :
    ∃ failure, decayLessons fromisoformat settings timestamp now lessons report =
      .error failure := by
  induction lessons generalizing report with
  | nil => exact absurd (fun _ h => nomatch h) hdatable
  | cons lesson rest ih =>
      by_cases hhead : lesson.Examined →
          ∃ daysSinceUse, lesson.daysSinceUse fromisoformat now = .ok daysSinceUse
      · have hrest : ¬ Datable fromisoformat now rest :=
          fun hrest => hdatable (List.forall_mem_cons.mpr ⟨hhead, hrest⟩)
        obtain ⟨failure, hlessons⟩ := ih hrest (report.count lesson
          (lesson.decayAt fromisoformat settings timestamp now))
        refine ⟨failure, ?_⟩
        rw [decayLessons, decayLesson_ok settings timestamp hhead report]
        simp only [ok_bind, error_bind, hlessons]
      · push Not at hhead
        obtain ⟨hexamined, hnone⟩ := hhead
        cases hdays : lesson.daysSinceUse fromisoformat now with
        | ok daysSinceUse => exact absurd hdays (hnone daysSinceUse)
        | error failure =>
            refine ⟨.timestamp failure, ?_⟩
            rw [decayLessons, decayLesson_error settings timestamp hexamined hdays]
            rfl

end Loop

omit [DecayArithmetic κ] in
theorem DecayReport.foldl_count (decayed : Lesson κ → Lesson κ) (lessons : List (Lesson κ))
    (report : DecayReport) :
    lessons.foldl (fun report lesson => report.count lesson (decayed lesson)) report = {
      examined := report.examined + (DecayReport.on decayed lessons).examined
      decayed := report.decayed + (DecayReport.on decayed lessons).decayed
      dormantIds := report.dormantIds ++ (DecayReport.on decayed lessons).dormantIds } := by
  induction lessons generalizing report with
  | nil => simp [DecayReport.on]
  | cons lesson rest ih =>
      rw [List.foldl_cons, ih]
      by_cases hexamined : lesson.Examined
      · have hfilter : (lesson :: rest).filter (fun lesson => lesson.Examined) =
            lesson :: rest.filter fun lesson => lesson.Examined :=
          List.filter_cons_of_pos (by simpa using hexamined)
        simp only [DecayReport.on, DecayReport.count, if_pos hexamined, hfilter, mk.injEq]
        refine ⟨?_, ?_, ?_⟩
        · rw [List.length_cons]
          omega
        · rw [List.countP_cons]
          simp only [decide_eq_true_eq]
          omega
        · rw [List.filter_cons, List.append_assoc]
          split
          · rfl
          · rfl
      · simp [DecayReport.on, DecayReport.count, hexamined]

section Saved

variable {task : DecayTask κ} {timestamp : String} {file : LessonFile κ}

/-- The document after a run that goes through. -/
def DecayTask.decayedDocument (task : DecayTask κ) (timestamp : String)
    (settings : DecaySettings κ) (now : PyDatetime) (document : LessonDocument κ) :
    LessonDocument κ :=
  { document with
    lessons := document.lessons.map (Lesson.decayAt task.fromisoformat settings timestamp now) }

theorem DecayTask.exec_effectWith_of_passes {yaml : YamlHost} {settings : DecaySettings κ}
    {now : PyDatetime} {document reread : LessonDocument κ}
    (h : task.Passes timestamp file settings now document)
    (hreread : (task.decayedDocument timestamp settings now document).reread yaml = some reread) :
    (task.effectWith yaml timestamp).exec file =
      (.ok (.on (Lesson.decayAt task.fromisoformat settings timestamp now) document.lessons),
        .decoded reread) := by
  have hlessons := decayLessons_ok settings timestamp h.datable {}
  rw [DecayReport.foldl_count] at hlessons
  rw [decayedDocument] at hreread
  simp only [effectWith, applyDecay, Effect.exec_bind, Effect.exec_ofExcept, Effect.exec_get,
    h.checked, h.parsed, h.loaded, Except.mapError, hlessons, Effect.exec_mapError,
    exec_saveLessons hreread, Effect.exec_pure, Nat.zero_add, List.nil_append]

theorem DecayTask.exec_effect_of_passes {settings : DecaySettings κ} {now : PyDatetime}
    {document : LessonDocument κ} (h : task.Passes timestamp file settings now document) :
    (task.effect timestamp).exec file =
      (.ok (.on (Lesson.decayAt task.fromisoformat settings timestamp now) document.lessons),
        .decoded { document with
          lessons := document.lessons.map
            (Lesson.decayAt task.fromisoformat settings timestamp now) }) :=
  task.exec_effectWith_of_passes h (LessonDocument.kept_exact _)

/-- A run that raises saves nothing. -/
theorem DecayTask.exec_effectWith_of_not_passes (yaml : YamlHost)
    (h : ¬ ∃ settings now document, task.Passes timestamp file settings now document) :
    ∃ failure, (task.effectWith yaml timestamp).exec file = (.error failure, file) := by
  simp only [effectWith, applyDecay, Effect.exec_bind, Effect.exec_ofExcept, Effect.exec_get]
  cases hchecked : DecaySettings.check task.halfLifeDays task.dormancyThreshold
      task.dormancyDays with
  | error failure => exact ⟨failure, rfl⟩
  | ok settings =>
      cases hparsed : parseTimestamp task.fromisoformat timestamp with
      | error failure => exact ⟨.timestamp failure, rfl⟩
      | ok now =>
          cases hloaded : loadLessons task.path file with
          | error failure =>
              exact ⟨.lessons failure, by simp only [hloaded, Except.mapError]⟩
          | ok document =>
              obtain ⟨failure, hlessons⟩ := decayLessons_error settings timestamp
                (fun hdatable => h ⟨settings, now, document, hchecked, hparsed, hloaded,
                  hdatable⟩) {}
              refine ⟨failure, ?_⟩
              simp only [hloaded, Except.mapError, hlessons]

end Saved

end Decay

end ForgeOS
