import ForgeOS.Dreamer.Decay
import ForgeOS.Library.Firsts
import ForgeOS.Memory.Reflections

/-!
Tensions between approved lessons, and the scan that turns recurring
reflections into pending lessons and records the tensions as reflections.
Whatever one scan adds, the next one finds.
-/

namespace ForgeOS

open Library

/-! ### Opposite guidance -/

def negativeMarkers : List String := ["never", "avoid", "don't", "do not", "disable"]

def positiveMarkers : List String := ["always", "prefer", "ensure", "do ", "enable"]

def polarityWords : List String :=
  ["never", "avoid", "don't", "dont", "do", "not", "always", "prefer", "ensure", "enable",
    "disable"]

def minSharedWordLength : Nat := 5

def minStageRecurrence : Nat := 3

/-- The characters of `[a-z']`. -/
def isWordChar (c : Char) : Bool := ('a' ≤ c && c ≤ 'z') || c.toNat == 0x27

/-- `_WORD_PATTERN.findall(text)`, the longest runs of such characters. -/
def wordsOf (text : String) : List String :=
  ((text.toList.splitOnP fun c => ! isWordChar c).filter fun word => word ≠ []).map String.ofList

section Detection

variable (lower : String → String)

/-- `_content_words`; `lower` is `str.lower`. -/
def contentWords (text : String) : List String :=
  (wordsOf (lower text)).filter fun word =>
    minSharedWordLength ≤ word.length ∧ word ∉ polarityWords

def sharedContentWords (textA textB : String) : List String :=
  ((contentWords lower textA).filter fun word =>
    word ∈ contentWords lower textB).dedup.insertionSort (· ≤ ·)

/-- A marker occurs in a text. -/
def Marked (markers : List String) (text : String) : Prop :=
  ∃ marker ∈ markers, marker.toList <:+: (lower text).toList

instance (markers : List String) (text : String) : Decidable (Marked lower markers text) :=
  inferInstanceAs (Decidable (∃ marker ∈ markers, _))

def HasOppositePolarity (textA textB : String) : Prop :=
  Marked lower negativeMarkers textA ∧ Marked lower positiveMarkers textB ∨
    Marked lower positiveMarkers textA ∧ Marked lower negativeMarkers textB

instance (textA textB : String) : Decidable (HasOppositePolarity lower textA textB) :=
  inferInstanceAs (Decidable (_ ∨ _))

end Detection

/-- Two lessons that give opposite guidance. -/
structure Tension where
  lessonA : String
  lessonB : String
  sharedTerms : List String
deriving DecidableEq, Repr

namespace Tension

def reason (tension : Tension) : String :=
  "Approved lessons give opposite guidance over shared terms: " ++
    ", ".intercalate tension.sharedTerms ++ "."

/-- The summary of the reflection that records the tension. -/
def summary (tension : Tension) : String :=
  s!"Tension between lessons `{tension.lessonA}` and `{tension.lessonB}`: " ++
    "opposite guidance over shared terms " ++ ", ".intercalate tension.sharedTerms ++ "."

end Tension

def SharesScope (lessonA lessonB : Lesson ℚ) : Prop :=
  lessonA.stageId ≠ none ∧ lessonA.stageId = lessonB.stageId ∨
    ∃ tag ∈ lessonA.tags, tag ∈ lessonB.tags

instance (lessonA lessonB : Lesson ℚ) : Decidable (SharesScope lessonA lessonB) :=
  inferInstanceAs (Decidable (_ ∨ _))

section Detection

variable (lower : String → String)

/-- What the loops do with one pair. -/
def tension? (lessonA lessonB : Lesson ℚ) : Option Tension :=
  if ¬ SharesScope lessonA lessonB then none
  else if ¬ HasOppositePolarity lower lessonA.text lessonB.text then none
  else
    let sharedTerms := sharedContentWords lower lessonA.text lessonB.text
    if sharedTerms = [] then none
    else some { lessonA := lessonA.id, lessonB := lessonB.id, sharedTerms := sharedTerms }

/-- The loops over a lesson and the ones after it. -/
def tensionsAmong : List (Lesson ℚ) → List Tension
  | [] => []
  | lessonA :: rest => rest.filterMap (tension? lower lessonA) ++ tensionsAmong rest

/-- Flag pairs of approved lessons that give opposite guidance about the same
thing. -/
def detectTensions (lessons : List (Lesson ℚ)) : List Tension :=
  tensionsAmong lower ((lessons.filter fun lesson =>
    lesson.status = .approved).insertionSort LessonDocument.listedBefore)

end Detection

/-! ### The scan -/

/-- What a scan can raise. -/
inductive ReingestFailure where
  /-- The timestamp of the scan or of a reflection cannot be parsed. -/
  | timestamp (failure : TimestampFailure)
  /-- `timedelta(days=window_days)`, or what it is subtracted from, is out of
  range. -/
  | window
  /-- `can't compare offset-naive and offset-aware datetimes` -/
  | mixedDatetimes
  | lessons (failure : LessonFailure)
  | reflections (failure : ReflectionFailure)

/-- Both stores of a project. -/
structure DreamerStores where
  lessons : LessonFile ℚ
  reflections : ReflectionFiles

/-- What a scan takes from Python: `str.lower`, `datetime.fromisoformat`,
`moment - timedelta(days=days)` and the format `g`. -/
structure ReingestHost where
  lower : String → String
  fromisoformat : String → Option PyDatetime
  minusDays : PyFloat → PyDatetime → Option PyDatetime
  general : PyFloat → String

/-- What `uuid4` and the clock return during one scan: for the timestamp of the
scan, for the lesson of a stage, and for the reflection of a summary. -/
structure ReingestRun where
  clock : String
  lessonStamp : String → MemoryStamp
  reflectionStamp : String → MemoryStamp

/-- What a scan returns. -/
structure ReingestReport where
  reflectionsScanned : Nat
  tensions : List Tension
  lessonsProposed : List String
deriving DecidableEq, Repr

/-- The body of the loop that counts the reflections of a stage. -/
def countStage (recurrence : Dict String Nat) (reflection : Reflection) : Dict String Nat :=
  match reflection.stageId with
  | none => recurrence
  | some stage => recurrence.set stage ((recurrence.get? stage).getD 0 + 1)

def recurrenceByStage (recent : List Reflection) : Dict String Nat := recent.foldl countStage []

/-- The confidence of 0.4 that a proposed lesson has. -/
def proposalConfidence : Confidence ℚ :=
  ⟨mkRat 3602879701896397 (2 ^ 53), by norm_num [Rat.mkRat_eq_div]⟩

/-- The text that is proposed for a stage. -/
def recurrenceText (windowText stage : String) : String :=
  s!"Stage `{stage}` accumulated {minStageRecurrence}+ reflections within " ++
    s!"the last {windowText} days; review the recurring friction and extract " ++
    "a durable lesson."

section Scan

variable (host : ReingestHost) (path dir : String) (run : ReingestRun) (windowDays : PyFloat)

/-- `parse_timestamp(timestamp) - timedelta(days=window_days)`. -/
def windowStart (timestamp : String) : Except ReingestFailure PyDatetime := do
  let moment ← (parseTimestamp host.fromisoformat timestamp).mapError .timestamp
  match host.minusDays windowDays moment with
  | none => .error .window
  | some start => .ok start

/-- `parse_timestamp(reflection.created_at) >= window_start`. -/
def inWindow (start : PyDatetime) (reflection : Reflection) : Except ReingestFailure Bool := do
  let moment ← (parseTimestamp host.fromisoformat reflection.createdAt).mapError .timestamp
  match moment.since? start with
  | none => .error .mixedDatetimes
  | some micros => .ok (decide (0 ≤ micros))

/-- The reflections inside the window. -/
def recentReflections (start : PyDatetime) (all : List Reflection) :
    Except ReingestFailure (List Reflection) := do
  let read ← all.mapM fun reflection => do
    return (reflection, ← inWindow host start reflection)
  return (read.filter Prod.snd).map Prod.fst

/-- `lesson_store.list(status=status)`. -/
def listLessons (status : LessonStatus) :
    Effect DreamerStores ReingestFailure (List (Lesson ℚ)) := do
  let document ← Effect.ofExcept ((loadLessons path (← get).lessons).mapError .lessons)
  return document.list status none

/-- The body of the loop over the stages. -/
def proposeLesson (recurrence : Dict String Nat) (pendingTexts : List String)
    (lessonsProposed : List String) (stage : String) :
    Effect DreamerStores ReingestFailure (List String) :=
  if (recurrence.get? stage).getD 0 < minStageRecurrence then return lessonsProposed
  else
    let text := recurrenceText (host.general windowDays) stage
    if text ∈ pendingTexts then return lessonsProposed
    else do
      let lesson ← ((addLesson .exact host.lower path (run.lessonStamp stage) text
        proposalConfidence ["dreamer", "reingest"] (some stage) .reflection none []).mapError
          ReingestFailure.lessons).within DreamerStores.lessons
            fun file stores => { stores with lessons := file }
      return lessonsProposed ++ [lesson.id]

/-- The body of the loop over the tensions. -/
def recordTension (existingSummaries : List String) (tension : Tension) :
    Effect DreamerStores ReingestFailure (List String) :=
  let summary := tension.summary
  if summary ∈ existingSummaries then return existingSummaries
  else do
    let _ ← ((addReflection (run.reflectionStamp summary) "DreamerTension" summary none [] []
      [("lesson_a", .str tension.lessonA), ("lesson_b", .str tension.lessonB),
        ("shared_terms", .arr (tension.sharedTerms.map .str))]).mapError
          ReingestFailure.reflections).within DreamerStores.reflections
            fun files stores => { stores with reflections := files }
    return summary :: existingSummaries

/-- Re-ingest recent reflections into pending lessons and record tensions. -/
def reingestReflections (now : Option String) :
    Effect DreamerStores ReingestFailure ReingestReport := do
  let start ← Effect.ofExcept (windowStart host windowDays (textOr now run.clock))
  let allReflections ← Effect.ofExcept
    ((listReflections dir (← get).reflections none).mapError .reflections)
  let recent ← Effect.ofExcept (recentReflections host start allReflections)
  let recurrence := recurrenceByStage recent
  let pending ← listLessons path .pending
  let stages := (recurrence.map Prod.fst).insertionSort (· ≤ ·)
  let lessonsProposed ← stages.foldlM
    (proposeLesson host path run windowDays recurrence (pending.map Lesson.text)) []
  let tensions := detectTensions host.lower (← listLessons path .approved)
  let _ ← tensions.foldlM (recordTension run) (allReflections.map Reflection.summary)
  return {
    reflectionsScanned := recent.length
    tensions := tensions
    lessonsProposed := lessonsProposed }

end Scan

end ForgeOS
