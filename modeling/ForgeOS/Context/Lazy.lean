import ForgeOS.Context.Registry
import ForgeOS.Library.Trim
import ForgeOS.Memory.Lessons
import ForgeOS.Text
import Mathlib.Algebra.Field.Rat
import Mathlib.Algebra.Order.Ring.Rat
import Mathlib.Data.Prod.Lex
import Mathlib.Data.String.Basic

/-!
The lazy context of a stage agent: a menu of the installed skills and an index
of lessons with low confidence, cut down to a share of the token budget.
-/

namespace ForgeOS

open Library

/-- What the lazy context takes from Python's library. -/
structure LazyHost where
  /-- `json.dumps(value, sort_keys=True, default=str)`. -/
  dumps : Json → String
  /-- `str(value)`, of what is not a string. -/
  str : Json → String

/-- Why no context can be assembled. -/
inductive ContextFailure where
  /-- A `LessonStoreError`. -/
  | lessonStore (message : String)
  /-- A `LazyContextError`. -/
  | lazy (message : String)
  | valueError
  | typeError
  | overflowError
deriving DecidableEq, Repr

/-! ### The skill menu -/

/-- A `.yaml` file in `~/.forge/skills`. -/
inductive SkillFile where
  /-- Bytes that reading raises a `ValueError` on. -/
  | unreadable
  | malformed
  | notMapping
  | record (stem : String) (data : JsonObject)
deriving Repr

/-- `list_records`, of the files in the order of their paths. -/
def listRecords : List SkillFile → Except ContextFailure (List JsonObject)
  | [] => .ok []
  | .unreadable :: _ => .error .valueError
  | .malformed :: rest => listRecords rest
  | .notMapping :: rest => listRecords rest
  | .record stem data :: rest =>
      let named := if (data.get? "name").isSome then data else data.set "name" (.str stem)
      (listRecords rest).map (named :: ·)

structure SkillEntry where
  name : String
  description : String
deriving DecidableEq, Repr

def firstLine (text : String) : String :=
  String.ofList ((pyStrip text).toList.takeWhile fun c => ¬ isLineBreak c)

/-- `status in MENU_STATUSES`; a list or a mapping has no hash. -/
def inMenu (status : Option Json) : Except ContextFailure Bool :=
  match status with
  | some (.str value) => .ok (value = "installed" ∨ value = "approved")
  | some (.arr _) => .error .typeError
  | some (.obj _) => .error .typeError
  | _ => .ok false

def menuRecords : List JsonObject → Except ContextFailure (List JsonObject)
  | [] => .ok []
  | record :: rest => do
      let listed ← inMenu (record.get? "status")
      let others ← menuRecords rest
      return if listed then record :: others else others

/-- What the agent reads of a lesson in the index. -/
structure IndexEntry where
  id : String
  summary : String
  confidence : Confidence ℚ
  tags : List String
deriving DecidableEq

/-- The summary is `lesson.text[:SUMMARY_MAX_CHARS]`. -/
def Lesson.indexEntry (lesson : Lesson ℚ) : IndexEntry where
  id := lesson.id
  summary := String.ofList (lesson.text.toList.take 80)
  confidence := lesson.confidence
  tags := lesson.tags

def SkillEntry.json (entry : SkillEntry) : Json :=
  .obj [("name", .str entry.name), ("description", .str entry.description)]

def IndexEntry.json (entry : IndexEntry) : Json :=
  .obj [("id", .str entry.id), ("summary", .str entry.summary),
    ("confidence", .float (.finite entry.confidence.1)), ("tags", .arr (entry.tags.map .str))]

abbrev Indexed := Rendered Lesson.indexEntry

section Building

variable (host : LazyHost)

/-- `str(record.get(key, ""))`. -/
def recordText (record : JsonObject) (key : String) : String :=
  match record.get? key with
  | none => ""
  | some (.str value) => value
  | some value => host.str value

def skillMenu (skills : List SkillFile) : Except ContextFailure (List SkillEntry) := do
  let records ← menuRecords (← listRecords skills)
  let menu := records.map fun record => {
    name := recordText host record "name"
    description := firstLine (recordText host record "description") }
  return menu.insertionSort fun a b => a.name ≤ b.name

/-! ### The lesson index -/

/-- `_low_confidence_lessons`, of a loaded store. -/
def LessonDocument.lowConfidence (document : LessonDocument ℚ) (stageId : Option String)
    (maxConfidence : ℚ) : List (Lesson ℚ) :=
  (document.list .approved stageId).filter fun lesson => lesson.confidence.1 < maxConfidence

/-- The double nearest to `0.7`, the bound of `lesson_index`. -/
def maxConfidence : ℚ := mkRat 6305039478318694 (2 ^ 53)

def lessonIndex (document : LessonDocument ℚ) (stageId : Option String) : List Indexed :=
  (document.lowConfidence stageId maxConfidence).map fun lesson =>
    lesson.rendered Lesson.indexEntry

/-! ### The budget -/

/-- The double nearest to an integer, ties to even. -/
def nearestDouble (value : Nat) : Nat :=
  let unit := 2 ^ (value.log2 - 52)
  let quotient := value / unit
  let remainder := value % unit
  if unit < 2 * remainder ∨ 2 * remainder = unit ∧ quotient % 2 = 1 then (quotient + 1) * unit
  else quotient * unit

/-- `max(1, int(token_budget * LAZY_BUDGET_SHARE))`. -/
def lazyBudget (tokenBudget : Nat) : Except ContextFailure Nat :=
  let double := nearestDouble tokenBudget
  if 1024 ≤ double.log2 then .error .overflowError else .ok (max 1 (double / 4))

def entryTokens (entry : Json) : Nat := estimateTokens (host.dumps entry)

def lazyTotal (menu : List SkillEntry) (index : List Indexed) : Nat :=
  (menu.map fun entry => entryTokens host entry.json).sum +
    (index.map fun indexed => entryTokens host indexed.entry.json).sum

/-- The key the victim is least by. -/
def Indexed.key (indexed : Indexed) : Lex (ℚ × String) :=
  toLex (indexed.entry.confidence.1, indexed.entry.id)

/-- `index.remove(victim)`: the first entry that equals the victim. -/
def removeEntry (index : List Indexed) (victim : Indexed) : List Indexed :=
  index.eraseP fun indexed => indexed.entry = victim.entry

/-- The loop that trims the index; the second value is what it adds to
`trimmed`. Each round makes the index shorter. -/
def trimIndex (menu : List SkillEntry) (budget : Nat) :
    Nat → List Indexed → List Indexed × List String
  | 0, index => (index, [])
  | fuel + 1, index =>
      if budget < lazyTotal host menu index then
        match firstLeast Indexed.key index with
        | some victim =>
            let rest := trimIndex menu budget fuel (removeEntry index victim)
            (rest.1, s!"lesson:{victim.entry.id}" :: rest.2)
        | none => (index, [])
      else (index, [])

/-- The loop that trims the menu, from its end. -/
def trimMenu (index : List Indexed) (budget : Nat) :
    Nat → List SkillEntry → List SkillEntry × List String
  | 0, menu => (menu, [])
  | fuel + 1, menu =>
      if budget < lazyTotal host menu index then
        match menu.getLast? with
        | some victim =>
            let rest := trimMenu index budget fuel menu.dropLast
            (rest.1, s!"skill:{victim.name}" :: rest.2)
        | none => (menu, [])
      else (menu, [])

/-- The composed menu and index. -/
structure LazyContextBundle where
  schemaVersion : String := "0.1"
  stageId : String
  skillsMenu : List SkillEntry
  lessonIndex : List Indexed
  tokenBudget : Int
  lazyTokens : Nat
  trimmed : List String
  withinBudget : Bool

/-- The error `build` makes of one of the lesson store. -/
def ContextFailure.ofLessons : LessonFailure → ContextFailure
  | .store message => .lazy s!"Could not load lessons for lazy context: {message}"
  | .valueError => .valueError

/-- `LazyContextBuilder.build`. -/
def buildLazyContext (skills : List SkillFile) (path : String) (file : LessonFile ℚ)
    (stageId : String) (tokenBudget : Int) : Except ContextFailure LazyContextBundle := do
  if tokenBudget < 1 then
    throw (.lazy "Lazy context token budget must be positive.")
  let menu ← skillMenu host skills
  let document ← (loadLessons path file).mapError .ofLessons
  let index := lessonIndex document (some stageId)
  let budget ← lazyBudget tokenBudget.toNat
  let (index, trimmedLessons) := trimIndex host menu budget index.length index
  let (menu, trimmedSkills) := trimMenu host index budget menu.length menu
  let lazyTokens := lazyTotal host menu index
  return {
    stageId := stageId
    skillsMenu := menu
    lessonIndex := index
    tokenBudget := tokenBudget
    lazyTokens := lazyTokens
    trimmed := trimmedLessons ++ trimmedSkills
    withinBudget := lazyTokens ≤ budget }

end Building

/-! ### What the loops leave -/

section Trimming

variable {host : LazyHost}

def menuTokens (host : LazyHost) (menu : List SkillEntry) : Nat :=
  (menu.map fun entry => entryTokens host entry.json).sum

def Indexed.tokens (host : LazyHost) (indexed : Indexed) : Nat :=
  entryTokens host indexed.entry.json

theorem lazyTotal_eq (host : LazyHost) (menu : List SkillEntry) (index : List Indexed) :
    lazyTotal host menu index = menuTokens host menu + totalWeight (Indexed.tokens host) index :=
  rfl

theorem trimIndex_fst (host : LazyHost) (menu : List SkillEntry) (budget fuel : Nat)
    (index : List Indexed) : (trimIndex host menu budget fuel index).1 =
      trim Indexed.key (Indexed.tokens host) (menuTokens host menu) budget removeEntry fuel
        index := by
  induction fuel generalizing index with
  | zero => rfl
  | succ fuel ih =>
      rw [trimIndex, trim, lazyTotal_eq]
      split
      · cases firstLeast Indexed.key index with
        | none => rfl
        | some victim => exact ih (removeEntry index victim)
      · rfl

theorem removeEntry_of_leastAt {before after : List Indexed} {victim : Indexed}
    (h : LeastAt Indexed.key before victim after) :
    removeEntry (before ++ victim :: after) victim = before ++ after := by
  have hbefore : ∀ indexed ∈ before, ¬ decide (indexed.entry = victim.entry) = true := by
    intro indexed hindexed hequal
    have hkey : indexed.key = victim.key := by
      rw [Indexed.key, of_decide_eq_true hequal, Indexed.key]
    exact absurd (h.before indexed hindexed) (by rw [hkey]; exact lt_irrefl _)
  rw [removeEntry, List.eraseP_append_right _ hbefore, List.eraseP_cons_of_pos (by simp)]

theorem mem_trimIndex_iff (menu : List SkillEntry) (budget : Nat) (index : List Indexed)
    (indexed : Indexed) :
    indexed ∈ (trimIndex host menu budget index.length index).1 ↔
      ∃ before after, index = before ++ indexed :: after ∧ menuTokens host menu +
        weightFrom Indexed.key (Indexed.tokens host) before indexed after ≤ budget := by
  rw [trimIndex_fst]
  exact mem_trim_iff (fun _ _ _ h => removeEntry_of_leastAt h) (Nat.le_refl _) indexed

theorem buildLazyContext_of_not_positive {tokenBudget : Int} (h : tokenBudget < 1)
    (skills : List SkillFile) (path : String) (file : LessonFile ℚ) (stageId : String) :
    buildLazyContext host skills path file stageId tokenBudget =
      .error (.lazy "Lazy context token budget must be positive.") := by
  rw [buildLazyContext, if_pos h]
  rfl

end Trimming

/-! ### What building ends in -/

section Outcomes

variable {host : LazyHost}

theorem listRecords_error {skills : List SkillFile} {failure : ContextFailure}
    (h : listRecords skills = .error failure) : failure = .valueError := by
  induction skills with
  | nil => cases h
  | cons skill rest ih =>
      cases skill with
      | unreadable => exact (Except.error.inj h).symm
      | malformed => exact ih h
      | notMapping => exact ih h
      | record stem data =>
          cases hrest : listRecords rest with
          | ok records => simp [listRecords, hrest, Except.map] at h
          | error other =>
              rw [listRecords, hrest] at h
              obtain rfl := Except.error.inj h
              exact ih hrest

theorem menuRecords_error {records : List JsonObject} {failure : ContextFailure}
    (h : menuRecords records = .error failure) : failure = .typeError := by
  induction records with
  | nil => cases h
  | cons record rest ih =>
      rw [menuRecords] at h
      cases hstatus : inMenu (record.get? "status") with
      | error other =>
          rw [hstatus] at h
          obtain rfl := Except.error.inj h
          unfold inMenu at hstatus
          split at hstatus <;> simp_all
      | ok listed =>
          cases hrest : menuRecords rest with
          | error other =>
              rw [hstatus, hrest] at h
              obtain rfl := Except.error.inj h
              exact ih hrest
          | ok others =>
              rw [hstatus, hrest] at h
              cases h

/-- What the menu raises is not caught when a context is assembled. -/
theorem skillMenu_error {skills : List SkillFile} {failure : ContextFailure}
    (h : skillMenu host skills = .error failure) (message : String) :
    failure ≠ .lazy message := by
  rw [skillMenu] at h
  cases hlisted : listRecords skills with
  | error other =>
      rw [hlisted] at h
      rw [← Except.error.inj h, listRecords_error hlisted]
      exact nofun
  | ok records =>
      cases hmenu : menuRecords records with
      | error other =>
          rw [hlisted] at h
          change (menuRecords records >>= _) = _ at h
          rw [hmenu] at h
          rw [← Except.error.inj h, menuRecords_error hmenu]
          exact nofun
      | ok menu =>
          rw [hlisted] at h
          change (menuRecords records >>= _) = _ at h
          rw [hmenu] at h
          cases h

theorem lazyBudget_error {tokenBudget : Nat} {failure : ContextFailure}
    (h : lazyBudget tokenBudget = .error failure) : failure = .overflowError := by
  unfold lazyBudget at h
  dsimp only at h
  split at h
  · exact (Except.error.inj h).symm
  · cases h

variable {skills : List SkillFile} {path : String} {file : LessonFile ℚ} {tokenBudget : Int}

theorem buildLazyContext_of_menu_error {failure : ContextFailure} (hpositive : 1 ≤ tokenBudget)
    (hmenu : skillMenu host skills = .error failure) (stageId : String) :
    buildLazyContext host skills path file stageId tokenBudget = .error failure := by
  rw [buildLazyContext, if_neg (not_lt.mpr hpositive), hmenu]
  rfl

theorem buildLazyContext_of_budget_error {menu : List SkillEntry} {document : LessonDocument ℚ}
    {failure : ContextFailure} (hpositive : 1 ≤ tokenBudget)
    (hmenu : skillMenu host skills = .ok menu) (hload : loadLessons path file = .ok document)
    (hbudget : lazyBudget tokenBudget.toNat = .error failure) (stageId : String) :
    buildLazyContext host skills path file stageId tokenBudget = .error failure := by
  rw [buildLazyContext, if_neg (not_lt.mpr hpositive), hmenu, hload]
  dsimp only [bind, Except.bind, pure, Except.pure, Except.mapError]
  rw [hbudget]

/-- The bundle made of what the two loops leave. -/
def trimmedBundle (host : LazyHost) (stageId : String) (tokenBudget : Int)
    (menu : List SkillEntry) (index : List Indexed) (budget : Nat) : LazyContextBundle :=
  let lessons := trimIndex host menu budget index.length index
  let skills := trimMenu host lessons.1 budget menu.length menu
  { stageId := stageId
    skillsMenu := skills.1
    lessonIndex := lessons.1
    tokenBudget := tokenBudget
    lazyTokens := lazyTotal host skills.1 lessons.1
    trimmed := lessons.2 ++ skills.2
    withinBudget := lazyTotal host skills.1 lessons.1 ≤ budget }

/-- Otherwise they are trimmed, and nothing fails. -/
theorem buildLazyContext_eq {menu : List SkillEntry} {document : LessonDocument ℚ}
    {budget : Nat} (hpositive : 1 ≤ tokenBudget) (hmenu : skillMenu host skills = .ok menu)
    (hload : loadLessons path file = .ok document)
    (hbudget : lazyBudget tokenBudget.toNat = .ok budget) (stageId : String) :
    buildLazyContext host skills path file stageId tokenBudget =
      .ok (trimmedBundle host stageId tokenBudget menu (lessonIndex document (some stageId))
        budget) := by
  rw [buildLazyContext, if_neg (not_lt.mpr hpositive), hmenu, hload]
  dsimp only [ok_bind, error_bind, pure, Except.pure, Except.mapError]
  rw [hbudget]
  rfl

/-- The index of the bundle is what the loop leaves. -/
theorem buildLazyContext_of_ok {menu : List SkillEntry} {document : LessonDocument ℚ}
    {budget : Nat} (hpositive : 1 ≤ tokenBudget) (hmenu : skillMenu host skills = .ok menu)
    (hload : loadLessons path file = .ok document)
    (hbudget : lazyBudget tokenBudget.toNat = .ok budget) (stageId : String) :
    ∃ bundle, buildLazyContext host skills path file stageId tokenBudget = .ok bundle ∧
      bundle.lessonIndex = (trimIndex host menu budget
        (lessonIndex document (some stageId)).length (lessonIndex document (some stageId))).1 :=
  ⟨_, buildLazyContext_eq hpositive hmenu hload hbudget stageId, rfl⟩

end Outcomes

end ForgeOS
