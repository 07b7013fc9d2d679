import ForgeOS.Dreamer.Decay
import ForgeOS.Memory.LessonContext

/-!
The lessons of a project under the calls that approve, deprecate, revive, render
and decay them. Nothing removes a lesson or rewrites it, and what the store says
of it is what the calls that returned have done to it.
-/

namespace ForgeOS

open Library

/-! ### Calls and what they do -/

/-- What the store takes from Python, and its path. -/
structure LessonHost where
  yaml : YamlHost
  /-- `str.lower` -/
  lower : String → String
  fromisoformat : String → Option PyDatetime
  path : String

section Types

variable (κ : Type) [LinearOrder κ] [Zero κ] [One κ]

/-- A call on the store, with what `uuid4` and the clock return. -/
inductive LessonCall where
  | addLesson (stamp : MemoryStamp) (text : String) (confidence : Confidence κ) (tags : List String)
      (stageId : Option String) (source : LessonSource) (status : Option LessonStatus)
      (metadata : Metadata)
  | approveLesson (id timestamp : String)
  | deprecateLesson (id timestamp : String)
  | revive (id timestamp : String)
  | renderContext (timestamp : String) (stageId : Option String) (minConfidence : κ) (limit : Int)
  | applyDecay (timestamp : String) (halfLifeDays dormancyThreshold dormancyDays : κ)

/-- What a call that returned has done. -/
inductive LessonEvent where
  | added (lesson : Lesson κ)
  | approved (id timestamp : String)
  | deprecated (id timestamp : String)
  | revived (id timestamp : String)
  | used (ids : List String) (timestamp : String)
  | decayed (dormantIds : List String) (timestamp : String)

end Types

section Lives

variable {κ : Type} [LinearOrder κ] [Zero κ] [One κ]

def LessonCall.newId? : LessonCall κ → Option String
  | .addLesson stamp .. => some s!"lesson-{stamp.uuid}"
  | _ => none

/-- What is new in a call comes back from a dump: a lesson, or a time. -/
def LessonCall.Kept (host : LessonHost) : LessonCall κ → Prop
  | .addLesson stamp text confidence tags stageId source status metadata =>
      (newLesson host.lower stamp text confidence tags stageId source status metadata).Kept
        host.yaml
  | .approveLesson _ timestamp | .deprecateLesson _ timestamp | .revive _ timestamp
  | .renderContext timestamp _ _ _ | .applyDecay timestamp _ _ _ =>
      host.yaml.text timestamp = timestamp

/-- What is told of a call: the event, if it returned. -/
def tell {ε α : Type} (ran : Except ε α × LessonFile κ) (event : α → LessonEvent κ) :
    Option (LessonEvent κ) × LessonFile κ :=
  (ran.1.toOption.map event, ran.2)

section Perform

variable [DecayArithmetic κ]

/-- Make a call. -/
def LessonCall.perform (host : LessonHost) (file : LessonFile κ) :
    LessonCall κ → Option (LessonEvent κ) × LessonFile κ
  | .addLesson stamp text confidence tags stageId source status metadata =>
      tell ((ForgeOS.addLesson host.yaml host.lower host.path stamp text confidence tags stageId
        source status metadata).exec file) .added
  | .approveLesson id timestamp =>
      tell ((ForgeOS.approveLesson host.yaml host.path timestamp id).exec file)
        fun _ => .approved id timestamp
  | .deprecateLesson id timestamp =>
      tell ((ForgeOS.deprecateLesson host.yaml host.path timestamp id).exec file)
        fun _ => .deprecated id timestamp
  | .revive id timestamp =>
      tell ((ForgeOS.revive host.yaml host.path timestamp id).exec file)
        fun _ => .revived id timestamp
  | .renderContext timestamp stageId minConfidence limit =>
      tell ((ForgeOS.renderContext host.yaml host.path timestamp stageId minConfidence
        limit).exec file)
        fun entries => .used (entries.map fun rendered => rendered.entry.id) timestamp
  | .applyDecay timestamp halfLifeDays dormancyThreshold dormancyDays =>
      tell ((ForgeOS.applyDecay host.fromisoformat host.yaml host.path halfLifeDays
        dormancyThreshold dormancyDays timestamp).exec file)
        fun report => .decayed report.dormantIds timestamp

/-- A call, entered in the log of what has been done. -/
def LessonHost.call (host : LessonHost) (before : List (LessonEvent κ) × LessonFile κ)
    (call : LessonCall κ) : List (LessonEvent κ) × LessonFile κ :=
  let (event, file) := call.perform host before.2
  (before.1 ++ event.toList, file)

end Perform

/-! ### The life of a lesson -/

/-- What nothing changes of a lesson. -/
structure LessonOrigin where
  id : String
  text : String
  tags : List String
  stageId : Option String
  source : LessonSource
  createdAt : String
  metadata : Metadata

def Lesson.origin (lesson : Lesson κ) : LessonOrigin :=
  ⟨lesson.id, lesson.text, lesson.tags, lesson.stageId, lesson.source, lesson.createdAt,
    lesson.metadata⟩

namespace LessonEvent

def new? : LessonEvent κ → Option (Lesson κ)
  | .added lesson => some lesson
  | _ => none

def verdict? (id : String) : LessonEvent κ → Option (LessonStatus × String)
  | .approved other timestamp => if other = id then some (.approved, timestamp) else none
  | .deprecated other timestamp => if other = id then some (.deprecated, timestamp) else none
  | _ => none

/-- The time of a use of it. -/
def use? (id : String) : LessonEvent κ → Option String
  | .used ids timestamp => if id ∈ ids then some timestamp else none
  | _ => none

/-- Since when it is dormant, where that changes. -/
def sleep? (id : String) : LessonEvent κ → Option (Option String)
  | .decayed ids timestamp => if id ∈ ids then some (some timestamp) else none
  | .revived other _ => if other = id then some none else none
  | _ => none

/-- The ids an event is about. -/
def ids : LessonEvent κ → List String
  | .added lesson => [lesson.id]
  | .approved id _ => [id]
  | .deprecated id _ => [id]
  | .revived id _ => [id]
  | .used ids _ => ids
  | .decayed ids _ => ids

/-- What an event makes of a lesson that is in the store. -/
def Changes (event : LessonEvent κ) (before after : Lesson κ) : Prop :=
  match event with
  | .added _ => after = before
  | .approved id timestamp => after = if before.id = id then before.approved timestamp else before
  | .deprecated id timestamp =>
      after = if before.id = id then before.deprecated timestamp else before
  | .revived id timestamp => after = if before.id = id then before.revived timestamp else before
  | .used ids timestamp => after = before.touch ids timestamp
  | .decayed ids timestamp => ∃ confidence : Confidence κ, confidence.1 ≤ before.confidence.1 ∧
      after = if before.id ∈ ids then
        { before with
          confidence := confidence
          dormant := true
          dormantAt := some timestamp }
      else { before with confidence := confidence }

end LessonEvent

/-- What the store says of a lesson, by the lessons that were added, and the
verdicts on it, its uses and its sleeps in their order. -/
structure Lesson.Life (added : List (Lesson κ)) (verdicts : List (LessonStatus × String))
    (uses : List String) (sleeps : List (Option String)) (lesson : Lesson κ) : Prop where
  first : ∃ first ∈ added, lesson.origin = first.origin ∧
    lesson.confidence.1 ≤ first.confidence.1 ∧
    lesson.status = (verdicts.getLast?.map Prod.fst).getD first.status
  approvedAt : lesson.approvedAt =
    (verdicts.filter fun verdict => verdict.1 = .approved).getLast?.map Prod.snd
  deprecatedAt : lesson.deprecatedAt = verdicts.getLast?.bind fun verdict =>
    if verdict.1 = .deprecated then some verdict.2 else none
  useCount : lesson.useCount = uses.length
  lastUsedAt : lesson.lastUsedAt = uses.getLast?
  dormantAt : lesson.dormantAt = sleeps.getLast?.join
  dormant : lesson.dormant = lesson.dormantAt.isSome

/-- The store says of a lesson what has been done to it. -/
def Lesson.LivedBy (log : List (LessonEvent κ)) (lesson : Lesson κ) : Prop :=
  lesson.Life (log.filterMap LessonEvent.new?) (log.filterMap (LessonEvent.verdict? lesson.id))
    (log.filterMap (LessonEvent.use? lesson.id)) (log.filterMap (LessonEvent.sleep? lesson.id))

/-- A lesson to which nothing has been done. -/
def Lesson.Pristine (lesson : Lesson κ) : Prop :=
  lesson.approvedAt = none ∧ lesson.deprecatedAt = none ∧ lesson.lastUsedAt = none ∧
    lesson.useCount = 0 ∧ lesson.dormant = false ∧ lesson.dormantAt = none

theorem LessonEvent.forall_new {event : LessonEvent κ} {P : Lesson κ → Prop}
    (h : event.new? = none) (lesson : Lesson κ) (hlesson : lesson ∈ event.new?) : P lesson := by
  rw [h] at hlesson
  exact absurd hlesson (Option.not_mem_none lesson)

/-- A call that returns has done what its event says. -/
structure LessonCall.Does (call : LessonCall κ) (before after : LessonDocument κ)
    (event : LessonEvent κ) : Prop where
  changed : ∃ change : Lesson κ → Lesson κ,
    after.lessons = before.lessons.map change ++ event.new?.toList ∧
      ∀ lesson ∈ before.lessons, event.Changes lesson (change lesson)
  named : ∀ id ∈ event.ids,
    id ∈ before.lessons.map Lesson.id ++ event.new?.toList.map Lesson.id
  new : ∀ lesson ∈ event.new?, call.newId? = some lesson.id ∧ lesson.Pristine

/-- The time of an event, which it writes into the store. -/
def LessonEvent.time? : LessonEvent κ → Option String
  | .added _ => none
  | .approved _ timestamp | .deprecated _ timestamp | .revived _ timestamp | .used _ timestamp
  | .decayed _ timestamp => some timestamp

/-- A lesson that comes back from a dump does so when it has been changed. -/
theorem LessonEvent.Changes.kept {yaml : YamlHost} {event : LessonEvent κ}
    {lesson after : Lesson κ} (h : event.Changes lesson after) (hkept : lesson.Kept yaml)
    (htime : ∀ timestamp ∈ event.time?, yaml.text timestamp = timestamp) : after.Kept yaml := by
  rw [Lesson.kept_iff] at hkept
  cases event with
  | added other =>
      obtain rfl : after = lesson := h
      rwa [Lesson.kept_iff]
  | approved id timestamp =>
      have htime : yaml.text timestamp = timestamp := htime timestamp rfl
      obtain rfl : after = if lesson.id = id then lesson.approved timestamp else lesson := h
      split <;> simp_all [Lesson.kept_iff, Lesson.approved]
  | deprecated id timestamp =>
      have htime : yaml.text timestamp = timestamp := htime timestamp rfl
      obtain rfl : after = if lesson.id = id then lesson.deprecated timestamp else lesson := h
      split <;> simp_all [Lesson.kept_iff, Lesson.deprecated]
  | revived id timestamp =>
      have htime : yaml.text timestamp = timestamp := htime timestamp rfl
      obtain rfl : after = if lesson.id = id then lesson.revived timestamp else lesson := h
      split <;> simp_all [Lesson.kept_iff, Lesson.revived]
  | used ids timestamp =>
      have htime : yaml.text timestamp = timestamp := htime timestamp rfl
      obtain rfl : after = lesson.touch ids timestamp := h
      unfold Lesson.touch
      split <;> simp_all [Lesson.kept_iff]
  | decayed ids timestamp =>
      have htime : yaml.text timestamp = timestamp := htime timestamp rfl
      obtain ⟨confidence, -, rfl⟩ := h
      split <;> simp_all [Lesson.kept_iff]

theorem LessonDocument.Kept.changed {yaml : YamlHost} {document : LessonDocument κ}
    (h : document.Kept yaml) {event : LessonEvent κ} {change : Lesson κ → Lesson κ}
    (hchange : ∀ lesson ∈ document.lessons, event.Changes lesson (change lesson))
    (htime : ∀ timestamp ∈ event.time?, yaml.text timestamp = timestamp) :
    ({ document with lessons := document.lessons.map change } : LessonDocument κ).Kept yaml := by
  obtain ⟨hversion, hextra, hlessons⟩ := LessonDocument.kept_iff.mp h
  refine LessonDocument.kept_iff.mpr ⟨hversion, hextra, List.forall_mem_map.mpr ?_⟩
  exact fun lesson hlesson => (hchange lesson hlesson).kept (hlessons lesson hlesson) htime

theorem ids_rendered {document : LessonDocument κ} {selectedIds : List String}
    (hselected : ∀ id ∈ selectedIds, id ∈ document.lessons.map Lesson.id) (timestamp : String) :
    (document.rendered selectedIds timestamp).map (fun rendered => rendered.entry.id) =
      selectedIds := by
  rw [LessonDocument.rendered, List.map_filterMap]
  refine (List.filterMap_congr fun id hid => ?_).trans List.filterMap_some
  obtain ⟨lesson, hlesson, hid⟩ := List.mem_map.mp (hselected id hid)
  obtain ⟨found, hfound⟩ : ∃ found, document.lastWithId id = some found := by
    rw [← Option.isSome_iff_exists, LessonDocument.lastWithId, List.find?_isSome]
    exact ⟨lesson, List.mem_reverse.mpr hlesson, decide_eq_true hid⟩
  have hfoundId : found.id = id := by simpa using List.find?_some hfound
  rw [hfound]
  exact congrArg some ((Lesson.touch_id _ _ found).trans hfoundId)

section Calls

variable [DecayArithmetic κ]

/-- A call returns and has done what it says, or raises and leaves the file as
it is. -/
def LessonCall.DoesOrRaises (call : LessonCall κ) (host : LessonHost) (file : LessonFile κ)
    (before : LessonDocument κ) : Prop :=
  (∃ event file' after, call.perform host file = (some event, file') ∧
    loadLessons host.path file' = .ok after ∧ after.Kept host.yaml ∧
    call.Does before after event) ∨
  call.perform host file = (none, file)

variable {host : LessonHost} {file : LessonFile κ} {document : LessonDocument κ}

theorem doesOrRaises_addLesson (hload : loadLessons host.path file = .ok document)
    (hkept : document.Kept host.yaml) {stamp : MemoryStamp} {text : String}
    {confidence : Confidence κ} {tags : List String} {stageId : Option String}
    {source : LessonSource} {status : Option LessonStatus} {metadata : Metadata}
    (hcall : (LessonCall.addLesson stamp text confidence tags stageId source status
      metadata).Kept host) :
    (LessonCall.addLesson stamp text confidence tags stageId source status
      metadata).DoesOrRaises host file document := by
  let lesson := newLesson host.lower stamp text confidence tags stageId source status metadata
  have hafter : ({ document with lessons := document.lessons ++ [lesson] }
      : LessonDocument κ).Kept host.yaml := by
    obtain ⟨hversion, hextra, hlessons⟩ := LessonDocument.kept_iff.mp hkept
    refine LessonDocument.kept_iff.mpr ⟨hversion, hextra, List.forall_mem_append.mpr ?_⟩
    exact ⟨hlessons, List.forall_mem_singleton.mpr hcall⟩
  unfold LessonCall.DoesOrRaises
  dsimp only [LessonCall.perform]
  unfold addLesson
  split
  · exact Or.inr rfl
  · simp only [Effect.exec_bind, Effect.exec_get, Effect.exec_ofExcept, hload]
    rw [exec_saveLessons hafter]
    refine Or.inl ⟨.added lesson, _, _, rfl, rfl, hafter, ⟨id, ?_, fun _ _ => rfl⟩, ?_, ?_⟩
    · rw [List.map_id]
      rfl
    · intro id hid
      obtain rfl := List.mem_singleton.mp hid
      exact List.mem_append_right _ (List.mem_singleton.mpr rfl)
    · intro new hnew
      obtain rfl := Option.some.inj hnew
      exact ⟨rfl, rfl, rfl, rfl, rfl, rfl, rfl⟩

theorem doesOrRaises_changeLesson {call : LessonCall κ} {event : LessonEvent κ} {id : String}
    {change : Lesson κ → Lesson κ} (hload : loadLessons host.path file = .ok document)
    (hkept : document.Kept host.yaml) (hids : (document.lessons.map Lesson.id).Nodup)
    (hcall : call.perform host file =
      tell ((changeLesson host.yaml host.path change id).exec file) fun _ => event)
    (hevent : event.ids = [id]) (hnew : event.new? = none)
    (htime : ∀ timestamp ∈ event.time?, host.yaml.text timestamp = timestamp)
    (hchanges : ∀ lesson, event.Changes lesson (if lesson.id = id then change lesson else lesson)) :
    call.DoesOrRaises host file document := by
  have hafter := hkept.changed (fun lesson _ => hchanges lesson) htime
  unfold LessonCall.DoesOrRaises
  rw [hcall]
  cases hfind : document.lessons.find? fun lesson => lesson.id = id with
  | none =>
      simp only [changeLesson, Effect.exec_bind, Effect.exec_get, Effect.exec_ofExcept, hload,
        hfind]
      exact Or.inr rfl
  | some lesson =>
      rw [exec_changeLesson hload hfind change (by rwa [changeFirst_eq_map hids])]
      refine Or.inl ⟨event, _, _, rfl, rfl, hafter, ⟨_, ?_, fun lesson _ => hchanges lesson⟩,
        ?_, ?_⟩
      · rw [hnew, Option.toList_none, List.append_nil]
      · intro other hother
        rw [hevent, List.mem_singleton] at hother
        have hid := List.find?_some hfind
        rw [hother, ← of_decide_eq_true hid]
        exact List.mem_append_left _ (List.mem_map_of_mem (List.mem_of_find?_eq_some hfind))
      · exact LessonEvent.forall_new hnew

theorem doesOrRaises_renderContext (hload : loadLessons host.path file = .ok document)
    (hkept : document.Kept host.yaml) {timestamp : String}
    (htime : host.yaml.text timestamp = timestamp) (stageId : Option String)
    (minConfidence : κ) (limit : Int) :
    (LessonCall.renderContext timestamp stageId minConfidence limit).DoesOrRaises host file
      document := by
  let selectedIds := (document.approvedForContext stageId minConfidence limit).map Lesson.id
  have hchanges : ∀ lesson ∈ document.lessons,
      (LessonEvent.used selectedIds timestamp).Changes lesson
        (lesson.touch selectedIds timestamp) :=
    fun _ _ => rfl
  have hafter : (document.touch selectedIds timestamp).Kept host.yaml :=
    hkept.changed hchanges fun _ h => Option.some.inj h ▸ htime
  obtain ⟨file', hexec, hload'⟩ :=
    exec_renderContext_of_kept host.yaml timestamp stageId minConfidence limit hload hafter
  have hselected : ∀ id ∈ selectedIds, id ∈ document.lessons.map Lesson.id := by
    intro id hid
    obtain ⟨lesson, hlesson, rfl⟩ := List.mem_map.mp hid
    exact List.mem_map_of_mem (mem_lessons_of_mem_approved hlesson)
  unfold LessonCall.DoesOrRaises
  dsimp only [LessonCall.perform]
  rw [hexec]
  refine Or.inl ⟨.used selectedIds timestamp, file', _, ?_, hload', hafter,
    ⟨_, ?_, fun _ _ => rfl⟩, fun id hid => List.mem_append_left _ (hselected id hid),
    LessonEvent.forall_new rfl⟩
  · exact congrArg (fun ids => (some (LessonEvent.used ids timestamp), file'))
      (ids_rendered hselected timestamp)
  · exact (List.append_nil _).symm

/-- A run that goes through takes confidence away at most, and reports which
lessons it has put to sleep. -/
theorem changes_decayAt {fromisoformat : String → Option PyDatetime} (settings : DecaySettings κ)
    (timestamp : String) {now : PyDatetime} {lessons : List (Lesson κ)}
    (hids : (lessons.map Lesson.id).Nodup) (hdatable : Datable fromisoformat now lessons)
    {lesson : Lesson κ} (hlesson : lesson ∈ lessons) :
    let decayed := Lesson.decayAt fromisoformat settings timestamp now
    (LessonEvent.decayed (DecayReport.on decayed lessons).dormantIds timestamp).Changes lesson
      (decayed lesson) := by
  intro decayed
  have hreported : lesson.id ∈ (DecayReport.on decayed lessons).dormantIds ↔
      lesson.Examined ∧ (decayed lesson).dormant = true := by
    rw [DecayReport.on, List.mem_map]
    constructor
    · rintro ⟨other, hother, hid⟩
      obtain ⟨hfiltered, hdormant⟩ := List.mem_filter.mp hother
      obtain ⟨hmem, hexamined⟩ := List.mem_filter.mp hfiltered
      obtain rfl := List.inj_on_of_nodup_map hids hmem hlesson hid
      exact ⟨of_decide_eq_true hexamined, hdormant⟩
    · rintro ⟨hexamined, hdormant⟩
      exact ⟨lesson, List.mem_filter.mpr ⟨List.mem_filter.mpr
        ⟨hlesson, decide_eq_true hexamined⟩, hdormant⟩, rfl⟩
  by_cases hexamined : lesson.Examined
  · obtain ⟨days, hdays⟩ := hdatable lesson hlesson hexamined
    have hdecayed : decayed lesson = lesson.decay settings timestamp days :=
      Lesson.decayAt_of_examined settings timestamp hexamined hdays
    refine ⟨lesson.confidence.decayed settings.halfLife days, ?_, ?_⟩
    · exact Confidence.decayed_le settings.halfLife days lesson.confidence
    · rw [hdecayed, Lesson.decay] at hreported ⊢
      split
      · rename_i hrules
        rw [if_pos hrules] at hreported
        rw [if_pos (hreported.mpr ⟨hexamined, rfl⟩)]
      · rename_i hrules
        rw [if_neg hrules] at hreported
        rw [if_neg]
        intro hid
        have hawake := (hreported.mp hid).2
        rw [hexamined.2] at hawake
        cases hawake
  · refine ⟨lesson.confidence, le_rfl, ?_⟩
    rw [if_neg fun hid => hexamined (hreported.mp hid).1]
    exact Lesson.decayAt_of_not_examined settings timestamp hexamined

theorem doesOrRaises_applyDecay (hload : loadLessons host.path file = .ok document)
    (hkept : document.Kept host.yaml) (hids : (document.lessons.map Lesson.id).Nodup)
    {timestamp : String} (htime : host.yaml.text timestamp = timestamp)
    (halfLifeDays dormancyThreshold dormancyDays : κ) :
    (LessonCall.applyDecay timestamp halfLifeDays dormancyThreshold dormancyDays).DoesOrRaises
      host file document := by
  let task : DecayTask κ :=
    ⟨host.fromisoformat, host.path, halfLifeDays, dormancyThreshold, dormancyDays⟩
  have hperform : (LessonCall.applyDecay timestamp halfLifeDays dormancyThreshold
      dormancyDays).perform host file = tell ((task.effectWith host.yaml timestamp).exec file)
        fun report => .decayed report.dormantIds timestamp := rfl
  unfold LessonCall.DoesOrRaises
  rw [hperform]
  by_cases hpasses : ∃ settings now document, task.Passes timestamp file settings now document
  · obtain ⟨settings, now, loaded, hpasses⟩ := hpasses
    obtain rfl : loaded = document := Except.ok.inj (hpasses.loaded.symm.trans hload)
    let decayed := Lesson.decayAt task.fromisoformat settings timestamp now
    have hchanges : ∀ lesson ∈ loaded.lessons, _ := fun lesson hlesson =>
      changes_decayAt settings timestamp hids hpasses.datable hlesson
    have hafter := hkept.changed hchanges fun _ h => Option.some.inj h ▸ htime
    rw [DecayTask.exec_effectWith_of_passes hpasses hafter]
    refine Or.inl ⟨_, _, _, rfl, rfl, hafter, ⟨decayed, (List.append_nil _).symm, hchanges⟩, ?_,
      LessonEvent.forall_new rfl⟩
    intro id hid
    obtain ⟨lesson, hlesson, rfl⟩ := List.mem_map.mp hid
    exact List.mem_append_left _ (List.mem_map_of_mem
      (List.mem_of_mem_filter (List.mem_of_mem_filter hlesson)))
  · obtain ⟨failure, hexec⟩ := DecayTask.exec_effectWith_of_not_passes host.yaml hpasses
    rw [hexec]
    exact Or.inr rfl

theorem doesOrRaises (hload : loadLessons host.path file = .ok document)
    (hkept : document.Kept host.yaml) (hids : (document.lessons.map Lesson.id).Nodup)
    {call : LessonCall κ} (hcall : call.Kept host) : call.DoesOrRaises host file document := by
  cases call with
  | addLesson stamp text confidence tags stageId source status metadata =>
      exact doesOrRaises_addLesson hload hkept hcall
  | approveLesson id timestamp =>
      have hperform : (LessonCall.approveLesson id timestamp).perform host file = tell
        ((changeLesson host.yaml host.path (Lesson.approved timestamp) id).exec file)
          fun _ => .approved id timestamp := rfl
      exact doesOrRaises_changeLesson hload hkept hids hperform rfl rfl
        (fun _ h => Option.some.inj h ▸ hcall) fun _ => rfl
  | deprecateLesson id timestamp =>
      have hperform : (LessonCall.deprecateLesson id timestamp).perform host file = tell
        ((changeLesson host.yaml host.path (Lesson.deprecated timestamp) id).exec file)
          fun _ => .deprecated id timestamp := rfl
      exact doesOrRaises_changeLesson hload hkept hids hperform rfl rfl
        (fun _ h => Option.some.inj h ▸ hcall) fun _ => rfl
  | revive id timestamp =>
      have hperform : (LessonCall.revive id timestamp).perform host file = tell
        ((changeLesson host.yaml host.path (Lesson.revived timestamp) id).exec file)
          fun _ => .revived id timestamp := rfl
      exact doesOrRaises_changeLesson hload hkept hids hperform rfl rfl
        (fun _ h => Option.some.inj h ▸ hcall) fun _ => rfl
  | renderContext timestamp stageId minConfidence limit =>
      exact doesOrRaises_renderContext hload hkept hcall stageId minConfidence limit
  | applyDecay timestamp halfLifeDays dormancyThreshold dormancyDays =>
      exact doesOrRaises_applyDecay hload hkept hids hcall halfLifeDays dormancyThreshold
        dormancyDays

end Calls

/-! ### Life goes on -/

section Life

variable {log : List (LessonEvent κ)} {event : LessonEvent κ} {lesson after : Lesson κ}
  {added : List (Lesson κ)} {verdicts : List (LessonStatus × String)} {uses : List String}
  {sleeps : List (Option String)}

theorem LessonEvent.eq_added (h : lesson ∈ event.new?) : event = .added lesson := by
  cases event with
  | added other => rw [Option.some.inj h]
  | _ => cases h

theorem LessonEvent.Changes.origin (h : event.Changes lesson after) :
    after.origin = lesson.origin := by
  cases event with
  | added other => exact congrArg Lesson.origin h
  | approved id timestamp =>
      rw [show after = _ from h]
      split <;> rfl
  | deprecated id timestamp =>
      rw [show after = _ from h]
      split <;> rfl
  | revived id timestamp =>
      rw [show after = _ from h]
      split <;> rfl
  | used ids timestamp =>
      rw [show after = _ from h]
      unfold Lesson.touch
      split <;> rfl
  | decayed ids timestamp =>
      obtain ⟨confidence, -, rfl⟩ := h
      split <;> rfl

theorem LessonEvent.Changes.id (h : event.Changes lesson after) : after.id = lesson.id :=
  congrArg LessonOrigin.id h.origin

theorem Lesson.Life.change (h : lesson.Life added verdicts uses sleeps)
    (hchange : event.Changes lesson after) :
    after.Life added (verdicts ++ (event.verdict? lesson.id).toList)
      (uses ++ (event.use? lesson.id).toList) (sleeps ++ (event.sleep? lesson.id).toList) := by
  obtain ⟨first, hfirst, horigin, hconfidence, hstatus⟩ := h.first
  have hsame := hchange.origin
  cases event with
  | added other =>
      obtain rfl : after = lesson := hchange
      simpa [LessonEvent.verdict?, LessonEvent.use?, LessonEvent.sleep?] using h
  | approved id timestamp =>
      obtain rfl : after = if lesson.id = id then lesson.approved timestamp else lesson := hchange
      by_cases hid : lesson.id = id
      · rw [if_pos hid]
        simp only [LessonEvent.verdict?, LessonEvent.use?, LessonEvent.sleep?, if_pos hid.symm,
          Option.toList_some, Option.toList_none, List.append_nil]
        exact {
          first := ⟨first, hfirst, horigin, hconfidence, by simp [Lesson.approved]⟩
          approvedAt := by simp [Lesson.approved]
          deprecatedAt := by simp [Lesson.approved]
          useCount := h.useCount
          lastUsedAt := h.lastUsedAt
          dormantAt := h.dormantAt
          dormant := h.dormant }
      · have hother : ¬ id = lesson.id := fun hsame => hid hsame.symm
        simpa [LessonEvent.verdict?, LessonEvent.use?, LessonEvent.sleep?, hid, hother] using h
  | deprecated id timestamp =>
      obtain rfl : after = if lesson.id = id then lesson.deprecated timestamp else lesson :=
        hchange
      by_cases hid : lesson.id = id
      · rw [if_pos hid]
        simp only [LessonEvent.verdict?, LessonEvent.use?, LessonEvent.sleep?, if_pos hid.symm,
          Option.toList_some, Option.toList_none, List.append_nil]
        exact {
          first := ⟨first, hfirst, horigin, hconfidence, by simp [Lesson.deprecated]⟩
          approvedAt := by simpa [Lesson.deprecated] using h.approvedAt
          deprecatedAt := by simp [Lesson.deprecated]
          useCount := h.useCount
          lastUsedAt := h.lastUsedAt
          dormantAt := h.dormantAt
          dormant := h.dormant }
      · have hother : ¬ id = lesson.id := fun hsame => hid hsame.symm
        simpa [LessonEvent.verdict?, LessonEvent.use?, LessonEvent.sleep?, hid, hother] using h
  | revived id timestamp =>
      obtain rfl : after = if lesson.id = id then lesson.revived timestamp else lesson := hchange
      by_cases hid : lesson.id = id
      · rw [if_pos hid]
        simp only [LessonEvent.verdict?, LessonEvent.use?, LessonEvent.sleep?, if_pos hid.symm,
          Option.toList_some, Option.toList_none, List.append_nil]
        exact {
          first := ⟨first, hfirst, horigin, hconfidence, hstatus⟩
          approvedAt := h.approvedAt
          deprecatedAt := h.deprecatedAt
          useCount := h.useCount
          lastUsedAt := h.lastUsedAt
          dormantAt := by simp [Lesson.revived]
          dormant := rfl }
      · have hother : ¬ id = lesson.id := fun hsame => hid hsame.symm
        simpa [LessonEvent.verdict?, LessonEvent.use?, LessonEvent.sleep?, hid, hother] using h
  | used ids timestamp =>
      obtain rfl : after = lesson.touch ids timestamp := hchange
      by_cases hid : lesson.id ∈ ids
      · rw [Lesson.touch, if_pos hid]
        simp only [LessonEvent.verdict?, LessonEvent.use?, LessonEvent.sleep?, if_pos hid,
          Option.toList_some, Option.toList_none, List.append_nil]
        exact {
          first := ⟨first, hfirst, horigin, hconfidence, hstatus⟩
          approvedAt := h.approvedAt
          deprecatedAt := h.deprecatedAt
          useCount := by simp [h.useCount]
          lastUsedAt := by simp
          dormantAt := h.dormantAt
          dormant := h.dormant }
      · rw [Lesson.touch, if_neg hid]
        simpa [LessonEvent.verdict?, LessonEvent.use?, LessonEvent.sleep?, hid] using h
  | decayed ids timestamp =>
      obtain ⟨confidence, hless, rfl⟩ := hchange
      by_cases hid : lesson.id ∈ ids
      · rw [if_pos hid]
        simp only [LessonEvent.verdict?, LessonEvent.use?, LessonEvent.sleep?, if_pos hid,
          Option.toList_some, Option.toList_none, List.append_nil]
        exact {
          first := ⟨first, hfirst, horigin, hless.trans hconfidence, hstatus⟩
          approvedAt := h.approvedAt
          deprecatedAt := h.deprecatedAt
          useCount := h.useCount
          lastUsedAt := h.lastUsedAt
          dormantAt := by simp
          dormant := rfl }
      · rw [if_neg hid]
        simp only [LessonEvent.verdict?, LessonEvent.use?, LessonEvent.sleep?, if_neg hid,
          Option.toList_none, List.append_nil]
        exact {
          first := ⟨first, hfirst, horigin, hless.trans hconfidence, hstatus⟩
          approvedAt := h.approvedAt
          deprecatedAt := h.deprecatedAt
          useCount := h.useCount
          lastUsedAt := h.lastUsedAt
          dormantAt := h.dormantAt
          dormant := h.dormant }

/-- What is told of a lesson stays true of it when it changes. -/
theorem Lesson.LivedBy.change (h : lesson.LivedBy log) (hchange : event.Changes lesson after) :
    after.LivedBy (log ++ [event]) := by
  have hlife := Lesson.Life.change h hchange
  obtain ⟨first, hfirst, hothers⟩ := hlife.first
  unfold LivedBy
  rw [hchange.id, filterMap_snoc, filterMap_snoc, filterMap_snoc, filterMap_snoc]
  exact { hlife with first := ⟨first, List.mem_append_left _ hfirst, hothers⟩ }

/-- Events that do not name a lesson have done nothing to it. -/
theorem LessonEvent.untold {id : String} (h : id ∉ event.ids) :
    event.verdict? id = none ∧ event.use? id = none ∧ event.sleep? id = none := by
  cases event with
  | added other => exact ⟨rfl, rfl, rfl⟩
  | approved other timestamp =>
      have hother : ¬ other = id := fun hsame => h (List.mem_singleton.mpr hsame.symm)
      exact ⟨if_neg hother, rfl, rfl⟩
  | deprecated other timestamp =>
      have hother : ¬ other = id := fun hsame => h (List.mem_singleton.mpr hsame.symm)
      exact ⟨if_neg hother, rfl, rfl⟩
  | revived other timestamp =>
      have hother : ¬ other = id := fun hsame => h (List.mem_singleton.mpr hsame.symm)
      exact ⟨rfl, rfl, if_neg hother⟩
  | used ids timestamp => exact ⟨rfl, if_neg h, rfl⟩
  | decayed ids timestamp => exact ⟨rfl, rfl, if_neg h⟩

/-- A lesson that is new to a store and its log. -/
theorem Lesson.livedBy_of_pristine (hnew : .added lesson ∈ log) (hpristine : lesson.Pristine)
    (huntold : ∀ event ∈ log, event.verdict? lesson.id = none ∧ event.use? lesson.id = none ∧
      event.sleep? lesson.id = none) : lesson.LivedBy log := by
  obtain ⟨happroved, hdeprecated, hused, hcount, hdormant, hdormantAt⟩ := hpristine
  have hverdicts : log.filterMap (LessonEvent.verdict? lesson.id) = [] :=
    List.filterMap_eq_nil_iff.mpr fun event hevent => (huntold event hevent).1
  have huses : log.filterMap (LessonEvent.use? lesson.id) = [] :=
    List.filterMap_eq_nil_iff.mpr fun event hevent => (huntold event hevent).2.1
  have hsleeps : log.filterMap (LessonEvent.sleep? lesson.id) = [] :=
    List.filterMap_eq_nil_iff.mpr fun event hevent => (huntold event hevent).2.2
  unfold Lesson.LivedBy
  rw [hverdicts, huses, hsleeps]
  exact {
    first := ⟨lesson, List.mem_filterMap.mpr ⟨.added lesson, hnew, rfl⟩, rfl, le_rfl, rfl⟩
    approvedAt := happroved
    deprecatedAt := hdeprecated
    useCount := hcount
    lastUsedAt := hused
    dormantAt := hdormantAt
    dormant := by rw [hdormant, hdormantAt]; rfl }

end Life

/-- The store is what its log tells of, and its ids are among the issued ones. -/
structure LessonHost.Consistent (host : LessonHost) (issued : List String)
    (log : List (LessonEvent κ)) (file : LessonFile κ) : Prop where
  loads : ∃ document, loadLessons host.path file = .ok document ∧ document.Kept host.yaml ∧
    document.lessons.map Lesson.origin = (log.filterMap LessonEvent.new?).map Lesson.origin ∧
    (∀ lesson ∈ document.lessons, lesson.LivedBy log) ∧
    (document.lessons.map Lesson.id).Nodup ∧
    (∀ id ∈ document.lessons.map Lesson.id, id ∈ issued) ∧
    ∀ event ∈ log, ∀ id ∈ event.ids, id ∈ document.lessons.map Lesson.id

theorem LessonHost.consistent_absent {host : LessonHost}
    (hversion : host.yaml.text "0.1" = "0.1") :
    host.Consistent [] [] (.absent : LessonFile κ) where
  loads := ⟨{}, rfl, LessonDocument.kept_iff.mpr ⟨hversion, host.yaml.metadata_nil, by simp⟩, rfl,
    by simp, List.nodup_nil, by simp, by simp⟩

section Runs

variable [DecayArithmetic κ]

/-- A call keeps the store and its log together, if its id is a new one. -/
theorem LessonHost.Consistent.call {host : LessonHost} {issued : List String}
    {log : List (LessonEvent κ)} {file : LessonFile κ} (h : host.Consistent issued log file)
    {call : LessonCall κ} (hcall : call.Kept host) (hfresh : ∀ id ∈ call.newId?, id ∉ issued) :
    host.Consistent (issued ++ call.newId?.toList) (host.call (log, file) call).1
      (host.call (log, file) call).2 := by
  obtain ⟨before, hload, hkept, horigins, hlived, hids, hissued, hnamed⟩ := h.loads
  rcases doesOrRaises hload hkept hids hcall with
    ⟨event, file', after, hperform, hload', hkept', hdoes⟩ | hraises
  · obtain ⟨change, hlessons, hchange⟩ := hdoes.changed
    have hlogged : host.call (log, file) call = (log ++ [event], file') := by
      simp only [LessonHost.call, hperform, Option.toList_some]
    rw [hlogged]
    have horigin : (before.lessons.map change).map Lesson.origin =
        before.lessons.map Lesson.origin := by
      rw [List.map_map]
      exact List.map_congr_left fun lesson hlesson => (hchange lesson hlesson).origin
    have hid : (before.lessons.map change).map Lesson.id = before.lessons.map Lesson.id := by
      rw [List.map_map]
      exact List.map_congr_left fun lesson hlesson => (hchange lesson hlesson).id
    have hafter : after.lessons.map Lesson.id =
        before.lessons.map Lesson.id ++ event.new?.toList.map Lesson.id := by
      rw [hlessons, List.map_append, hid]
    have hunheard (lesson : Lesson κ) (hnew : lesson ∈ event.new?) :
        lesson.id ∉ before.lessons.map Lesson.id :=
      fun hmem => hfresh lesson.id (hdoes.new lesson hnew).1 (hissued lesson.id hmem)
    refine ⟨after, hload', hkept', ?_, ?_, ?_, ?_, ?_⟩
    · rw [hlessons, List.map_append, horigin, horigins, List.filterMap_append, List.map_append]
      cases hnew : event.new? <;> simp [hnew]
    · intro lesson hlesson
      rw [hlessons] at hlesson
      rcases List.mem_append.mp hlesson with hold | hnew
      · obtain ⟨old, hmem, rfl⟩ := List.mem_map.mp hold
        exact (hlived old hmem).change (hchange old hmem)
      · have hnew : lesson ∈ event.new? := by simpa using hnew
        obtain rfl := LessonEvent.eq_added hnew
        refine Lesson.livedBy_of_pristine (by simp) (hdoes.new lesson hnew).2 ?_
        intro other hother
        rcases List.mem_append.mp hother with hearlier | hlast
        · exact LessonEvent.untold fun hid => hunheard lesson hnew (hnamed other hearlier _ hid)
        · rw [List.mem_singleton.mp hlast]
          exact ⟨rfl, rfl, rfl⟩
    · rw [hafter]
      refine hids.append ?_ ?_
      · cases event.new? <;> simp
      · intro id hold hnew
        obtain ⟨lesson, hlesson, rfl⟩ := List.mem_map.mp hnew
        exact hunheard lesson (by simpa using hlesson) hold
    · intro id hid
      rw [hafter] at hid
      rcases List.mem_append.mp hid with hold | hnew
      · exact List.mem_append_left _ (hissued id hold)
      · obtain ⟨lesson, hlesson, rfl⟩ := List.mem_map.mp hnew
        rw [(hdoes.new lesson (by simpa using hlesson)).1]
        simp
    · intro other hother id hid
      rw [hafter]
      rcases List.mem_append.mp hother with hearlier | hlast
      · exact List.mem_append_left _ (hnamed other hearlier id hid)
      · obtain rfl := List.mem_singleton.mp hlast
        exact hdoes.named id hid
  · have hunlogged : host.call (log, file) call = (log, file) := by
      simp only [LessonHost.call, hraises, Option.toList_none, List.append_nil]
    rw [hunlogged]
    exact ⟨before, hload, hkept, horigins, hlived, hids,
      fun id hid => List.mem_append_left _ (hissued id hid), hnamed⟩

theorem LessonHost.consistent_run {host : LessonHost} {calls : List (LessonCall κ)}
    (hkept : ∀ call ∈ calls, call.Kept host)
    (hfresh : (calls.filterMap LessonCall.newId?).Nodup) :
    host.Consistent (calls.filterMap LessonCall.newId?) (run host.call ([], .absent) calls).1
      (run host.call ([], .absent) calls).2 := by
  induction calls using List.reverseRecOn with
  | nil => exact consistent_absent (host.yaml.text_printable _ (by decide))
  | append_singleton earlier call ih =>
      obtain ⟨hearlier, hcall⟩ := List.forall_mem_append.mp hkept
      rw [filterMap_snoc, List.nodup_append'] at hfresh
      have hnew : ∀ id ∈ call.newId?, id ∉ earlier.filterMap LessonCall.newId? :=
        fun id hid hissued => hfresh.2.2 hissued (Option.mem_toList.mpr hid)
      rw [filterMap_snoc, run_snoc]
      exact (ih hearlier hfresh.1).call (hcall call (List.mem_singleton.mpr rfl)) hnew

/-- Over any run of calls on a new store, whatever raises, the lessons are those
that were added, in their order and with what they said; and of each the store
says which verdict it had last and when, how often and when it was used, since
when it is dormant, and no more confidence than it started with. The lessons
added and the times are such as come back from a dump. -/
theorem lessons_lived (host : LessonHost) (calls : List (LessonCall κ))
    (hkept : ∀ call ∈ calls, call.Kept host)
    (hfresh : (calls.filterMap LessonCall.newId?).Nodup) :
    let ran := run host.call ([], .absent) calls
    ∃ document, loadLessons host.path ran.2 = .ok document ∧
      document.lessons.map Lesson.origin =
        (ran.1.filterMap LessonEvent.new?).map Lesson.origin ∧
      ∀ lesson ∈ document.lessons, lesson.LivedBy ran.1 := by
  obtain ⟨document, hload, -, horigins, hlived, -⟩ :=
    (LessonHost.consistent_run hkept hfresh).loads
  exact ⟨document, hload, horigins, hlived⟩

end Runs

end Lives

noncomputable section

theorem one_isRealConfidence : (0 : ℝ) ≤ 1 ∧ (1 : ℝ) ≤ 1 := ⟨zero_le_one, le_rfl⟩

/-- A lesson that is approved, rendered and given up, and another one. -/
def shortCalls : List (LessonCall ℝ) := [
  .addLesson ⟨"a", "2026-01-01T00:00:00Z"⟩ "Run the tests." ⟨1, one_isRealConfidence⟩ [] none
    .manual none [],
  .approveLesson "lesson-a" "2026-01-02T00:00:00Z",
  .renderContext "2026-01-03T00:00:00Z" none 0 5,
  .deprecateLesson "lesson-a" "2026-01-04T00:00:00Z",
  .addLesson ⟨"b", "2026-01-05T00:00:00Z"⟩ "Never skip the tests." ⟨1, one_isRealConfidence⟩ [] none
    .manual none []]

theorem lessons_lived_shortCalls :
    let host : LessonHost := ⟨.folding, id, fun _ => none, ".forge/lessons.yaml"⟩
    let ran := run host.call ([], .absent) shortCalls
    ∃ document, loadLessons ".forge/lessons.yaml" ran.2 = .ok document ∧
      document.lessons.map Lesson.origin =
        (ran.1.filterMap LessonEvent.new?).map Lesson.origin ∧
      ∀ lesson ∈ document.lessons, lesson.LivedBy ran.1 := by
  have hkept : ∀ call ∈ shortCalls,
      call.Kept ⟨.folding, id, fun _ => none, ".forge/lessons.yaml"⟩ := by
    simp only [shortCalls, List.forall_mem_cons]
    exact ⟨rfl, rfl, rfl, rfl, rfl, List.forall_mem_nil _⟩
  exact lessons_lived _ shortCalls hkept (by decide)

end

end ForgeOS
