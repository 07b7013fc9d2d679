import ForgeOS.Library.Records
import ForgeOS.Memory.Lessons
import Mathlib.Data.Prod.Lex
import Mathlib.Data.String.Basic

/-!
What it does to render the lesson context: which lessons are returned, in which
order, and that their usage is all that changes in the store.
-/

namespace ForgeOS

open Library

section Rendering

variable {κ : Type} [LinearOrder κ] [Zero κ] [One κ]

namespace Lesson

/-- An approved lesson that is not dormant, matches the stage and reaches the
floor. -/
def Eligible (stageId : Option String) (minConfidence : κ) (lesson : Lesson κ) : Prop :=
  lesson.status = .approved ∧ ¬ lesson.dormant ∧ minConfidence ≤ lesson.confidence.1 ∧
    (lesson.stageId = none ∨ stageId = none ∨ lesson.stageId = stageId)

instance (stageId : Option String) (minConfidence : κ) :
    DecidablePred (Eligible (κ := κ) stageId minConfidence) :=
  fun _ => inferInstanceAs (Decidable (_ ∧ _ ∧ _ ∧ _))

def rank (lesson : Lesson κ) : Lex (κ × String) := toLex (lesson.confidence.1, lesson.updatedAt)

/-- The lesson with one more use. -/
def used (timestamp : String) (lesson : Lesson κ) : Lesson κ :=
  { lesson with lastUsedAt := some timestamp, useCount := lesson.useCount + 1 }

def withoutUse (lesson : Lesson κ) : Lesson κ := { lesson with lastUsedAt := none }

end Lesson

theorem Lesson.Kept.withoutUse {yaml : YamlHost} {lesson : Lesson κ} (h : lesson.Kept yaml) :
    lesson.withoutUse.Kept yaml := by
  obtain ⟨hid, htext, htags, hstage, hcreated, hupdated, happroved, hdeprecated, -, hothers⟩ :=
    Lesson.kept_iff.mp h
  exact Lesson.kept_iff.mpr ⟨hid, htext, htags, hstage, hcreated, hupdated, happroved, hdeprecated,
    rfl, hothers⟩

namespace LessonDocument

/-- The eligible lessons of a store, in descending order. -/
structure Ranking (document : LessonDocument κ) (stageId : Option String) (minConfidence : κ)
    (ranking : List (Lesson κ)) : Prop where
  eligible : ranking.Perm
    (document.lessons.filter fun lesson => lesson.Eligible stageId minConfidence)
  descending : ranking.Pairwise fun a b => b.rank ≤ a.rank

/-- One more use of some lessons, and no other change. -/
structure Used (document : LessonDocument κ) (timestamp : String) (returned : List (Lesson κ))
    (document' : LessonDocument κ) : Prop where
  schemaVersion : document'.schemaVersion = document.schemaVersion
  extra : document'.extra = document.extra
  lessons : List.Forall₂ (fun lesson lesson' =>
    (lesson ∈ returned → lesson' = lesson.used timestamp) ∧ (lesson ∉ returned → lesson' = lesson))
    document.lessons document'.lessons

/-- The entries of some lessons are returned, in their order, and one use of
each of them is all that is written. Without any, nothing is written. -/
structure RendersOnly (document : LessonDocument κ) (path timestamp : String)
    (file : LessonFile κ) (returned : List (Lesson κ))
    (result : Except LessonFailure (List (ContextLesson κ)) × LessonFile κ) : Prop where
  entries : ∃ rendered, result.1 = .ok rendered ∧
    rendered.map Rendered.entry = returned.map Lesson.contextEntry
  store : ∃ document', loadLessons path result.2 = .ok document' ∧
    document.Used timestamp returned document'
  unwritten : returned = [] → result.2 = file

/-- A dump gives the store back as it was, whenever some lessons were used last. -/
structure Keepable (yaml : YamlHost) (document : LessonDocument κ) (returned : List (Lesson κ)) :
    Prop where
  schemaVersion : yaml.text document.schemaVersion = document.schemaVersion
  extra : yaml.metadata document.extra = some document.extra
  used : ∀ lesson ∈ returned, lesson.withoutUse.Kept yaml
  others : ∀ lesson ∈ document.lessons, lesson ∉ returned → lesson.Kept yaml

/-! ### The ranking -/

instance : Std.Total (renderedBefore (κ := κ)) where
  total a b := by
    unfold renderedBefore
    rcases lt_trichotomy b.confidence a.confidence with h | h | h
    · exact .inl (.inl h)
    · exact (le_total b.updatedAt a.updatedAt).imp (fun hle => .inr ⟨h, hle⟩)
        fun hle => .inr ⟨h.symm, hle⟩
    · exact .inr (.inl h)

instance : IsTrans (Lesson κ) renderedBefore where
  trans a b c := by
    rintro (hab | ⟨hab, hupdated⟩) (hbc | ⟨hbc, hupdated'⟩)
    · exact .inl (hbc.trans hab)
    · exact .inl (hbc ▸ hab)
    · exact .inl (hab ▸ hbc)
    · exact .inr ⟨hbc.trans hab, hupdated'.trans hupdated⟩

theorem rank_le_of_renderedBefore {a b : Lesson κ} (h : renderedBefore a b) : b.rank ≤ a.rank := by
  rw [Lesson.rank, Lesson.rank, Prod.Lex.toLex_le_toLex]
  rcases h with hlt | ⟨heq, hle⟩
  · exact .inl hlt
  · exact .inr ⟨congrArg Subtype.val heq, hle⟩

/-- What `approved_for_context` has before it is cut off. -/
def ranking (document : LessonDocument κ) (stageId : Option String) (minConfidence : κ) :
    List (Lesson κ) :=
  ((document.list .approved none).filter fun lesson =>
    ¬ lesson.dormant ∧ minConfidence ≤ lesson.confidence.1 ∧
      (lesson.stageId = none ∨ stageId = none ∨ lesson.stageId = stageId)).insertionSort
    renderedBefore

theorem ranking_ranking (document : LessonDocument κ) (stageId : Option String)
    (minConfidence : κ) :
    document.Ranking stageId minConfidence (document.ranking stageId minConfidence) where
  eligible := by
    have hlisted := List.perm_insertionSort listedBefore
      (document.lessons.filter fun lesson => lesson.status = .approved)
    have hfiltered := hlisted.filter fun lesson => ¬ lesson.dormant ∧
      minConfidence ≤ lesson.confidence.1 ∧
        (lesson.stageId = none ∨ stageId = none ∨ lesson.stageId = stageId)
    rw [List.filter_filter] at hfiltered
    refine (List.perm_insertionSort renderedBefore _).trans (hfiltered.trans (.of_eq ?_))
    refine List.filter_congr fun lesson _ => ?_
    rw [← Bool.decide_and]
    exact decide_eq_decide.mpr and_comm
  descending :=
    (List.pairwise_insertionSort renderedBefore _).imp fun h => rank_le_of_renderedBefore h

theorem mem_lessons_of_mem_ranking {document : LessonDocument κ} {stageId : Option String}
    {minConfidence : κ} {lesson : Lesson κ}
    (h : lesson ∈ document.ranking stageId minConfidence) : lesson ∈ document.lessons :=
  List.mem_of_mem_filter
    ((document.ranking_ranking stageId minConfidence).eligible.mem_iff.mp h)

/-! ### What is returned, and what is written -/

section Selected

variable {document : LessonDocument κ} {selected : List (Lesson κ)}

theorem lastWithId_of_mem (hids : (document.lessons.map Lesson.id).Nodup) {lesson : Lesson κ}
    (hmem : lesson ∈ document.lessons) : document.lastWithId lesson.id = some lesson := by
  have hreversed : (document.lessons.reverse.map Lesson.id).Nodup := by
    rwa [List.map_reverse, List.nodup_reverse]
  exact find?_key hreversed (List.mem_reverse.mpr hmem)

theorem contextEntry_touch (selectedIds : List String) (timestamp : String) (lesson : Lesson κ) :
    (lesson.touch selectedIds timestamp).contextEntry = lesson.contextEntry := by
  unfold Lesson.touch
  split <;> rfl

theorem entries_rendered (hids : (document.lessons.map Lesson.id).Nodup)
    (hselected : ∀ lesson ∈ selected, lesson ∈ document.lessons) (timestamp : String) :
    (document.rendered (selected.map Lesson.id) timestamp).map Rendered.entry =
      selected.map Lesson.contextEntry := by
  have hrendered : document.rendered (selected.map Lesson.id) timestamp =
      selected.map fun lesson =>
        (lesson.touch (selected.map Lesson.id) timestamp).rendered Lesson.contextEntry := by
    rw [rendered, List.filterMap_map]
    refine (List.filterMap_congr fun lesson hlesson => ?_).trans
      (congrFun List.filterMap_eq_map selected)
    rw [Function.comp_apply, lastWithId_of_mem hids (hselected lesson hlesson)]
    rfl
  rw [hrendered, List.map_map]
  exact List.map_congr_left fun lesson _ => contextEntry_touch _ timestamp lesson

/-- The lessons with the ids of selected ones are the selected ones. -/
theorem touch_eq (hids : (document.lessons.map Lesson.id).Nodup)
    (hselected : ∀ lesson ∈ selected, lesson ∈ document.lessons) (timestamp : String)
    {lesson : Lesson κ} (hlesson : lesson ∈ document.lessons) :
    (lesson ∈ selected →
      lesson.touch (selected.map Lesson.id) timestamp = lesson.used timestamp) ∧
    (lesson ∉ selected → lesson.touch (selected.map Lesson.id) timestamp = lesson) := by
  constructor
  · intro hmem
    exact if_pos (List.mem_map_of_mem hmem)
  · intro hnot
    refine if_neg fun hid => hnot ?_
    obtain ⟨other, hother, heq⟩ := List.mem_map.mp hid
    rwa [← List.inj_on_of_nodup_map hids (hselected other hother) hlesson heq]

/-- One more use of the selected lessons is what is entered, and nothing else is. -/
theorem used_iff (hids : (document.lessons.map Lesson.id).Nodup)
    (hselected : ∀ lesson ∈ selected, lesson ∈ document.lessons) {timestamp : String}
    {document' : LessonDocument κ} :
    document.Used timestamp selected document' ↔
      document' = document.touch (selected.map Lesson.id) timestamp := by
  constructor
  · intro h
    have hlessons : document'.lessons =
        document.lessons.map (Lesson.touch (selected.map Lesson.id) timestamp) := by
      have hchanged := (List.forall₂_and_left (p := (· ∈ document.lessons)) _ _).mpr
        ⟨fun _ hlesson => hlesson, h.lessons⟩
      have hsame : List.Forall₂ Eq (document.lessons.map
          (Lesson.touch (selected.map Lesson.id) timestamp)) document'.lessons := by
        refine List.forall₂_map_left_iff.mpr (hchanged.imp fun lesson lesson' hlesson => ?_)
        obtain ⟨hmem, hused, hother⟩ := hlesson
        have htouch := touch_eq hids hselected timestamp hmem
        by_cases hreturned : lesson ∈ selected
        · rw [htouch.1 hreturned, hused hreturned]
        · rw [htouch.2 hreturned, hother hreturned]
      rw [List.forall₂_eq_eq_eq] at hsame
      exact hsame.symm
    cases document'
    simp only [touch, ← h.schemaVersion, ← h.extra, ← hlessons]
  · rintro rfl
    refine ⟨rfl, rfl, List.forall₂_map_right_iff.mpr (List.forall₂_same.mpr ?_)⟩
    exact fun lesson hlesson => touch_eq hids hselected timestamp hlesson

theorem Used.congr {timestamp : String} {returned : List (Lesson κ)}
    {document' : LessonDocument κ} (h : document.Used timestamp returned document')
    (hsame : ∀ lesson, lesson ∈ returned ↔ lesson ∈ selected) :
    document.Used timestamp selected document' where
  schemaVersion := h.schemaVersion
  extra := h.extra
  lessons := h.lessons.imp fun lesson lesson' => by rw [hsame lesson]; exact id

/-- Whether the store comes back with the usage entered. -/
theorem kept_touch_iff {yaml : YamlHost} {timestamp : String}
    (hids : (document.lessons.map Lesson.id).Nodup)
    (hselected : ∀ lesson ∈ selected, lesson ∈ document.lessons)
    (htimestamp : yaml.text timestamp = timestamp) :
    (document.touch (selected.map Lesson.id) timestamp).Kept yaml ↔
      document.Keepable yaml selected := by
  have hused (lesson : Lesson κ) :
      (lesson.used timestamp).Kept yaml ↔ lesson.withoutUse.Kept yaml := by
    simp [Lesson.kept_iff, Lesson.used, Lesson.withoutUse, htimestamp]
  rw [kept_iff]
  simp only [touch, List.forall_mem_map]
  constructor
  · rintro ⟨hversion, hextra, hlessons⟩
    refine ⟨hversion, hextra, fun lesson hreturned => ?_, fun lesson hlesson hnot => ?_⟩
    · have hkept := hlessons lesson (hselected lesson hreturned)
      rwa [(touch_eq hids hselected timestamp (hselected lesson hreturned)).1 hreturned,
        hused] at hkept
    · have hkept := hlessons lesson hlesson
      rwa [(touch_eq hids hselected timestamp hlesson).2 hnot] at hkept
  · intro h
    refine ⟨h.schemaVersion, h.extra, fun lesson hlesson => ?_⟩
    have htouch := touch_eq hids hselected timestamp hlesson
    by_cases hreturned : lesson ∈ selected
    · rw [htouch.1 hreturned, hused]
      exact h.used lesson hreturned
    · rw [htouch.2 hreturned]
      exact h.others lesson hlesson hreturned

end Selected

end LessonDocument

/-! ### Rendering -/

/-- The first items, as many as a limit says. A negative one says how many are
left out at the end. -/
def FirstItems {α : Type} (limit : Int) (items first : List α) : Prop :=
  (0 ≤ limit → first = items.take limit.toNat) ∧
    (limit < 0 → first = items.take (items.length - limit.natAbs))

section Slices

variable {α : Type} {items : List α} {stop : Int}

theorem mem_of_mem_sliceTo {item : α} (h : item ∈ sliceTo items stop) : item ∈ items :=
  List.mem_of_mem_take h

theorem firstItems_sliceTo (items : List α) (stop : Int) :
    FirstItems stop items (sliceTo items stop) := by
  constructor
  · intro hstop
    rw [sliceTo, if_neg (Int.not_lt.mpr hstop)]
  · intro hstop
    have hcount : ((items.length : Int) + stop).toNat = items.length - stop.natAbs := by omega
    rw [sliceTo, if_pos hstop, hcount]

end Slices

section Effect

variable {yaml : YamlHost} {path : String} {file : LessonFile κ} {document : LessonDocument κ}
  {timestamp : String} {stageId : Option String} {minConfidence : κ} {limit : Int}

/-- What is selected stands first in the ranking. -/
theorem mem_lessons_of_mem_approved {lesson : Lesson κ}
    (h : lesson ∈ document.approvedForContext stageId minConfidence limit) :
    lesson ∈ document.lessons :=
  LessonDocument.mem_lessons_of_mem_ranking (mem_of_mem_sliceTo h)

/-- Lessons of a ranking whose entries are those of the selected ones are these. -/
theorem mem_returned_iff {ranking returned : List (Lesson κ)}
    (hids : (document.lessons.map Lesson.id).Nodup)
    (hranking : document.Ranking stageId minConfidence ranking)
    (hfirst : FirstItems limit ranking returned)
    (hentries : (document.approvedForContext stageId minConfidence limit).map
      Lesson.contextEntry = returned.map Lesson.contextEntry) (lesson : Lesson κ) :
    lesson ∈ returned ↔ lesson ∈ document.approvedForContext stageId minConfidence limit := by
  have hreturned : ∀ lesson ∈ returned, lesson ∈ document.lessons := by
    intro lesson hlesson
    have hmem : lesson ∈ ranking := by
      rcases lt_or_ge limit 0 with hneg | hpos
      · exact List.mem_of_mem_take (hfirst.2 hneg ▸ hlesson)
      · exact List.mem_of_mem_take (hfirst.1 hpos ▸ hlesson)
    exact List.mem_of_mem_filter (hranking.eligible.mem_iff.mp hmem)
  have hnamed {some others : List (Lesson κ)} (hsome : ∀ lesson ∈ some, lesson ∈ document.lessons)
      (hothers : ∀ lesson ∈ others, lesson ∈ document.lessons)
      (hsame : some.map Lesson.contextEntry = others.map Lesson.contextEntry) :
      ∀ lesson ∈ some, lesson ∈ others := by
    intro lesson hlesson
    obtain ⟨other, hother, heq⟩ := List.mem_map.mp (hsame ▸ List.mem_map_of_mem hlesson)
    rwa [← List.inj_on_of_nodup_map hids (hothers other hother) (hsome lesson hlesson)
      (congrArg ContextEntry.id heq)]
  exact ⟨hnamed hreturned (fun _ => mem_lessons_of_mem_approved) hentries.symm lesson,
    hnamed (fun _ => mem_lessons_of_mem_approved) hreturned hentries lesson⟩

theorem keepable_of_rendersOnly {ranking returned : List (Lesson κ)}
    (hload : loadLessons path file = .ok document)
    (hids : (document.lessons.map Lesson.id).Nodup) (htimestamp : yaml.text timestamp = timestamp)
    (hsome : document.approvedForContext stageId minConfidence limit ≠ [])
    (hranking : document.Ranking stageId minConfidence ranking)
    (hfirst : FirstItems limit ranking returned)
    (h : document.RendersOnly path timestamp file returned
      ((renderContext yaml path timestamp stageId minConfidence limit).exec file)) :
    document.Keepable yaml (document.approvedForContext stageId minConfidence limit) := by
  have hselected : ∀ lesson ∈ document.approvedForContext stageId minConfidence limit,
      lesson ∈ document.lessons := fun _ => mem_lessons_of_mem_approved
  have hentries := document.entries_rendered hids hselected timestamp
  refine (LessonDocument.kept_touch_iff hids hselected htimestamp).mp ?_
  rw [exec_renderContext_of_ne yaml timestamp stageId minConfidence limit hload hsome] at h
  unfold LessonDocument.Kept
  cases hreread : (document.touch ((document.approvedForContext stageId minConfidence
      limit).map Lesson.id) timestamp).reread yaml with
  | none =>
      rw [hreread] at h
      obtain ⟨rendered, hok, -⟩ := h.entries
      cases hok
  | some reread =>
      rw [hreread] at h
      obtain ⟨rendered, hok, hrendered⟩ := h.entries
      obtain rfl := Except.ok.inj hok
      obtain ⟨document', hload', hused⟩ := h.store
      obtain rfl := Except.ok.inj hload'
      have hmem := mem_returned_iff hids hranking hfirst (hentries.symm.trans hrendered)
      rw [(LessonDocument.used_iff hids hselected).mp (hused.congr hmem)]

/-- Rendering returns the first lessons of the ranking, as many as the limit
says, and changes nothing in the store but the usage of these, exactly if there
are none of them, or the store is one that a dump gives back as it was. A text
with a line break of Unicode need not come back, nor does a date. -/
theorem renderContext_bounded_iff (hload : loadLessons path file = .ok document)
    (hids : (document.lessons.map Lesson.id).Nodup)
    (hclock : timestamp.toList.all isPrintable = true) :
    (∃ ranking returned, document.Ranking stageId minConfidence ranking ∧
      FirstItems limit ranking returned ∧
      document.RendersOnly path timestamp file returned
        ((renderContext yaml path timestamp stageId minConfidence limit).exec file)) ↔
      document.approvedForContext stageId minConfidence limit = [] ∨
        document.Keepable yaml (document.approvedForContext stageId minConfidence limit) := by
  have htimestamp : yaml.text timestamp = timestamp := yaml.text_printable timestamp hclock
  constructor
  · rintro ⟨ranking, returned, hranking, hfirst, h⟩
    by_cases hnone : document.approvedForContext stageId minConfidence limit = []
    · exact .inl hnone
    · exact .inr (keepable_of_rendersOnly hload hids htimestamp hnone hranking hfirst h)
  · intro h
    have hselected : ∀ lesson ∈ document.approvedForContext stageId minConfidence limit,
        lesson ∈ document.lessons := fun _ => mem_lessons_of_mem_approved
    have hentries := document.entries_rendered hids hselected timestamp
    refine ⟨_, _, document.ranking_ranking stageId minConfidence, firstItems_sliceTo _ limit, ?_⟩
    change document.RendersOnly path timestamp file
      (document.approvedForContext stageId minConfidence limit) _
    by_cases hnone : document.approvedForContext stageId minConfidence limit = []
    · rw [exec_renderContext_of_nil yaml timestamp stageId minConfidence limit hload hnone, hnone]
      refine ⟨⟨[], rfl, rfl⟩, ⟨document, hload, rfl, rfl, ?_⟩, fun _ => rfl⟩
      exact List.forall₂_same.mpr fun lesson _ =>
        ⟨fun hmem => absurd hmem (by simp), fun _ => rfl⟩
    · have hkept := (LessonDocument.kept_touch_iff hids hselected htimestamp).mpr
        (h.resolve_left hnone)
      obtain ⟨file', hexec, hload'⟩ :=
        exec_renderContext_of_kept yaml timestamp stageId minConfidence limit hload hkept
      rw [hexec]
      exact ⟨⟨_, rfl, hentries⟩, ⟨_, hload', (LessonDocument.used_iff hids hselected).mpr rfl⟩,
        fun hnil => absurd hnil hnone⟩

end Effect

end Rendering

/-- Two lessons for every stage, one of them deprecated, and one for another
stage. -/
def mixedLessons : LessonDocument ℚ :=
  let lesson (id : String) (status : LessonStatus) (stageId : Option String) : Lesson ℚ := {
    id := id
    text := id
    status := status
    confidence := ⟨1, one_isConfidence⟩
    stageId := stageId
    createdAt := "2026-01-01T00:00:00Z"
    updatedAt := "2026-01-01T00:00:00Z" }
  { lessons := [lesson "cache" .approved none, lesson "retry" .deprecated none,
      lesson "names" .approved (some "spec")] }

theorem renderContext_mixedLessons :
    ∃ ranking returned, mixedLessons.Ranking (some "build") 1 ranking ∧
      FirstItems 5 ranking returned ∧
      mixedLessons.RendersOnly "lessons.yaml" "2026-02-01T00:00:00Z" (.decoded mixedLessons)
        returned ((renderContext .folding "lessons.yaml" "2026-02-01T00:00:00Z" (some "build") 1
          5).exec (.decoded mixedLessons)) :=
  have hkept : ∀ lesson ∈ mixedLessons.lessons, lesson.Kept .folding := by
    simp only [mixedLessons, List.forall_mem_cons]
    exact ⟨rfl, rfl, rfl, List.forall_mem_nil _⟩
  (renderContext_bounded_iff rfl (by decide) (by decide)).mpr (.inr {
    schemaVersion := by decide
    extra := rfl
    used := fun lesson hlesson => (hkept lesson (mem_lessons_of_mem_approved hlesson)).withoutUse
    others := fun lesson hlesson _ => hkept lesson hlesson })

/-- An approved lesson, and a pending one with a line break of Unicode in its
text. -/
def brokenLessons : LessonDocument ℚ :=
  let lesson (id text : String) (status : LessonStatus) : Lesson ℚ := {
    id := id
    text := text
    status := status
    confidence := ⟨1, one_isConfidence⟩
    createdAt := "2026-01-01T00:00:00Z"
    updatedAt := "2026-01-01T00:00:00Z" }
  { lessons := [lesson "cache" "cache" .approved, lesson "retry" "a\u0085b" .pending] }

/-- Rendering the first of them rewrites the second. -/
theorem not_renderContext_bounded :
    ¬ ∀ (path : String) (file : LessonFile ℚ) (document : LessonDocument ℚ),
      loadLessons path file = .ok document → (document.lessons.map Lesson.id).Nodup →
      ∀ (timestamp : String) (stageId : Option String) (minConfidence : ℚ) (limit : Int),
        timestamp.toList.all isPrintable = true →
        ∃ ranking returned, document.Ranking stageId minConfidence ranking ∧
          FirstItems limit ranking returned ∧
          document.RendersOnly path timestamp file returned
            ((renderContext .folding path timestamp stageId minConfidence limit).exec file) := by
  intro h
  obtain ⟨ranking, returned, hranking, hfirst, hrenders⟩ :=
    h "lessons.yaml" (.decoded brokenLessons) brokenLessons rfl (by decide)
      "2026-02-01T00:00:00Z" none 0 5 (by decide)
  have hkeepable := keepable_of_rendersOnly rfl (by decide) (by decide) (by decide) hranking
    hfirst hrenders
  have hids : (brokenLessons.approvedForContext none 0 5).map Lesson.id = ["cache"] := by decide
  have hkept := hkeepable.others _ (List.mem_cons_of_mem _ (List.mem_singleton.mpr rfl))
    fun hmem => absurd (hids ▸ List.mem_map_of_mem hmem) (by decide)
  exact absurd (Lesson.kept_iff.mp hkept).2.1 (by decide)

end ForgeOS
