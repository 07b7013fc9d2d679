import ForgeOS.Library.Firsts
import ForgeOS.Memory.GlobalStore

/-!
Runs of promotions into the global store. The first promotion of a text makes
the lesson, and those after it count the projects that share it: the promotions
alone tell what the store has come to hold.
-/

namespace ForgeOS

open Library

/-- A call of `promote_lesson`. -/
structure Promotion (κ : Type) [Preorder κ] [Zero κ] [One κ] where
  stamp : PromotionStamp
  lesson : Lesson κ
  projectPath : String

section Runs

variable {κ : Type} [Preorder κ] [Zero κ] [One κ]

namespace Promotion

def text (promotion : Promotion κ) : String := promotion.lesson.text

def perform (yaml : YamlHost) (promotion : Promotion κ) :
    Effect (MemoryFile κ) GlobalStoreError (Lesson κ) :=
  promoteLesson yaml promotion.stamp promotion.lesson promotion.projectPath

/-- The lesson it makes, if there is none of its text. -/
def globalLesson (promotion : Promotion κ) : Lesson κ :=
  promotedLesson promotion.stamp promotion.lesson promotion.projectPath

def lessonId (promotion : Promotion κ) : String := promotion.globalLesson.id

/-- What stands in the file after some calls. -/
def after (yaml : YamlHost) (file : MemoryFile κ) (promotions : List (Promotion κ)) :
    MemoryFile κ :=
  run (fun file promotion => ((promotion.perform yaml).exec file).2) file promotions

/-- What `uuid4` and the clock return is printable. -/
def Stamped (promotion : Promotion κ) : Prop :=
  promotion.stamp.identifier.toList.all isPrintable = true ∧
    promotion.stamp.usedAt.toList.all isPrintable = true

instance (promotion : Promotion κ) : Decidable promotion.Stamped :=
  inferInstanceAs (Decidable (_ ∧ _))

/-- Its text and its path come back from a dump. -/
def Kept (yaml : YamlHost) (promotion : Promotion κ) : Prop :=
  yaml.text promotion.text = promotion.text ∧
    yaml.text promotion.projectPath = promotion.projectPath

instance (yaml : YamlHost) (promotion : Promotion κ) : Decidable (promotion.Kept yaml) :=
  inferInstanceAs (Decidable (_ ∧ _))

/-- The promotions that find no lesson of their text, and make one. -/
def founders (promotions : List (Promotion κ)) : List (Promotion κ) := firsts text promotions

def ofText (promotions : List (Promotion κ)) (text : String) : List (Promotion κ) :=
  promotions.filter fun promotion => promotion.text = text

/-- The projects that promoted a lesson with a text. -/
def projects (promotions : List (Promotion κ)) (text : String) : List String :=
  (ofText promotions text).map projectPath

/-- The record about the lesson of a founder. -/
def usage (promotions : List (Promotion κ)) (founder : Promotion κ) : GlobalLessonUsage where
  lessonId := founder.lessonId
  projectPaths := firsts id (projects promotions founder.text)
  usageCount := (firsts id (projects promotions founder.text)).length
  firstUsedAt := founder.stamp.usedAt
  lastUsedAt := match (ofText promotions founder.text).getLast? with
    | some last => last.stamp.usedAt
    | none => ""

end Promotion

namespace GlobalMemoryDocument

/-- The document that some promotions make of an empty one. -/
def ofPromotions (promotions : List (Promotion κ)) : GlobalMemoryDocument κ where
  globalLessons := (Promotion.founders promotions).map Promotion.globalLesson
  usage := (Promotion.founders promotions).map (Promotion.usage promotions)

/-- No two lessons have one text, lessons and records belong together one to
one, and each record counts the projects that promoted the text. -/
structure Counts (document : GlobalMemoryDocument κ) (promotions : List (Promotion κ)) :
    Prop where
  distinctTexts : (document.globalLessons.map Lesson.text).Nodup
  refers : ∀ usage ∈ document.usage,
    document.globalLessons.countP (fun lesson => lesson.id = usage.lessonId) = 1
  recorded : ∀ lesson ∈ document.globalLessons,
    document.usage.countP (fun usage => usage.lessonId = lesson.id) = 1
  counted : ∀ usage ∈ document.usage, ∀ lesson ∈ document.globalLessons,
    usage.lessonId = lesson.id →
      usage.usageCount = (Promotion.projects promotions lesson.text).toFinset.card

end GlobalMemoryDocument

namespace Promotion

variable {promotions : List (Promotion κ)} {promotion founder : Promotion κ}

/-! ### One more promotion -/

theorem ofText_snoc_of_eq (h : promotion.text = founder.text) :
    ofText (promotions ++ [promotion]) founder.text =
      ofText promotions founder.text ++ [promotion] := by
  rw [ofText, List.filter_append, List.filter_singleton, decide_eq_true h]
  rfl

theorem ofText_snoc_of_ne (h : promotion.text ≠ founder.text) :
    ofText (promotions ++ [promotion]) founder.text = ofText promotions founder.text := by
  rw [ofText, List.filter_append, List.filter_singleton, decide_eq_false h]
  exact List.append_nil _

/-- Other lessons are not concerned. -/
theorem usage_snoc_of_ne (h : promotion.text ≠ founder.text) :
    usage (promotions ++ [promotion]) founder = usage promotions founder := by
  rw [usage, projects, ofText_snoc_of_ne h]
  rfl

theorem usage_snoc_of_eq (h : promotion.text = founder.text) :
    usage (promotions ++ [promotion]) founder =
      (usage promotions founder).record promotion.projectPath promotion.stamp.usedAt := by
  have hprojects : projects (promotions ++ [promotion]) founder.text =
      projects promotions founder.text ++ [promotion.projectPath] := by
    rw [projects, ofText_snoc_of_eq h, List.map_append]
    rfl
  have hmem : promotion.projectPath ∈ firsts id (projects promotions founder.text) ↔
      id promotion.projectPath ∈ (projects promotions founder.text).map id := by
    rw [← mem_keys_firsts, List.map_id]
    rfl
  rw [usage, hprojects, ofText_snoc_of_eq h, List.getLast?_concat]
  by_cases hknown : promotion.projectPath ∈ firsts id (projects promotions founder.text)
  · rw [firsts_snoc_of_mem (hmem.mp hknown), GlobalLessonUsage.record, usage]
    simp only [if_pos hknown]
  · rw [firsts_snoc_of_not_mem (fun h => hknown (hmem.mpr h)), GlobalLessonUsage.record, usage]
    simp only [if_neg hknown]

/-- The first record of a lesson. -/
theorem usage_snoc_of_new (h : promotion.text ∉ promotions.map text) :
    usage (promotions ++ [promotion]) promotion = {
      lessonId := promotion.lessonId
      projectPaths := [promotion.projectPath]
      usageCount := 1
      firstUsedAt := promotion.stamp.usedAt
      lastUsedAt := promotion.stamp.usedAt } := by
  have hnone : ofText promotions promotion.text = [] := by
    refine List.filter_eq_nil_iff.mpr fun other hother heq => h ?_
    exact of_decide_eq_true heq ▸ List.mem_map_of_mem hother
  rw [usage, projects, ofText_snoc_of_eq rfl, hnone]
  rfl

theorem mem_founders_text {text : String} :
    text ∈ (founders promotions).map Promotion.text ↔ text ∈ promotions.map Promotion.text :=
  mem_keys_firsts

theorem nodup_founders_text (promotions : List (Promotion κ)) :
    ((founders promotions).map text).Nodup := nodup_keys_firstsFrom [] promotions

theorem founders_grow (promotions : List (Promotion κ)) (promotion : Promotion κ) :
    founders promotions <+: founders (promotions ++ [promotion]) := by
  by_cases hknown : promotion.text ∈ promotions.map text
  · rw [founders, founders, firsts_snoc_of_mem hknown]
  · rw [founders, founders, firsts_snoc_of_not_mem hknown]
    exact List.prefix_append _ _

end Promotion

namespace GlobalMemoryDocument

variable {promotions : List (Promotion κ)} {promotion founder : Promotion κ}

/-- One more use of a lesson that stands in the store. -/
theorem recordUsage_ofPromotions
    (hids : ((Promotion.founders promotions).map Promotion.lessonId).Nodup)
    (hfounder : founder ∈ Promotion.founders promotions) (htext : promotion.text = founder.text) :
    (ofPromotions promotions).recordUsage founder.lessonId promotion.projectPath
      promotion.stamp.usedAt = ofPromotions (promotions ++ [promotion]) := by
  have hknown : promotion.text ∈ promotions.map Promotion.text :=
    Promotion.mem_founders_text.mp (htext ▸ List.mem_map_of_mem hfounder)
  have hsame : Promotion.founders (promotions ++ [promotion]) = Promotion.founders promotions :=
    firsts_snoc_of_mem hknown
  have hfind : ((ofPromotions promotions).usage.find? fun usage =>
      usage.lessonId = founder.lessonId).isSome = true := by
    rw [List.find?_isSome]
    exact ⟨_, List.mem_map_of_mem hfounder, decide_eq_true rfl⟩
  have hunique : (ofPromotions promotions).usage.Pairwise fun a b =>
      decide (a.lessonId = founder.lessonId) = true →
        decide (b.lessonId = founder.lessonId) = false := by
    refine List.pairwise_map.mpr (List.Pairwise.imp ?_ (List.pairwise_map.mp hids))
    intro a b hne ha
    exact decide_eq_false fun hb => hne ((of_decide_eq_true ha).trans hb.symm)
  obtain ⟨found, hfound⟩ := Option.isSome_iff_exists.mp hfind
  rw [recordUsage, hfound]
  dsimp only
  rw [modify_findIdx hunique, ofPromotions, ofPromotions, hsame, List.map_map]
  congr 1
  refine List.map_congr_left fun other hother => ?_
  by_cases hid : other.lessonId = founder.lessonId
  · obtain rfl := List.inj_on_of_nodup_map hids hother hfounder hid
    rw [Promotion.usage_snoc_of_eq htext]
    exact if_pos (decide_eq_true rfl)
  · have hne : promotion.text ≠ other.text := fun heq => hid (congrArg Promotion.lessonId
      (List.inj_on_of_nodup_map (Promotion.nodup_founders_text promotions) hother hfounder
        (heq.symm.trans htext)))
    rw [Promotion.usage_snoc_of_ne hne]
    exact if_neg fun h => hid (of_decide_eq_true h)

/-- The first use of a lesson that has just been added. -/
theorem recordUsage_new
    (hids : ((Promotion.founders (promotions ++ [promotion])).map Promotion.lessonId).Nodup)
    (hnew : promotion.text ∉ promotions.map Promotion.text) :
    ({ ofPromotions promotions with
        globalLessons := (ofPromotions promotions).globalLessons ++ [promotion.globalLesson] }
      : GlobalMemoryDocument κ).recordUsage promotion.lessonId promotion.projectPath
        promotion.stamp.usedAt = ofPromotions (promotions ++ [promotion]) := by
  have hmore : Promotion.founders (promotions ++ [promotion]) =
      Promotion.founders promotions ++ [promotion] := firsts_snoc_of_not_mem hnew
  rw [hmore, List.map_append, List.nodup_append] at hids
  have hnone : ((ofPromotions promotions).usage.find? fun usage =>
      usage.lessonId = promotion.lessonId) = none := by
    rw [List.find?_eq_none]
    intro usage husage heq
    obtain ⟨other, hother, rfl⟩ := List.mem_map.mp husage
    exact hids.2.2 _ (List.mem_map_of_mem hother) _ (List.mem_singleton.mpr rfl)
      (of_decide_eq_true heq)
  have hothers : (Promotion.founders promotions).map (Promotion.usage (promotions ++ [promotion])) =
      (Promotion.founders promotions).map (Promotion.usage promotions) := by
    refine List.map_congr_left fun other hother => Promotion.usage_snoc_of_ne fun heq => hnew ?_
    exact Promotion.mem_founders_text.mp (heq ▸ List.mem_map_of_mem hother)
  rw [recordUsage, hnone, ofPromotions, ofPromotions, hmore, List.map_append, List.map_append,
    hothers, List.map_singleton, List.map_singleton, Promotion.usage_snoc_of_new hnew]

end GlobalMemoryDocument

namespace Promotion

open GlobalMemoryDocument

variable {promotions : List (Promotion κ)} {promotion : Promotion κ} {file : MemoryFile κ}

/-- What the search for a lesson of the text comes to. -/
theorem find?_text (promotions : List (Promotion κ)) (text : String) :
    ((ofPromotions promotions).globalLessons.find? fun lesson => lesson.text = text) =
      ((founders promotions).find? fun founder => founder.text = text).map globalLesson := by
  rw [ofPromotions, List.find?_map]
  rfl

/-- What a promotion makes of what those before it have made. -/
theorem promote_ofPromotions
    (hids : ((founders (promotions ++ [promotion])).map lessonId).Nodup) :
    ((ofPromotions promotions).promote promotion.stamp promotion.lesson
      promotion.projectPath).2 = ofPromotions (promotions ++ [promotion]) := by
  cases hfind : (founders promotions).find? fun founder => founder.text = promotion.lesson.text with
  | some founder =>
      have hfounder : founder ∈ founders promotions := List.mem_of_find?_eq_some hfind
      have htext : founder.text = promotion.text := by
        have hfound := List.find?_some hfind
        exact of_decide_eq_true hfound
      have hids' : ((founders promotions).map lessonId).Nodup :=
        hids.sublist ((founders_grow promotions promotion).sublist.map lessonId)
      rw [promote_of_some (by rw [find?_text, hfind]; rfl)]
      exact recordUsage_ofPromotions hids' hfounder htext.symm
  | none =>
      have hnew : promotion.text ∉ promotions.map text := by
        intro hknown
        obtain ⟨other, hother, heq⟩ := List.mem_map.mp (mem_founders_text.mpr hknown)
        exact List.find?_eq_none.mp hfind other hother (decide_eq_true heq)
      rw [promote_of_none (by rw [find?_text, hfind]; rfl)]
      exact recordUsage_new hids hnew

end Promotion

/-! ### What comes back from a dump -/

/-- A lesson whose metadata consists of texts, which any dump takes. -/
def Lesson.OfTexts (lesson : Lesson κ) : Prop :=
  lesson.extra = [] ∧ ∃ data : JsonObject, data.isTexts = true ∧ lesson.metadata = data.metadata

theorem Lesson.OfTexts.reread {lesson : Lesson κ} (h : lesson.OfTexts) (yaml : YamlHost) :
    ∃ reread, lesson.reread yaml = some reread ∧ reread.OfTexts ∧
      reread.id = yaml.text lesson.id ∧ reread.text = yaml.text lesson.text := by
  obtain ⟨hextra, data, htexts, hmetadata⟩ := h
  unfold Lesson.reread
  obtain ⟨again, hagain, htexts⟩ := yaml.metadata_texts data htexts
  rw [hextra, hmetadata, yaml.metadata_nil, hagain]
  exact ⟨_, rfl, ⟨rfl, again, htexts, rfl⟩, rfl, rfl⟩

namespace GlobalMemoryDocument

variable {document other : GlobalMemoryDocument κ}

/-- The ids and texts of the lessons, which is all that later promotions read. -/
def keys (document : GlobalMemoryDocument κ) : List (String × String) :=
  document.globalLessons.map fun lesson => (lesson.id, lesson.text)

/-- The same lessons by id and text, and the same records about them. -/
structure Resembles (document other : GlobalMemoryDocument κ) : Prop where
  keys : document.keys = other.keys
  usage : document.usage = other.usage

theorem Resembles.trans {third : GlobalMemoryDocument κ} (h : document.Resembles other)
    (hother : other.Resembles third) : document.Resembles third :=
  ⟨h.keys.trans hother.keys, h.usage.trans hother.usage⟩

theorem recordUsage_congr (husage : document.usage = other.usage)
    (lessonId projectPath timestamp : String) :
    (document.recordUsage lessonId projectPath timestamp).usage =
      (other.recordUsage lessonId projectPath timestamp).usage := by
  unfold recordUsage
  rw [husage]
  split <;> rfl

theorem find?_id (document : GlobalMemoryDocument κ) (text : String) :
    (document.globalLessons.find? fun lesson => lesson.text = text).map Lesson.id =
      (document.keys.find? fun key => key.2 = text).map Prod.fst := by
  rw [keys, List.find?_map, Option.map_map]
  rfl

theorem Resembles.promote (h : document.Resembles other) (stamp : PromotionStamp)
    (lesson : Lesson κ) (projectPath : String) :
    (document.promote stamp lesson projectPath).2.Resembles
      (other.promote stamp lesson projectPath).2 := by
  have hfind := document.find?_id lesson.text
  rw [h.keys, ← other.find?_id] at hfind
  have hkeys := h.keys
  unfold GlobalMemoryDocument.keys at hkeys
  cases hfound : document.globalLessons.find? fun other => other.text = lesson.text with
  | none =>
      rw [hfound, Option.map_none, eq_comm, Option.map_eq_none_iff] at hfind
      rw [promote_of_none hfound, promote_of_none hfind]
      refine ⟨?_, recordUsage_congr ?_ _ _ _⟩
      · unfold GlobalMemoryDocument.keys
        rw [recordUsage_globalLessons, recordUsage_globalLessons, List.map_append,
          List.map_append, hkeys]
      · exact h.usage
  | some existing =>
      rw [hfound, Option.map_some, eq_comm, Option.map_eq_some_iff] at hfind
      obtain ⟨found, hother, hid⟩ := hfind
      rw [promote_of_some hfound, promote_of_some hother, hid]
      refine ⟨?_, recordUsage_congr h.usage _ _ _⟩
      unfold GlobalMemoryDocument.keys
      rwa [recordUsage_globalLessons, recordUsage_globalLessons]

theorem ofTexts_promote (h : ∀ lesson ∈ document.globalLessons, lesson.OfTexts)
    (stamp : PromotionStamp) (lesson : Lesson κ) (projectPath : String) :
    ∀ kept ∈ (document.promote stamp lesson projectPath).2.globalLessons, kept.OfTexts := by
  cases hfound : document.globalLessons.find? fun other => other.text = lesson.text with
  | some existing =>
      rw [promote_of_some hfound]
      rwa [recordUsage_globalLessons]
  | none =>
      rw [promote_of_none hfound]
      rw [recordUsage_globalLessons]
      exact List.forall_mem_append.mpr ⟨h, List.forall_mem_singleton.mpr ⟨rfl, _, rfl, rfl⟩⟩

/-- A document whose texts come back has the same lessons and records when it is
loaded again. -/
theorem exists_reread {yaml : YamlHost} (hdata : ∀ lesson ∈ document.globalLessons, lesson.OfTexts)
    (hkeys : ∀ key ∈ document.keys, yaml.text key.1 = key.1 ∧ yaml.text key.2 = key.2)
    (husage : ∀ usage ∈ document.usage, usage.reread yaml = usage) :
    ∃ reread, document.reread yaml = some reread ∧ reread.Resembles document ∧
      ∀ lesson ∈ reread.globalLessons, lesson.OfTexts := by
  let again (lesson : Lesson κ) : Lesson κ := (lesson.reread yaml).getD lesson
  have hagain : ∀ lesson ∈ document.globalLessons, lesson.reread yaml = some (again lesson) ∧
      (again lesson).OfTexts ∧ (again lesson).id = yaml.text lesson.id ∧
        (again lesson).text = yaml.text lesson.text := by
    intro lesson hlesson
    obtain ⟨reread, hreread, hothers⟩ := (hdata lesson hlesson).reread yaml
    have hsame : again lesson = reread := by rw [← Option.getD_some (a := reread), ← hreread]
    rw [hsame]
    exact ⟨hreread, hothers⟩
  have hlessons : document.globalLessons.mapM (Lesson.reread yaml) =
      some (document.globalLessons.map again) :=
    mapM_eq_some_iff.mpr (List.forall₂_map_right_iff.mpr (List.forall₂_same.mpr
      fun lesson hlesson => (hagain lesson hlesson).1))
  have hrecords : document.usage.map (GlobalLessonUsage.reread yaml) = document.usage :=
    (List.map_congr_left husage).trans (List.map_id _)
  refine ⟨{ schemaVersion := yaml.text document.schemaVersion
            globalLessons := document.globalLessons.map again
            usage := document.usage }, ?_, ⟨?_, rfl⟩, ?_⟩
  · rw [GlobalMemoryDocument.reread, hlessons, hrecords]
    rfl
  · rw [keys, keys, List.map_map]
    refine List.map_congr_left fun lesson hlesson => ?_
    obtain ⟨-, -, hid, htext⟩ := hagain lesson hlesson
    have hkey := hkeys _ (List.mem_map_of_mem hlesson)
    exact Prod.ext (hid.trans hkey.1) (htext.trans hkey.2)
  · exact List.forall_mem_map.mpr fun lesson hlesson => (hagain lesson hlesson).2.1

theorem Resembles.counts {promotions : List (Promotion κ)} (h : document.Resembles other)
    (hcounts : other.Counts promotions) : document.Counts promotions := by
  have hsame : ∀ lesson ∈ document.globalLessons, ∃ lesson' ∈ other.globalLessons,
      lesson'.id = lesson.id ∧ lesson'.text = lesson.text := by
    intro lesson hlesson
    have hmem : (lesson.id, lesson.text) ∈ other.keys := h.keys ▸ List.mem_map_of_mem hlesson
    obtain ⟨lesson', hlesson', heq⟩ := List.mem_map.mp hmem
    exact ⟨lesson', hlesson', (Prod.mk.inj heq).1, (Prod.mk.inj heq).2⟩
  have htexts (document : GlobalMemoryDocument κ) :
      document.globalLessons.map Lesson.text = document.keys.map Prod.snd := by
    rw [GlobalMemoryDocument.keys, List.map_map]
    rfl
  have hcount (document : GlobalMemoryDocument κ) (id : String) :
      document.globalLessons.countP (fun lesson => lesson.id = id) =
        document.keys.countP fun key => key.1 = id := by
    rw [GlobalMemoryDocument.keys, List.countP_map]
    rfl
  constructor
  · rw [htexts, h.keys, ← htexts]
    exact hcounts.distinctTexts
  · intro usage husage
    rw [hcount, h.keys, ← hcount]
    exact hcounts.refers usage (h.usage ▸ husage)
  · intro lesson hlesson
    obtain ⟨lesson', hlesson', hid, -⟩ := hsame lesson hlesson
    rw [h.usage, ← hid]
    exact hcounts.recorded lesson' hlesson'
  · intro usage husage lesson hlesson heq
    obtain ⟨lesson', hlesson', hid, htext⟩ := hsame lesson hlesson
    rw [← htext]
    exact hcounts.counted usage (h.usage ▸ husage) lesson' hlesson' (heq.trans hid.symm)

end GlobalMemoryDocument

namespace Promotion

open GlobalMemoryDocument

variable {yaml : YamlHost} {promotions : List (Promotion κ)} {promotion : Promotion κ}
  {file : MemoryFile κ}

theorem text_lessonId (h : promotion.Stamped) :
    yaml.text promotion.lessonId = promotion.lessonId := by
  refine yaml.text_printable _ ?_
  have hid : promotion.lessonId = "lesson-" ++ promotion.stamp.identifier := rfl
  rw [hid, String.toList_append, List.all_append, h.1]
  decide

theorem reread_usage (hstamped : ∀ promotion ∈ promotions, promotion.Stamped)
    (hkept : ∀ promotion ∈ promotions, promotion.Kept yaml) {founder : Promotion κ}
    (hfounder : founder ∈ promotions) :
    (usage promotions founder).reread yaml = usage promotions founder := by
  have hpaths : (firsts id (projects promotions founder.text)).map yaml.text =
      firsts id (projects promotions founder.text) := by
    refine (List.map_congr_left fun path hpath => ?_).trans (List.map_id _)
    have hmem := (firstsFrom_sublist [] (projects promotions founder.text)).subset hpath
    obtain ⟨promotion, hpromotion, rfl⟩ := List.mem_map.mp hmem
    exact (hkept promotion (List.mem_of_mem_filter hpromotion)).2
  have hlast : yaml.text (usage promotions founder).lastUsedAt =
      (usage promotions founder).lastUsedAt := by
    rw [usage]
    dsimp only
    split
    · rename_i last hlast
      have hmem := List.mem_of_mem_filter (List.mem_of_getLast? hlast)
      exact yaml.text_printable _ (hstamped last hmem).2
    · exact yaml.text_printable _ (by decide)
  unfold GlobalLessonUsage.reread
  rw [hlast]
  simp only [usage, hpaths, text_lessonId (hstamped founder hfounder),
    yaml.text_printable _ (hstamped founder hfounder).2]

theorem reread_ofPromotions (hstamped : ∀ promotion ∈ promotions, promotion.Stamped)
    (hkept : ∀ promotion ∈ promotions, promotion.Kept yaml) :
    (∀ key ∈ (ofPromotions promotions).keys,
      yaml.text key.1 = key.1 ∧ yaml.text key.2 = key.2) ∧
    ∀ usage ∈ (ofPromotions promotions).usage, usage.reread yaml = usage := by
  have hmem {founder : Promotion κ} (h : founder ∈ founders promotions) : founder ∈ promotions :=
    (firstsFrom_sublist [] promotions).subset h
  constructor
  · intro key hkey
    rw [keys, ofPromotions, List.map_map] at hkey
    obtain ⟨founder, hfounder, rfl⟩ := List.mem_map.mp hkey
    exact ⟨text_lessonId (hstamped founder (hmem hfounder)), (hkept founder (hmem hfounder)).1⟩
  · intro usage husage
    obtain ⟨founder, hfounder, rfl⟩ := List.mem_map.mp husage
    exact reread_usage hstamped hkept (hmem hfounder)

/-- Promotions into an empty store leave what they make of an empty document,
if their texts and paths come back from a dump. -/
theorem loadMemory_after (hempty : loadMemory file = .ok {})
    (hids : ((founders promotions).map lessonId).Nodup)
    (hstamped : ∀ promotion ∈ promotions, promotion.Stamped)
    (hkept : ∀ promotion ∈ promotions, promotion.Kept yaml) :
    ∃ document, loadMemory (after yaml file promotions) = .ok document ∧
      document.Resembles (ofPromotions promotions) ∧
      ∀ lesson ∈ document.globalLessons, lesson.OfTexts := by
  induction promotions using List.reverseRecOn with
  | nil => exact ⟨{}, hempty, ⟨rfl, rfl⟩, fun _ h => nomatch h⟩
  | append_singleton promotions promotion ih =>
      obtain ⟨document, hload, hresembles, hdata⟩ :=
        ih (hids.sublist ((founders_grow promotions promotion).sublist.map lessonId))
          (fun other hother => hstamped other (List.mem_append_left _ hother))
          fun other hother => hkept other (List.mem_append_left _ hother)
      have hpromoted := hresembles.promote promotion.stamp promotion.lesson promotion.projectPath
      rw [promote_ofPromotions hids] at hpromoted
      obtain ⟨hkeys, husage⟩ := reread_ofPromotions hstamped hkept
      rw [← hpromoted.keys] at hkeys
      rw [← hpromoted.usage] at husage
      obtain ⟨reread, hreread, hagain, hdata⟩ :=
        exists_reread (ofTexts_promote hdata _ _ _) hkeys husage
      rw [after, run_snoc, ← after, perform, exec_promoteLesson hload hreread]
      exact ⟨reread, rfl, hagain.trans hpromoted, hdata⟩

end Promotion

/-! ### What the promotions make -/

namespace GlobalMemoryDocument

variable {promotions : List (Promotion κ)}

theorem globalLessons_id (promotions : List (Promotion κ)) :
    (ofPromotions promotions).globalLessons.map Lesson.id =
      (Promotion.founders promotions).map Promotion.lessonId := List.map_map

theorem usage_lessonId (promotions : List (Promotion κ)) :
    (ofPromotions promotions).usage.map GlobalLessonUsage.lessonId =
      (Promotion.founders promotions).map Promotion.lessonId := List.map_map

theorem counts_ofPromotions
    (hids : ((Promotion.founders promotions).map Promotion.lessonId).Nodup) :
    (ofPromotions promotions).Counts promotions where
  distinctTexts := by
    have htexts : (ofPromotions promotions).globalLessons.map Lesson.text =
        (Promotion.founders promotions).map Promotion.text := List.map_map
    rw [htexts]
    exact Promotion.nodup_founders_text promotions
  refers := by
    intro usage husage
    have hmem : usage.lessonId ∈ (ofPromotions promotions).globalLessons.map Lesson.id := by
      rw [globalLessons_id, ← usage_lessonId]
      exact List.mem_map_of_mem husage
    obtain ⟨lesson, hlesson, hid⟩ := List.mem_map.mp hmem
    rw [← hid]
    exact countP_key (by rwa [globalLessons_id]) hlesson
  recorded := by
    intro lesson hlesson
    have hmem : lesson.id ∈ (ofPromotions promotions).usage.map GlobalLessonUsage.lessonId := by
      rw [usage_lessonId, ← globalLessons_id]
      exact List.mem_map_of_mem hlesson
    obtain ⟨usage, husage, hid⟩ := List.mem_map.mp hmem
    rw [← hid]
    exact countP_key (by rwa [usage_lessonId]) husage
  counted := by
    intro usage husage lesson hlesson hid
    obtain ⟨founder, hfounder, rfl⟩ := List.mem_map.mp husage
    obtain ⟨other, hother, rfl⟩ := List.mem_map.mp hlesson
    obtain rfl := List.inj_on_of_nodup_map hids hfounder hother hid
    exact congrArg Int.ofNat (length_firsts _)

end GlobalMemoryDocument

/-- Promotions into an empty store keep its lessons apart, a record for each of
them, and in the record the number of the projects that promoted its text, as
long as what they promote comes back from a dump. It is by the texts and paths
that were loaded that a promotion finds the lesson and the project. -/
theorem Promotion.counts_after {yaml : YamlHost} {file : MemoryFile κ}
    (hempty : loadMemory file = .ok {}) {promotions : List (Promotion κ)}
    (hids : ((Promotion.founders promotions).map Promotion.lessonId).Nodup)
    (hstamped : ∀ promotion ∈ promotions, promotion.Stamped)
    (hkept : ∀ promotion ∈ promotions, promotion.Kept yaml) :
    ∃ document, loadMemory (Promotion.after yaml file promotions) = .ok document ∧
      document.Counts promotions := by
  obtain ⟨document, hload, hresembles, -⟩ :=
    Promotion.loadMemory_after hempty hids hstamped hkept
  exact ⟨document, hload, hresembles.counts (GlobalMemoryDocument.counts_ofPromotions hids)⟩

end Runs

def textPromotion (identifier text projectPath : String) : Promotion ℚ where
  stamp := ⟨identifier, "2026-01-01T00:00:00Z", "2026-01-01T00:00:00Z"⟩
  lesson := {
    id := "lesson-" ++ text
    text := text
    confidence := ⟨1, one_isConfidence⟩
    createdAt := ""
    updatedAt := "" }
  projectPath := projectPath

/-- Two projects promote one text, the first of them twice, and another text
between. -/
def sharedPromotions : List (Promotion ℚ) :=
  [textPromotion "1" "cache" "/a", textPromotion "2" "retry" "/a",
    textPromotion "3" "cache" "/b", textPromotion "4" "cache" "/a"]

theorem Promotion.counts_sharedPromotions :
    ∃ document, loadMemory (Promotion.after .folding .absent sharedPromotions) = .ok document ∧
      document.Counts sharedPromotions :=
  Promotion.counts_after rfl (by decide) (by decide) (by decide)

/-- Two projects promote one text with a line break of Unicode. -/
def brokenPromotions : List (Promotion ℚ) :=
  [textPromotion "1" "a\u0085b" "/a", textPromotion "2" "a\u0085b" "/b"]

/-- The second of them does not find the lesson that the first has made. -/
theorem Promotion.not_counts_after :
    ¬ ∀ (file : MemoryFile ℚ), loadMemory file = .ok {} →
      ∀ promotions : List (Promotion ℚ),
        ((Promotion.founders promotions).map Promotion.lessonId).Nodup →
        (∀ promotion ∈ promotions, promotion.Stamped) →
        ∃ document, loadMemory (Promotion.after .folding file promotions) = .ok document ∧
          document.Counts promotions := by
  intro h
  obtain ⟨document, hload, hcounts⟩ := h .absent rfl brokenPromotions (by decide) (by decide)
  have htexts : (loadMemory (Promotion.after .folding .absent brokenPromotions)).toOption.map
      (fun document => document.globalLessons.map Lesson.text) = some ["a b", "a b"] := by
    decide
  rw [hload] at htexts
  have hsame : document.globalLessons.map Lesson.text = ["a b", "a b"] := Option.some.inj htexts
  have hdistinct := hcounts.distinctTexts
  rw [hsame] at hdistinct
  exact absurd hdistinct (by decide)

end ForgeOS
