import ForgeOS.Context.Lazy
import ForgeOS.Memory.ProjectProfiles
import Mathlib.Data.List.TakeWhile

/-!
Skills: proposed from the patterns of a project, approved and installed, and
then on the menu of the agents. All projects share one directory of them.
-/

namespace ForgeOS

open Library

/-- A name that its file can have: one without a separator or NUL, which is not
too long for the file system with its suffix. -/
abbrev SkillName : Type :=
  { name : String //
    '/' ∉ name.toList ∧ Char.ofNat 0 ∉ name.toList ∧ name.utf8ByteSize ≤ 250 }

/-- What stands in a file of `~/.forge/skills`. -/
inductive SkillText where
  /-- Bytes that reading raises a `ValueError` on. -/
  | unreadable
  | malformed
  | notMapping
  | mapping (data : JsonObject)

/-- The directory, by the names of its files. -/
abbrev SkillsDir := Dict String SkillText

/-- What the commands find in `~/.forge`. -/
structure ForgeHome where
  profiles : ProfileFile := .absent
  skills : SkillsDir := []

/-- What a command raises. -/
inductive SkillFailure where
  | valueError
  | yamlError
deriving DecidableEq, Repr

structure SkillAnswer where
  status : String
  name : String
  path : Option String := none
deriving DecidableEq, Repr

namespace SkillName

def file (name : SkillName) : String := name.1 ++ ".yaml"

end SkillName

section Workflow

variable (yaml : YamlHost) (skillsPath : String)

def proposeSkill (projectRoot : String) (name : SkillName) (description : String) :
    Effect ForgeHome SkillFailure SkillAnswer := do
  let home ← get
  let profile ← Effect.ofExcept
    ((getProfile home.profiles projectRoot).mapError fun .valueError => .valueError)
  let path := s!"{skillsPath}/{name.file}"
  if (home.skills.get? name.file).isSome then
    return { status := "exists", name := name.1, path := some path }
  else do
    set { home with skills := home.skills.set name.file (.mapping (yaml.object [
      ("name", .str name.1),
      ("description", .str description),
      ("status", .str "proposed"),
      ("project_path", .str projectRoot),
      ("patterns", .arr ((profile.elim [] ProjectProfile.patterns).map .str))])) }
    return { status := "proposed", name := name.1, path := some path }

def markSkill (name : SkillName) (admits : JsonObject → Bool) (status : String) :
    Effect ForgeHome SkillFailure SkillAnswer := do
  let home ← get
  match home.skills.get? name.file with
  | none => return { status := "not_found", name := name.1 }
  | some .unreadable => throw .valueError
  | some .malformed => throw .yamlError
  | some .notMapping => return { status := "error", name := name.1 }
  | some (.mapping data) =>
      if admits data then do
        set { home with
          skills := home.skills.set name.file
            (.mapping (yaml.object (data.set "status" (.str status)))) }
        return { status, name := name.1 }
      else return { status := "not_approved", name := name.1 }

/-- `data.get("status") == "approved"` -/
def isApproved (data : JsonObject) : Bool :=
  (data.get? "status").bind Json.str? = some "approved"

def approveSkill (name : SkillName) : Effect ForgeHome SkillFailure SkillAnswer :=
  markSkill yaml name (fun _ => true) "approved"

def installSkill (name : SkillName) : Effect ForgeHome SkillFailure SkillAnswer :=
  markSkill yaml name isApproved "installed"

/-! ### Reading the directory -/

/-- `PurePath.stem` and `PurePath.suffix` -/
def stemSuffix (file : String) : String × String :=
  let behind := file.toList.reverse.takeWhile (· ≠ '.')
  let front := file.toList.reverse.drop (behind.length + 1)
  if behind = [] ∨ front = [] then (file, "")
  else (String.ofList front.reverse, String.ofList ('.' :: behind.reverse))

namespace SkillsDir

/-- The `.yaml` files in the order of their paths, each with its stem. -/
def yamlFiles (dir : SkillsDir) : List (String × SkillText) :=
  ((dir.insertionSort fun a b => a.1 ≤ b.1).filter fun entry =>
    (stemSuffix entry.1).2 = ".yaml").map fun entry => ((stemSuffix entry.1).1, entry.2)

/-- What `list_records` reads of a file. -/
def record : String × SkillText → SkillFile
  | (_, .unreadable) => .unreadable
  | (_, .malformed) => .malformed
  | (_, .notMapping) => .notMapping
  | (stem, .mapping data) => .record stem data

def records (dir : SkillsDir) : List SkillFile := dir.yamlFiles.map record

/-- `list_skills`; no file makes it fail. -/
def listSkills (dir : SkillsDir) : List (Json × Json × Json) :=
  dir.yamlFiles.filterMap fun
    | (stem, .mapping data) => some (
        (data.get? "name").getD (.str stem),
        (data.get? "description").getD (.str ""),
        (data.get? "status").getD (.str "unknown"))
    | _ => none

end SkillsDir

def expandSkill (skills : List SkillFile) (name : String) : Except ContextFailure JsonObject := do
  let records ← listRecords skills
  match records.find? fun record => (record.get? "name").bind Json.str? = some name with
  | none => throw (.lazy s!"Unknown skill `{name}`.")
  | some record => return record

/-! ### Commands -/

inductive HomeCommand where
  | upsertProfile (stamp : ProfileStamp) (projectPath : String)
      (languages frameworks tools : Option (List String))
  | addPattern (stamp : ProfileStamp) (projectPath pattern : String)
  | proposeSkill (projectRoot : String) (name : SkillName) (description : String)
  | approveSkill (name : SkillName)
  | installSkill (name : SkillName)

/-- A skill as its first proposal leaves it. -/
structure SkillProposal where
  name : SkillName
  description : String
  projectRoot : String
  patterns : List String

/-- What is done to a skill that has been proposed. -/
inductive SkillMark where
  | approval
  | installation
deriving DecidableEq

namespace HomeCommand

def step (home : ForgeHome) : HomeCommand → ForgeHome
  | .upsertProfile stamp projectPath languages frameworks tools =>
      let noted := ForgeOS.upsertProfile yaml stamp projectPath languages frameworks tools
      { home with profiles := (noted.exec home.profiles).2 }
  | .addPattern stamp projectPath pattern =>
      let noted := ForgeOS.addPattern yaml stamp projectPath pattern
      { home with profiles := (noted.exec home.profiles).2 }
  | .proposeSkill projectRoot name description =>
      ((ForgeOS.proposeSkill yaml skillsPath projectRoot name description).exec home).2
  | .approveSkill name => ((ForgeOS.approveSkill yaml name).exec home).2
  | .installSkill name => ((ForgeOS.installSkill yaml name).exec home).2

/-- What some commands make of a home without profiles and skills. -/
def after (commands : List HomeCommand) : ForgeHome := run (step yaml skillsPath) {} commands

/-- What a command says about a project. -/
def note? : HomeCommand → Option ProfileNote
  | .upsertProfile stamp projectPath languages frameworks tools =>
      some (.ofLists stamp projectPath languages frameworks tools)
  | .addPattern stamp projectPath pattern => some (.ofPattern stamp projectPath pattern)
  | _ => none

def notes (commands : List HomeCommand) : List ProfileNote := commands.filterMap note?

/-- The texts that a command writes. -/
def texts : HomeCommand → List String
  | .proposeSkill projectRoot name description => [projectRoot, name.1, description]
  | command => command.note?.elim [] ProfileNote.texts

/-- They come back from a dump. -/
def Kept (command : HomeCommand) : Prop := ∀ value ∈ command.texts, yaml.text value = value

instance (command : HomeCommand) : Decidable (command.Kept yaml) :=
  inferInstanceAs (Decidable (∀ value ∈ command.texts, yaml.text value = value))

def proposal? (earlier : List HomeCommand) : HomeCommand → Option SkillProposal
  | .proposeSkill projectRoot name description => some {
      name
      description
      projectRoot
      patterns := firsts id ((ProfileNote.about (notes earlier) projectRoot).flatMap
        ProfileNote.patterns) }
  | _ => none

def proposalsFrom (earlier : List HomeCommand) : List HomeCommand → List SkillProposal
  | [] => []
  | command :: rest =>
      (command.proposal? earlier).toList ++ proposalsFrom (earlier ++ [command]) rest

/-- The proposals that make a skill: the first one of each name. -/
def skills (commands : List HomeCommand) : List SkillProposal :=
  firsts SkillProposal.name (proposalsFrom [] commands)

def proposes (name : SkillName) : HomeCommand → Bool
  | .proposeSkill _ other _ => other = name
  | _ => false

def mark? (name : SkillName) : HomeCommand → Option SkillMark
  | .approveSkill other => if other = name then some .approval else none
  | .installSkill other => if other = name then some .installation else none
  | _ => none

/-- What is done to a skill once it has been proposed. -/
def marks (commands : List HomeCommand) (name : SkillName) : List SkillMark :=
  (commands.dropWhile fun command => !command.proposes name).filterMap (mark? name)

/-- A skill is approved as soon as anyone approves it, and installed as long as
no one approves it once more. -/
def status (marks : List SkillMark) : String :=
  if SkillMark.approval ∈ marks then
    if marks.getLast? = some .installation then "installed" else "approved"
  else "proposed"

/-- What stands in the file of a skill. -/
def data (commands : List HomeCommand) (skill : SkillProposal) : JsonObject := [
  ("name", .str skill.name.1),
  ("description", .str skill.description),
  ("status", .str (status (marks commands skill.name))),
  ("project_path", .str skill.projectRoot),
  ("patterns", .arr (skill.patterns.map .str))]

/-- The directory that the commands make. -/
def dir (commands : List HomeCommand) : SkillsDir :=
  (skills commands).map fun skill => (skill.name.file, .mapping (data commands skill))

end HomeCommand

/-! ### One more command -/

theorem SkillName.file_injective : Function.Injective SkillName.file := by
  intro name other h
  exact Subtype.ext (String.append_left_inj ".yaml" |>.mp h)

namespace HomeCommand

variable {commands : List HomeCommand} {command : HomeCommand} {name : SkillName}

theorem proposalsFrom_snoc (earlier commands : List HomeCommand) (command : HomeCommand) :
    proposalsFrom earlier (commands ++ [command]) =
      proposalsFrom earlier commands ++ (command.proposal? (earlier ++ commands)).toList := by
  induction commands generalizing earlier with
  | nil => simp [proposalsFrom]
  | cons first rest ih =>
      rw [List.cons_append, proposalsFrom, ih, proposalsFrom, List.append_assoc, List.append_assoc]
      rfl

theorem mem_proposalsFrom (earlier : List HomeCommand) :
    name ∈ (proposalsFrom earlier commands).map SkillProposal.name ↔
      ∃ command ∈ commands, command.proposes name = true := by
  induction commands generalizing earlier with
  | nil => simp [proposalsFrom]
  | cons first rest ih =>
      have hfirst : name ∈ (first.proposal? earlier).toList.map SkillProposal.name ↔
          first.proposes name = true := by
        cases first with
        | proposeSkill projectRoot other description =>
            simp [proposal?, proposes, eq_comm]
        | _ => simp [proposal?, proposes]
      rw [proposalsFrom, List.map_append, List.mem_append, hfirst, ih, List.exists_mem_cons_iff]

/-- A skill stands in the directory once its name has been proposed. -/
theorem mem_skills :
    name ∈ (skills commands).map SkillProposal.name ↔
      ∃ command ∈ commands, command.proposes name = true := by
  rw [skills, mem_keys_firsts, mem_proposalsFrom]

theorem marks_snoc (h : name ∈ (skills commands).map SkillProposal.name) :
    marks (commands ++ [command]) name = marks commands name ++ (command.mark? name).toList := by
  obtain ⟨proposal, hmem, hproposes⟩ := mem_skills.mp h
  have hrest : (commands.dropWhile fun command => !command.proposes name) ≠ [] := by
    rw [Ne, List.dropWhile_eq_nil_iff]
    intro hall
    have hnot := hall proposal hmem
    rw [hproposes] at hnot
    cases hnot
  rw [marks, List.dropWhile_append, if_neg (by simpa using hrest), filterMap_snoc, marks]

/-- Nothing has been done to a skill that is new. -/
theorem marks_snoc_of_new (h : name ∉ (skills commands).map SkillProposal.name)
    (hproposes : command.proposes name = true) : marks (commands ++ [command]) name = [] := by
  rw [mem_skills, not_exists] at h
  have hnone : (commands.dropWhile fun command => !command.proposes name) = [] := by
    rw [List.dropWhile_eq_nil_iff]
    intro other hother
    rw [Bool.not_eq_true', Bool.eq_false_iff]
    exact fun hsame => h other ⟨hother, hsame⟩
  rw [marks, List.dropWhile_append, hnone, List.isEmpty_nil, if_pos rfl, List.dropWhile_cons,
    hproposes]
  cases command with
  | proposeSkill projectRoot other description => rfl
  | _ => cases hproposes

theorem status_approval (marks : List SkillMark) : status (marks ++ [.approval]) = "approved" := by
  rw [status, if_pos (List.mem_append_right _ (List.mem_singleton.mpr rfl)), List.getLast?_concat,
    if_neg (by simp)]

theorem status_installation (marks : List SkillMark) :
    status (marks ++ [.installation]) =
      if status marks = "approved" then "installed" else status marks := by
  have hmem : SkillMark.approval ∈ marks ++ [.installation] ↔ SkillMark.approval ∈ marks := by simp
  rw [status, if_congr hmem rfl rfl, List.getLast?_concat, if_pos rfl, status]
  split
  · split
    · rfl
    · rfl
  · rfl

end HomeCommand

/-! ### What comes back from a dump -/

/-- The texts of a skill come back. -/
structure SkillProposal.Kept (skill : SkillProposal) : Prop where
  name : yaml.text skill.name.1 = skill.name.1
  description : yaml.text skill.description = skill.description
  projectRoot : yaml.text skill.projectRoot = skill.projectRoot
  patterns : ∀ pattern ∈ skill.patterns, yaml.text pattern = pattern

/-- The data of a skill with some status. -/
def SkillProposal.record (skill : SkillProposal) (status : String) : JsonObject := [
  ("name", .str skill.name.1),
  ("description", .str skill.description),
  ("status", .str status),
  ("project_path", .str skill.projectRoot),
  ("patterns", .arr (skill.patterns.map .str))]

theorem stringsOfItems_str (values : List String) :
    Json.stringsOfItems (values.map .str) = values := by
  induction values with
  | nil => rfl
  | cons value rest ih => rw [List.map_cons, Json.stringsOfItems, ih]; rfl

variable {yaml} in
/-- The data of a skill comes back with its texts. -/
theorem SkillProposal.Kept.object {skill : SkillProposal} (h : skill.Kept yaml) (status : String)
    (hstatus : status.toList.all isPrintable = true) :
    yaml.object (skill.record status) = skill.record status := by
  have hkeys : ((skill.record status).map Prod.fst).Nodup := by
    change ["name", "description", "status", "project_path", "patterns"].Nodup
    decide
  have htexts : Json.stringsOfEntries (skill.record status) =
      ["name", skill.name.1, "description", skill.description, "status", status, "project_path",
        skill.projectRoot, "patterns"] ++ skill.patterns := by
    simp [SkillProposal.record, Json.stringsOfEntries, Json.strings, stringsOfItems_str]
  have hdata : (skill.record status).isTexts = true := by
    simp [SkillProposal.record, JsonObject.isTexts, Json.isTexts, Json.str?]
  refine yaml.object_of_texts _ hkeys hdata ?_
  rw [htexts, List.forall_mem_append]
  simp only [List.forall_mem_cons]
  exact ⟨⟨yaml.text_printable _ (by decide), h.name, yaml.text_printable _ (by decide),
    h.description, yaml.text_printable _ (by decide), yaml.text_printable _ hstatus,
    yaml.text_printable _ (by decide), h.projectRoot, yaml.text_printable _ (by decide),
    List.forall_mem_nil _⟩, h.patterns⟩

namespace HomeCommand

variable {commands : List HomeCommand} {command : HomeCommand} {name : SkillName}

variable {yaml} in
theorem kept_notes (h : ∀ command ∈ commands, command.Kept yaml) :
    ∀ note ∈ notes commands, note.Kept yaml := by
  intro note hnote
  obtain ⟨command, hcommand, hnote⟩ := List.mem_filterMap.mp hnote
  have hkept := h command hcommand
  cases command with
  | upsertProfile stamp projectPath languages frameworks tools =>
      obtain rfl := Option.some.inj hnote
      exact hkept
  | addPattern stamp projectPath pattern =>
      obtain rfl := Option.some.inj hnote
      exact hkept
  | _ => cases hnote

variable {yaml} in
theorem kept_proposalsFrom {earlier : List HomeCommand}
    (hearlier : ∀ command ∈ earlier, command.Kept yaml)
    (h : ∀ command ∈ commands, command.Kept yaml) :
    ∀ skill ∈ proposalsFrom earlier commands, skill.Kept yaml := by
  induction commands generalizing earlier with
  | nil => exact List.forall_mem_nil _
  | cons command rest ih =>
      obtain ⟨hcommand, hrest⟩ := List.forall_mem_cons.mp h
      rw [proposalsFrom]
      refine List.forall_mem_append.mpr ⟨fun skill hskill => ?_, ih ?_ hrest⟩
      · cases command with
        | approveSkill name => cases hskill
        | installSkill name => cases hskill
        | upsertProfile stamp projectPath languages frameworks tools => cases hskill
        | addPattern stamp projectPath pattern => cases hskill
        | proposeSkill projectRoot name description =>
            obtain rfl := List.mem_singleton.mp hskill
            refine ⟨hcommand _ (by simp [texts]), hcommand _ (by simp [texts]),
              hcommand _ (by simp [texts]), fun pattern hpattern => ?_⟩
            have hmem := (firstsFrom_sublist [] _).subset hpattern
            obtain ⟨note, hnote, hpattern⟩ := List.mem_flatMap.mp hmem
            exact kept_notes hearlier note (List.mem_of_mem_filter hnote) pattern
              (by simp [ProfileNote.texts, hpattern])
      · exact List.forall_mem_append.mpr ⟨hearlier, List.forall_mem_singleton.mpr hcommand⟩

variable {yaml} in
/-- The skills that such commands propose come back. -/
theorem kept_skills (h : ∀ command ∈ commands, command.Kept yaml) :
    ∀ skill ∈ skills commands, skill.Kept yaml :=
  fun skill hskill => kept_proposalsFrom (List.forall_mem_nil _) h skill
    ((firstsFrom_sublist [] _).subset hskill)

/-! ### What a run leaves -/

/-- The files hold what the commands so far come to. -/
structure Holds (home : ForgeHome) (commands : List HomeCommand) : Prop where
  profiles : loadProfiles home.profiles = .ok { profiles := ProfileNote.profiles (notes commands) }
  skills : home.skills = dir commands

variable {home : ForgeHome}

theorem nodup_skills (commands : List HomeCommand) :
    ((skills commands).map SkillProposal.name).Nodup := nodup_keys_firstsFrom [] _

theorem keys_dir (commands : List HomeCommand) :
    (dir commands).map Prod.fst =
      ((skills commands).map SkillProposal.name).map SkillName.file := by
  rw [dir, List.map_map, List.map_map]
  rfl

theorem nodup_keys_dir (commands : List HomeCommand) : ((dir commands).map Prod.fst).Nodup := by
  rw [keys_dir]
  exact (nodup_skills commands).map SkillName.file_injective

theorem mem_keys_dir :
    name.file ∈ (dir commands).map Prod.fst ↔ name ∈ (skills commands).map SkillProposal.name := by
  rw [keys_dir, List.mem_map_of_injective SkillName.file_injective]

theorem get?_dir {skill : SkillProposal} (h : skill ∈ skills commands) :
    (dir commands).get? skill.name.file = some (.mapping (data commands skill)) :=
  Dict.get?_of_mem (nodup_keys_dir commands) (List.mem_map.mpr ⟨skill, h, rfl⟩)

/-- A command that is not about skills leaves the directory as it is. -/
theorem dir_snoc_of_neutral (hproposal : ∀ earlier, command.proposal? earlier = none)
    (hmark : ∀ name, command.mark? name = none) : dir (commands ++ [command]) = dir commands := by
  have hskills : skills (commands ++ [command]) = skills commands := by
    rw [skills, proposalsFrom_snoc, hproposal, Option.toList_none, List.append_nil, skills]
  rw [dir, hskills, dir]
  refine List.map_congr_left fun skill hskill => ?_
  rw [data, marks_snoc (List.mem_map_of_mem hskill), hmark, Option.toList_none, List.append_nil,
    data]

variable (commands) in
/-- A mark changes the status of its skill and nothing else. -/
theorem dir_snoc_of_mark {mark : SkillMark}
    (hproposal : ∀ earlier, command.proposal? earlier = none)
    (hmark : ∀ other, command.mark? other = if name = other then some mark else none) :
    dir (commands ++ [command]) = (skills commands).map fun skill =>
      (skill.name.file, .mapping (if skill.name = name then
        (data commands skill).set "status" (.str (status (marks commands skill.name ++ [mark])))
      else data commands skill)) := by
  have hskills : skills (commands ++ [command]) = skills commands := by
    rw [skills, proposalsFrom_snoc, hproposal, Option.toList_none, List.append_nil, skills]
  rw [dir, hskills]
  refine List.map_congr_left fun skill hskill => ?_
  rw [data, marks_snoc (List.mem_map_of_mem hskill), hmark]
  by_cases hname : skill.name = name
  · rw [if_pos hname.symm, if_pos hname]
    rfl
  · rw [if_neg (Ne.symm hname), if_neg hname, Option.toList_none, List.append_nil]
    rfl

theorem set_dir (h : name ∈ (skills commands).map SkillProposal.name) (value : SkillText) :
    (dir commands).set name.file value = (skills commands).map fun skill =>
      (skill.name.file, if skill.name = name then value else .mapping (data commands skill)) := by
  rw [Dict.set_of_mem (nodup_keys_dir commands) (mem_keys_dir.mpr h), dir, List.map_map]
  refine List.map_congr_left fun skill _ => ?_
  rw [Function.comp_apply]
  by_cases hname : skill.name = name
  · rw [if_pos (congrArg SkillName.file hname), if_pos hname, hname]
  · rw [if_neg fun h => hname (SkillName.file_injective h), if_neg hname]

/-- The patterns that a proposal finds are those noted about its project. -/
theorem patterns_of_getProfile (h : loadProfiles home.profiles =
    .ok { profiles := ProfileNote.profiles (notes commands) }) (projectRoot : String) :
    ∃ profile, getProfile home.profiles projectRoot = .ok profile ∧
      profile.elim [] ProjectProfile.patterns =
        firsts id ((ProfileNote.about (notes commands) projectRoot).flatMap
          ProfileNote.patterns) := by
  refine ⟨_, by rw [getProfile, h, ok_bind, ProfileNote.find?_profiles]; rfl, ?_⟩
  split
  · rfl
  · rename_i hnot
    have hnone : ProfileNote.about (notes commands) projectRoot = [] := by
      refine List.filter_eq_nil_iff.mpr fun note hnote heq => hnot ?_
      exact List.mem_map.mpr ⟨note, hnote, of_decide_eq_true heq⟩
    rw [hnone]
    rfl

variable {yaml} in
theorem holds_note {note : ProfileNote} (h : Holds home commands)
    (hkept : ∀ other ∈ commands ++ [command], other.Kept yaml)
    (hnote : command.note? = some note)
    (hproposal : ∀ earlier, command.proposal? earlier = none)
    (hmark : ∀ name, command.mark? name = none) :
    Holds { home with profiles := ((note.perform yaml).exec home.profiles).2 }
      (commands ++ [command]) where
  profiles := by
    have hnotes : notes (commands ++ [command]) = notes commands ++ [note] := by
      rw [notes, filterMap_snoc, hnote, Option.toList_some, notes]
    have hreread := ProfileNote.reread_profiles (kept_notes hkept)
    rw [hnotes, ProfileNote.profiles_snoc] at hreread
    rw [ProfileNote.exec_perform h.profiles, hnotes, ProfileNote.profiles_snoc]
    exact congrArg Except.ok hreread
  skills := by rw [dir_snoc_of_neutral hproposal hmark, ← h.skills]

theorem notes_snoc_of_none (h : command.note? = none) :
    notes (commands ++ [command]) = notes commands := by
  rw [notes, filterMap_snoc, h, Option.toList_none, List.append_nil, notes]

variable {yaml} in
/-- The answer to a mark, and what it leaves of the skills. -/
theorem exec_markSkill (h : Holds home commands)
    (hkept : ∀ command ∈ commands, command.Kept yaml) (name : SkillName)
    (admits : JsonObject → Bool) {status : String}
    (hstatus : status.toList.all isPrintable = true) :
    (name ∉ (skills commands).map SkillProposal.name ∧
      (markSkill yaml name admits status).exec home =
        (.ok { status := "not_found", name := name.1 }, home)) ∨
    ∃ skill ∈ skills commands, skill.name = name ∧
      (markSkill yaml name admits status).exec home =
        if admits (data commands skill) then
          (.ok { status, name := name.1 }, { home with
            skills := home.skills.set name.file
              (.mapping ((data commands skill).set "status" (.str status))) })
        else (.ok { status := "not_approved", name := name.1 }, home) := by
  by_cases hname : name ∈ (skills commands).map SkillProposal.name
  · obtain ⟨skill, hskill, rfl⟩ := List.mem_map.mp hname
    refine Or.inr ⟨skill, hskill, rfl, ?_⟩
    have hobject : yaml.object ((data commands skill).set "status" (.str status)) =
        (data commands skill).set "status" (.str status) :=
      (kept_skills hkept skill hskill).object status hstatus
    simp only [markSkill, Effect.exec_bind, Effect.exec_get, h.skills, get?_dir hskill, hobject]
    split
    · rfl
    · rfl
  · refine Or.inl ⟨hname, ?_⟩
    have hnone : (dir commands).get? name.file = none :=
      Dict.get?_eq_none (mt mem_keys_dir.mp hname)
    simp only [markSkill, Effect.exec_bind, Effect.exec_get, h.skills, hnone, Effect.exec_pure]

theorem isApproved_data (commands : List HomeCommand) (skill : SkillProposal) :
    isApproved (data commands skill) =
      decide (HomeCommand.status (marks commands skill.name) = "approved") := by
  rw [isApproved]
  refine decide_eq_decide.mpr ?_
  exact Option.some_inj

variable {yaml} in
/-- A mark that is put on a skill, or refused. -/
theorem holds_mark {mark : SkillMark} {admits : JsonObject → Bool} {status : String}
    (h : Holds home commands) (hkept : ∀ command ∈ commands, command.Kept yaml)
    (hprintable : status.toList.all isPrintable = true) (hnote : command.note? = none)
    (hproposal : ∀ earlier, command.proposal? earlier = none)
    (hmark : ∀ other, command.mark? other = if name = other then some mark else none)
    (hstatus : ∀ skill, HomeCommand.status (marks commands skill.name ++ [mark]) =
      if admits (data commands skill) then status
      else HomeCommand.status (marks commands skill.name)) :
    Holds ((markSkill yaml name admits status).exec home).2 (commands ++ [command]) := by
  have hrefused : ∀ skill, admits (data commands skill) = false →
      (data commands skill).set "status"
        (.str (HomeCommand.status (marks commands skill.name ++ [mark]))) =
          data commands skill := by
    intro skill hadmits
    rw [hstatus, hadmits, if_neg Bool.false_ne_true]
    rfl
  have hdir := dir_snoc_of_mark commands hproposal hmark
  rcases exec_markSkill h hkept name admits hprintable with
    ⟨hname, hexec⟩ | ⟨skill, hskill, rfl, hexec⟩
  · refine ⟨by rw [hexec, notes_snoc_of_none hnote]; exact h.profiles, ?_⟩
    rw [hexec, hdir, h.skills, dir]
    refine List.map_congr_left fun skill hskill => ?_
    have hother : skill.name ≠ name := fun heq => hname (heq ▸ List.mem_map_of_mem hskill)
    rw [if_neg hother]
  · rw [hexec]
    cases hadmits : admits (data commands skill) with
    | false =>
        refine ⟨by rw [notes_snoc_of_none hnote]; exact h.profiles, ?_⟩
        rw [if_neg Bool.false_ne_true, hdir, h.skills, dir]
        refine List.map_congr_left fun other hother => ?_
        by_cases hname : other.name = skill.name
        · obtain rfl := List.inj_on_of_nodup_map (nodup_skills commands) hother hskill hname
          rw [if_pos rfl, hrefused other hadmits]
        · rw [if_neg hname]
    | true =>
        refine ⟨by rw [notes_snoc_of_none hnote]; exact h.profiles, ?_⟩
        rw [if_pos rfl, hdir, h.skills, set_dir (List.mem_map_of_mem hskill)]
        refine List.map_congr_left fun other hother => ?_
        by_cases hname : other.name = skill.name
        · obtain rfl := List.inj_on_of_nodup_map (nodup_skills commands) hother hskill hname
          rw [if_pos rfl, if_pos rfl, hstatus, hadmits, if_pos rfl]
        · rw [if_neg hname, if_neg hname]

theorem holds_proposal (h : Holds home commands) {projectRoot : String} {name : SkillName}
    {description : String} (hkept : ∀ command ∈ commands ++ [.proposeSkill projectRoot name
      description], command.Kept yaml) :
    Holds ((ForgeOS.proposeSkill yaml skillsPath projectRoot name description).exec home).2
      (commands ++ [.proposeSkill projectRoot name description]) := by
  obtain ⟨profile, hprofile, hpatterns⟩ := patterns_of_getProfile h.profiles projectRoot
  have hsnoc := proposalsFrom_snoc [] commands (.proposeSkill projectRoot name description)
  rw [List.nil_append, proposal?, Option.toList_some] at hsnoc
  by_cases hknown : name ∈ (skills commands).map SkillProposal.name
  · have hsome : ((dir commands).get? name.file).isSome = true :=
      Dict.get?_isSome_of_mem (mem_keys_dir.mpr hknown)
    have hskills : skills (commands ++ [.proposeSkill projectRoot name description]) =
        skills commands := by
      rw [skills, hsnoc, firsts_snoc_of_mem (mem_keys_firsts.mp hknown), skills]
    simp only [ForgeOS.proposeSkill, Effect.exec_bind, Effect.exec_get, Effect.exec_ofExcept,
      hprofile, ok_mapError, h.skills, hsome, if_true, Effect.exec_pure]
    refine ⟨by rw [notes_snoc_of_none rfl]; exact h.profiles, ?_⟩
    rw [dir, hskills, h.skills, dir]
    refine List.map_congr_left fun skill hskill => ?_
    rw [data, data, marks_snoc (List.mem_map_of_mem hskill)]
    simp only [mark?, Option.toList_none, List.append_nil]
  · have hnone : (dir commands).get? name.file = none :=
      Dict.get?_eq_none (mt mem_keys_dir.mp hknown)
    simp only [ForgeOS.proposeSkill, Effect.exec_bind, Effect.exec_get, Effect.exec_ofExcept,
      hprofile, ok_mapError, h.skills, hnone, Option.isSome_none, Bool.false_eq_true, if_false,
      hpatterns]
    refine ⟨by rw [notes_snoc_of_none rfl]; exact h.profiles, ?_⟩
    have hfresh : name.file ∉ (dir commands).map Prod.fst := mt mem_keys_dir.mp hknown
    have hskills : skills (commands ++ [.proposeSkill projectRoot name description]) =
        skills commands ++ [⟨name, description, projectRoot, firsts id ((ProfileNote.about
          (notes commands) projectRoot).flatMap ProfileNote.patterns)⟩] := by
      rw [skills, hsnoc, firsts_snoc_of_not_mem (mt mem_keys_firsts.mpr hknown), skills]
    have hnew : marks (commands ++ [.proposeSkill projectRoot name description]) name = [] :=
      marks_snoc_of_new hknown (decide_eq_true rfl)
    have hobject := (kept_skills hkept _ (hskills ▸ List.mem_append_right _
      (List.mem_singleton.mpr rfl))).object "proposed" (by decide)
    refine (Dict.set_of_not_mem hfresh _).trans ?_
    rw [SkillProposal.record] at hobject
    rw [hobject]
    conv_rhs => rw [dir, hskills, List.map_append, List.map_singleton, data, hnew]
    refine congrArg (· ++ _) ?_
    refine List.map_congr_left fun skill hskill => ?_
    rw [data, data, marks_snoc (List.mem_map_of_mem hskill)]
    simp only [mark?, Option.toList_none, List.append_nil]

/-- One more command. -/
theorem holds_step (h : Holds home commands) {command : HomeCommand}
    (hkept : ∀ other ∈ commands ++ [command], other.Kept yaml) :
    Holds (step yaml skillsPath home command) (commands ++ [command]) := by
  have hearlier : ∀ other ∈ commands, other.Kept yaml := (List.forall_mem_append.mp hkept).1
  cases command with
  | upsertProfile stamp projectPath languages frameworks tools =>
      exact holds_note h hkept rfl (fun _ => rfl) fun _ => rfl
  | addPattern stamp projectPath pattern =>
      rw [step, ForgeOS.addPattern, Effect.exec_bind_pure_snd]
      exact holds_note h hkept rfl (fun _ => rfl) fun _ => rfl
  | proposeSkill projectRoot name description =>
      exact holds_proposal yaml skillsPath h hkept
  | approveSkill name =>
      exact holds_mark h hearlier (by decide) rfl (fun _ => rfl) (fun _ => rfl)
        fun skill => status_approval _
  | installSkill name =>
      refine holds_mark h hearlier (by decide) rfl (fun _ => rfl) (fun _ => rfl) fun skill => ?_
      simp only [status_installation, isApproved_data, decide_eq_true_eq]

/-- Any commands of texts that come back leave what they come to. -/
theorem holds_after {commands : List HomeCommand}
    (hkept : ∀ command ∈ commands, command.Kept yaml) :
    Holds (after yaml skillsPath commands) commands := by
  induction commands using List.reverseRecOn with
  | nil => exact ⟨rfl, rfl⟩
  | append_singleton commands command ih =>
      rw [after, run_snoc]
      exact holds_step yaml skillsPath (ih (List.forall_mem_append.mp hkept).1) hkept

end HomeCommand

end Workflow

/-! ### What the agents see -/

/-- The file of a skill is listed under its name, unless that is empty. -/
theorem SkillName.stemSuffix_file (name : SkillName) :
    stemSuffix name.file = if name.1 = "" then (".yaml", "") else (name.1, ".yaml") := by
  have hreverse : name.file.toList.reverse =
      ['l', 'm', 'a', 'y'] ++ '.' :: name.1.toList.reverse := by
    rw [SkillName.file, String.toList_append, List.reverse_append]
    rfl
  have hbehind : (['l', 'm', 'a', 'y'] ++ '.' :: name.1.toList.reverse).takeWhile
      (fun c => decide (c ≠ '.')) = ['l', 'm', 'a', 'y'] := rfl
  rw [stemSuffix, hreverse, hbehind]
  by_cases hname : name.1 = ""
  · rw [if_pos hname, SkillName.file, hname]
    rfl
  · have hfront : name.1.toList.reverse ≠ [] := by
      simpa using hname
    rw [if_neg hname, if_neg (by simpa using hname)]
    simp

namespace HomeCommand

variable {commands : List HomeCommand}

/-- The skills in the order of their files, without one of an empty name. -/
def listed (commands : List HomeCommand) : List SkillProposal :=
  ((skills commands).insertionSort fun a b => a.name.file ≤ b.name.file).filter fun skill =>
    skill.name.1 ≠ ""

theorem yamlFiles_dir (commands : List HomeCommand) :
    (dir commands).yamlFiles = (listed commands).map fun skill =>
      (skill.name.1, .mapping (data commands skill)) := by
  have hsorted : (dir commands).insertionSort (fun a b => a.1 ≤ b.1) =
      ((skills commands).insertionSort fun a b => a.name.file ≤ b.name.file).map fun skill =>
        (skill.name.file, .mapping (data commands skill)) :=
    (List.map_insertionSort (fun a b : SkillProposal => a.name.file ≤ b.name.file)
      (fun a b : String × SkillText => a.1 ≤ b.1)
      (fun skill => (skill.name.file, SkillText.mapping (data commands skill))) (skills commands)
      fun _ _ _ _ => Iff.rfl).symm
  have hsuffix : ∀ skill : SkillProposal,
      decide ((stemSuffix skill.name.file).2 = ".yaml") = decide (skill.name.1 ≠ "") := by
    intro skill
    rw [skill.name.stemSuffix_file]
    split <;> simp_all
  rw [SkillsDir.yamlFiles, hsorted, List.filter_map, List.map_map, listed]
  simp only [Function.comp_def, hsuffix]
  refine List.map_congr_left fun skill hskill => ?_
  rw [skill.name.stemSuffix_file, if_neg (of_decide_eq_true (List.mem_filter.mp hskill).2)]

theorem listRecords_dir (commands : List HomeCommand) :
    listRecords (dir commands).records = .ok ((listed commands).map (data commands)) := by
  rw [SkillsDir.records, yamlFiles_dir, List.map_map]
  induction listed commands with
  | nil => rfl
  | cons skill rest ih =>
      rw [List.map_cons, Function.comp_apply, SkillsDir.record, listRecords, ih]
      rfl

theorem perm_listed (commands : List HomeCommand) :
    (listed commands).Perm ((skills commands).filter fun skill => skill.name.1 ≠ "") :=
  (List.perm_insertionSort _ _).filter _

theorem nodup_listed (commands : List HomeCommand) :
    ((listed commands).map fun skill => skill.name.1).Nodup := by
  have hnames := (nodup_skills commands).map (f := Subtype.val) Subtype.val_injective
  rw [List.map_map] at hnames
  exact (((perm_listed commands).map _).nodup_iff).mpr (hnames.sublist (List.filter_sublist.map _))

/-- What the menu shows of a skill. -/
def entry (skill : SkillProposal) : SkillEntry where
  name := skill.name.1
  description := firstLine skill.description

/-- The skills that someone has approved, installed or not. -/
def approved (commands : List HomeCommand) : List SkillProposal :=
  (skills commands).filter fun skill =>
    skill.name.1 ≠ "" ∧ SkillMark.approval ∈ marks commands skill.name

def menu (commands : List HomeCommand) : List SkillEntry :=
  ((approved commands).map entry).insertionSort fun a b => a.name ≤ b.name

theorem inMenu_status (marks : List SkillMark) :
    inMenu (some (.str (status marks))) = .ok (SkillMark.approval ∈ marks) := by
  rw [inMenu, status]
  split
  · split <;> simp_all
  · simp_all

theorem menuRecords_data (commands : List HomeCommand) (listed : List SkillProposal) :
    menuRecords (listed.map (data commands)) =
      .ok ((listed.filter fun skill => SkillMark.approval ∈ marks commands skill.name).map
        (data commands)) := by
  induction listed with
  | nil => rfl
  | cons skill rest ih =>
      have hstatus : (data commands skill).get? "status" =
          some (.str (status (marks commands skill.name))) := rfl
      rw [List.map_cons, menuRecords, ih, hstatus, inMenu_status, List.filter_cons]
      simp only [ok_bind]
      split
      · rfl
      · rfl

theorem skillMenu_dir (host : LazyHost) (commands : List HomeCommand) :
    skillMenu host (dir commands).records = .ok (menu commands) := by
  have happroved : ((listed commands).filter fun skill =>
      SkillMark.approval ∈ marks commands skill.name).Perm (approved commands) := by
    refine ((perm_listed commands).filter _).trans (.of_eq ?_)
    rw [List.filter_filter, approved]
    refine List.filter_congr fun skill _ => ?_
    rw [Bool.and_comm, Bool.decide_and]
  have hentries : ((listed commands).filter fun skill =>
      SkillMark.approval ∈ marks commands skill.name).map entry =
        (((listed commands).filter fun skill =>
          SkillMark.approval ∈ marks commands skill.name).map (data commands)).map fun record => {
            name := recordText host record "name"
            description := firstLine (recordText host record "description") } := by
    rw [List.map_map]
    rfl
  rw [skillMenu, listRecords_dir, ok_bind, menuRecords_data, ok_bind, ← hentries]
  refine congrArg Except.ok (insertionSort_perm ?_ (happroved.map entry))
  rw [List.map_map]
  exact (nodup_listed commands).sublist (List.filter_sublist.map _)

theorem expandSkill_dir {skill : SkillProposal} (h : skill ∈ skills commands)
    (hname : skill.name.1 ≠ "") :
    expandSkill (dir commands).records skill.name.1 = .ok (data commands skill) := by
  have hlisted : skill ∈ listed commands :=
    (perm_listed commands).mem_iff.mpr (List.mem_filter.mpr ⟨h, decide_eq_true hname⟩)
  have hfound : ((listed commands).map (data commands)).find? (fun record =>
      (record.get? "name").bind Json.str? = some skill.name.1) = some (data commands skill) := by
    rw [List.find?_map]
    have hname : ∀ other : SkillProposal, decide (((data commands other).get? "name").bind
        Json.str? = some skill.name.1) = decide (other.name.1 = skill.name.1) :=
      fun other => decide_eq_decide.mpr Option.some_inj
    simp only [Function.comp_def, hname]
    rw [find?_key (nodup_listed commands) hlisted, Option.map_some]
  rw [expandSkill, listRecords_dir, ok_bind, hfound]
  rfl

theorem listSkills_dir (commands : List HomeCommand) :
    (dir commands).listSkills = (listed commands).map fun skill =>
      (.str skill.name.1, .str skill.description,
        .str (status (marks commands skill.name))) := by
  rw [SkillsDir.listSkills, yamlFiles_dir, List.filterMap_map, ← List.filterMap_eq_map]
  rfl

theorem exec_installSkill {yaml : YamlHost} {home : ForgeHome} (h : Holds home commands)
    (hkept : ∀ command ∈ commands, command.Kept yaml) (name : SkillName) :
    ((ForgeOS.installSkill yaml name).exec home).1 = .ok {
      status :=
        if name ∉ (skills commands).map SkillProposal.name then "not_found"
        else if status (marks commands name) = "approved" then "installed"
        else "not_approved"
      name := name.1 } := by
  rcases exec_markSkill h hkept name isApproved (by decide : "installed".toList.all isPrintable =
      true) with ⟨hname, hexec⟩ | ⟨skill, hskill, rfl, hexec⟩
  · rw [ForgeOS.installSkill, hexec, if_pos hname]
  · rw [ForgeOS.installSkill, hexec, if_neg (not_not.mpr (List.mem_map_of_mem hskill)),
      isApproved_data]
    split <;> simp_all

end HomeCommand

/-- After any commands of any projects, the menu of the agents has exactly the
skills that have been approved since they were proposed, each opens into what
its first proposal said with the patterns its project had then, the listing
shows how far each has come, and one installs just when it is approved. The
texts of the commands are such as come back from a dump. -/
theorem HomeCommand.menu_after (yaml : YamlHost) (host : LazyHost) (skillsPath : String)
    {commands : List HomeCommand} (hkept : ∀ command ∈ commands, command.Kept yaml) :
    let home := after yaml skillsPath commands
    skillMenu host home.skills.records = .ok (menu commands) ∧
    (∀ skill ∈ skills commands, skill.name.1 ≠ "" →
      expandSkill home.skills.records skill.name.1 = .ok (data commands skill)) ∧
    home.skills.listSkills = ((listed commands).map fun skill =>
      (.str skill.name.1, .str skill.description, .str (status (marks commands skill.name)))) ∧
    ∀ name : SkillName, ((ForgeOS.installSkill yaml name).exec home).1 = .ok {
      status :=
        if name ∉ (skills commands).map SkillProposal.name then "not_found"
        else if status (marks commands name) = "approved" then "installed"
        else "not_approved"
      name := name.1 } := by
  intro home
  have hafter : Holds home commands := holds_after yaml skillsPath hkept
  rw [hafter.skills]
  exact ⟨skillMenu_dir host commands, fun _ => expandSkill_dir, listSkills_dir commands,
    exec_installSkill hafter hkept⟩

/-- A skill that two projects propose after a pattern was noted, and that is
installed once it has been approved; another one is only proposed. -/
def lintCommands : List HomeCommand :=
  let lint : SkillName := ⟨"lint", by decide⟩
  let stamp : ProfileStamp := ⟨"2026-01-01T00:00:00Z", "2026-01-01T00:00:00Z"⟩
  [.addPattern stamp "/a" "make lint",
    .proposeSkill "/a" lint "Lint the code.",
    .installSkill lint,
    .proposeSkill "/b" lint "Lint.",
    .upsertProfile stamp "/a" (some ["python"]) none none,
    .approveSkill lint,
    .proposeSkill "/b" ⟨"docs", by decide⟩ "Write the docs.",
    .installSkill lint]

theorem HomeCommand.menu_after_lintCommands :
    let home := after .folding "/home/.forge/skills" lintCommands
    skillMenu ⟨fun _ => "", fun _ => ""⟩ home.skills.records =
        .ok [⟨"lint", "Lint the code."⟩] ∧
      home.skills.listSkills.map (fun row => row.2.2.str?) = [some "proposed", some "installed"] ∧
      ((ForgeOS.installSkill .folding ⟨"docs", by decide⟩).exec home).1 =
        .ok { status := "not_approved", name := "docs" } := by
  have hkept : ∀ command ∈ lintCommands, command.Kept .folding := by decide +kernel
  obtain ⟨hmenu, -, hlist, hinstall⟩ :=
    menu_after .folding ⟨fun _ => "", fun _ => ""⟩ "/home/.forge/skills" hkept
  refine ⟨hmenu.trans ?_, ?_, (hinstall _).trans ?_⟩
  · exact congrArg Except.ok (by decide +kernel)
  · rw [hlist]
    decide +kernel
  · exact congrArg Except.ok (by decide +kernel)

end ForgeOS
