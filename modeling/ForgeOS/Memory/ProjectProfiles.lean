import ForgeOS.Library.Effect
import ForgeOS.Library.Records
import ForgeOS.Library.Upserts
import ForgeOS.Yaml

/-!
The profiles of projects, `~/.forge/profiles.yaml`: what languages, frameworks
and tools a project uses, and the patterns of actions that repeat in it.
-/

namespace ForgeOS

open Library

structure ProjectProfile where
  projectPath : String
  languages : List String := []
  frameworks : List String := []
  tools : List String := []
  patterns : List String := []
  lastUpdated : String := ""
deriving DecidableEq, Repr

structure ProjectProfileDocument where
  schemaVersion : String := "0.1"
  profiles : List ProjectProfile := []
deriving DecidableEq, Repr

/-- What stands in `profiles.yaml`. -/
abbrev ProfileFile := YamlFile ProjectProfileDocument

/-- The `ValueError` of an unreadable file. -/
inductive ProfileFailure where
  | valueError
deriving DecidableEq, Repr

/-- What the clock returns when a profile is constructed and when it is updated. -/
structure ProfileStamp where
  createdAt : String
  updatedAt : String

/-- What a call has to say about a project. -/
structure ProfileNote where
  stamp : ProfileStamp
  projectPath : String
  languages : List String := []
  frameworks : List String := []
  tools : List String := []
  patterns : List String := []

/-- `load`. Only a `ValueError` gets through to the caller. -/
def loadProfiles : ProfileFile → Except ProfileFailure ProjectProfileDocument
  | .absent => .ok {}
  | .unreadable _ => .error .valueError
  | .invalidYaml _ => .ok {}
  | .blank _ => .ok {}
  | .notMapping _ => .ok {}
  | .invalidDocument _ _ => .ok {}
  | .decoded document => .ok document

def ProjectProfile.reread (yaml : YamlHost) (profile : ProjectProfile) : ProjectProfile where
  projectPath := yaml.text profile.projectPath
  languages := profile.languages.map yaml.text
  frameworks := profile.frameworks.map yaml.text
  tools := profile.tools.map yaml.text
  patterns := profile.patterns.map yaml.text
  lastUpdated := yaml.text profile.lastUpdated

/-- The document that is loaded where this one has been dumped. -/
def ProjectProfileDocument.reread (yaml : YamlHost) (document : ProjectProfileDocument) :
    ProjectProfileDocument where
  schemaVersion := yaml.text document.schemaVersion
  profiles := document.profiles.map (ProjectProfile.reread yaml)

/-- `save`. The file stands for what is loaded from it. -/
def saveProfiles (yaml : YamlHost) (document : ProjectProfileDocument) :
    Effect ProfileFile ProfileFailure Unit :=
  modify fun _ => .decoded (document.reread yaml)

def getProfile (file : ProfileFile) (projectPath : String) :
    Except ProfileFailure (Option ProjectProfile) := do
  let document ← loadProfiles file
  return document.profiles.find? fun profile => profile.projectPath = projectPath

namespace ProfileNote

/-- The profile of a project that has none yet. -/
def newProfile (note : ProfileNote) : ProjectProfile where
  projectPath := note.projectPath
  lastUpdated := note.stamp.createdAt

/-- The assignments to a profile. -/
def change (note : ProfileNote) (profile : ProjectProfile) : ProjectProfile :=
  { profile with
    languages := appendNew profile.languages note.languages
    frameworks := appendNew profile.frameworks note.frameworks
    tools := appendNew profile.tools note.tools
    patterns := appendNew profile.patterns note.patterns
    lastUpdated := note.stamp.updatedAt }

/-- What is common to the two calls below. -/
def perform (yaml : YamlHost) (note : ProfileNote) :
    Effect ProfileFile ProfileFailure ProjectProfile := do
  let document ← Effect.ofExcept (loadProfiles (← get))
  let profile := (document.profiles.find? fun profile =>
    profile.projectPath = note.projectPath).getD note.newProfile
  saveProfiles yaml { document with
    profiles := upsert ProjectProfile.projectPath note.projectPath note.newProfile note.change
      document.profiles }
  return note.change profile

end ProfileNote

/-- What `upsert_profile` adds. A list that is not given adds nothing. -/
def ProfileNote.ofLists (stamp : ProfileStamp) (projectPath : String)
    (languages frameworks tools : Option (List String)) : ProfileNote where
  stamp := stamp
  projectPath := projectPath
  languages := languages.getD []
  frameworks := frameworks.getD []
  tools := tools.getD []

/-- What `add_pattern` adds. -/
def ProfileNote.ofPattern (stamp : ProfileStamp) (projectPath pattern : String) : ProfileNote where
  stamp := stamp
  projectPath := projectPath
  patterns := [pattern]

def upsertProfile (yaml : YamlHost) (stamp : ProfileStamp) (projectPath : String)
    (languages frameworks tools : Option (List String)) :
    Effect ProfileFile ProfileFailure ProjectProfile :=
  (ProfileNote.ofLists stamp projectPath languages frameworks tools).perform yaml

def addPattern (yaml : YamlHost) (stamp : ProfileStamp) (projectPath pattern : String) :
    Effect ProfileFile ProfileFailure Unit := do
  let _ ← (ProfileNote.ofPattern stamp projectPath pattern).perform yaml
  return ()

/-! ### What the calls come to -/

namespace ProfileNote

/-- The profiles that some calls make of none. -/
def profiles (notes : List ProfileNote) : List ProjectProfile :=
  upserts ProjectProfile.projectPath projectPath newProfile change notes

/-- The calls about a project. -/
def about (notes : List ProfileNote) (projectPath : String) : List ProfileNote :=
  notes.filter fun note => note.projectPath = projectPath

/-- What the calls about a project say, each thing once. -/
def profile (notes : List ProfileNote) (projectPath : String) : ProjectProfile where
  projectPath := projectPath
  languages := firsts id ((about notes projectPath).flatMap languages)
  frameworks := firsts id ((about notes projectPath).flatMap frameworks)
  tools := firsts id ((about notes projectPath).flatMap tools)
  patterns := firsts id ((about notes projectPath).flatMap patterns)
  lastUpdated := (about notes projectPath).getLast?.elim "" fun note => note.stamp.updatedAt

theorem exec_perform {file : ProfileFile} {document : ProjectProfileDocument}
    (hload : loadProfiles file = .ok document) (yaml : YamlHost) (note : ProfileNote) :
    (note.perform yaml).exec file =
      (.ok (note.change ((document.profiles.find? fun profile =>
        profile.projectPath = note.projectPath).getD note.newProfile)),
      .decoded (ProjectProfileDocument.reread yaml { document with
        profiles := upsert ProjectProfile.projectPath note.projectPath note.newProfile note.change
          document.profiles })) := by
  simp only [perform, saveProfiles, Effect.exec_bind, Effect.exec_get, Effect.exec_ofExcept,
    hload, Effect.exec_modify, Effect.exec_pure]

theorem profiles_snoc (notes : List ProfileNote) (note : ProfileNote) :
    profiles (notes ++ [note]) =
      upsert ProjectProfile.projectPath note.projectPath note.newProfile note.change
        (profiles notes) := by
  rw [profiles, upserts, List.foldl_concat]
  rfl

/-- One after the other, the calls about a project add what is new in each. -/
theorem foldl_change (notes : List ProfileNote) (projectPath createdAt : String) :
    notes.foldl (fun profile note => note.change profile) {
        projectPath := projectPath, lastUpdated := createdAt } =
      { projectPath := projectPath
        languages := firsts id (notes.flatMap languages)
        frameworks := firsts id (notes.flatMap frameworks)
        tools := firsts id (notes.flatMap tools)
        patterns := firsts id (notes.flatMap patterns)
        lastUpdated := notes.getLast?.elim createdAt fun note => note.stamp.updatedAt } := by
  induction notes using List.reverseRecOn with
  | nil => rfl
  | append_singleton notes note ih =>
      rw [List.foldl_concat, ih, change]
      simp only [appendNew_firsts, List.flatMap_append, List.flatMap_singleton,
        List.getLast?_concat, Option.elim_some]

/-- After any calls there is one profile for each project they are about, in the
order of the first call about each. -/
theorem profiles_eq (notes : List ProfileNote) :
    profiles notes =
      (firsts projectPath notes).map fun first => profile notes first.projectPath := by
  have hnew : ∀ note : ProfileNote, note.newProfile.projectPath = note.projectPath := fun _ => rfl
  have hchange : ∀ (note : ProfileNote) profile,
      (note.change profile).projectPath = profile.projectPath := fun _ _ => rfl
  rw [profiles, upserts_eq hnew hchange]
  refine List.map_congr_left fun first hfirst => ?_
  have hmem : first ∈ about notes first.projectPath :=
    List.mem_filter.mpr ⟨(firstsFrom_sublist [] notes).subset hfirst, decide_eq_true rfl⟩
  have hlast := List.getLast?_eq_some_getLast (List.ne_nil_of_mem hmem)
  rw [gathered, newProfile, foldl_change, profile, ← about, hlast]
  rfl

theorem nodup_profiles (notes : List ProfileNote) :
    ((profiles notes).map ProjectProfile.projectPath).Nodup := by
  rw [profiles_eq, List.map_map]
  exact nodup_keys_firstsFrom [] notes

/-- A project has its profile once a call has been about it. -/
theorem find?_profiles (notes : List ProfileNote) (projectPath : String) :
    ((profiles notes).find? fun profile => profile.projectPath = projectPath) =
      if projectPath ∈ notes.map ProfileNote.projectPath then some (profile notes projectPath)
      else none := by
  split
  · rename_i hmem
    obtain ⟨first, hfirst, rfl⟩ := List.mem_map.mp (mem_keys_firsts.mpr hmem)
    have hprofile : profile notes first.projectPath ∈ profiles notes := by
      rw [profiles_eq]
      exact List.mem_map_of_mem hfirst
    exact find?_key (nodup_profiles notes) hprofile
  · rename_i hnot
    rw [profiles_eq, List.find?_eq_none]
    intro found hfound heq
    obtain ⟨first, hfirst, rfl⟩ := List.mem_map.mp hfound
    rw [decide_eq_true_eq] at heq
    refine hnot (List.mem_map.mpr ⟨first, ?_, heq⟩)
    exact (firstsFrom_sublist [] notes).subset hfirst

/-- The texts that a call writes. -/
def texts (note : ProfileNote) : List String :=
  note.projectPath :: note.stamp.updatedAt ::
    (note.languages ++ note.frameworks ++ note.tools ++ note.patterns)

/-- They come back from a dump. -/
def Kept (yaml : YamlHost) (note : ProfileNote) : Prop :=
  ∀ value ∈ note.texts, yaml.text value = value

/-- What is gathered of texts that come back does so. -/
theorem map_text_firsts {yaml : YamlHost} {notes : List ProfileNote}
    (h : ∀ note ∈ notes, note.Kept yaml) {part : ProfileNote → List String}
    (hpart : ∀ note, part note ⊆ note.texts) (projectPath : String) :
    (firsts id ((about notes projectPath).flatMap part)).map yaml.text =
      firsts id ((about notes projectPath).flatMap part) := by
  refine (List.map_congr_left fun value hvalue => ?_).trans (List.map_id _)
  have hmem := (firstsFrom_sublist [] ((about notes projectPath).flatMap part)).subset hvalue
  obtain ⟨note, hnote, hvalue⟩ := List.mem_flatMap.mp hmem
  exact h note (List.mem_of_mem_filter hnote) value (hpart note hvalue)

/-- The profiles that calls of this kind make are loaded as they were dumped. -/
theorem reread_profiles {yaml : YamlHost} {notes : List ProfileNote}
    (h : ∀ note ∈ notes, note.Kept yaml) :
    ProjectProfileDocument.reread yaml { profiles := profiles notes } =
      { profiles := profiles notes } := by
  have hprofiles : (profiles notes).map (ProjectProfile.reread yaml) = profiles notes := by
    rw [profiles_eq, List.map_map]
    refine List.map_congr_left fun first hfirst => ?_
    have hnote := (firstsFrom_sublist [] notes).subset hfirst
    have hlast : yaml.text (profile notes first.projectPath).lastUpdated =
        (profile notes first.projectPath).lastUpdated := by
      rw [profile]
      dsimp only
      cases hlast : (about notes first.projectPath).getLast? with
      | none => exact yaml.text_printable _ (by decide)
      | some last =>
          exact h last (List.mem_of_mem_filter (List.mem_of_getLast? hlast)) _ (by simp [texts])
    rw [Function.comp_apply, ProjectProfile.reread, hlast]
    have hpath : yaml.text first.projectPath = first.projectPath :=
      h first hnote _ (by simp [texts])
    have hlanguages : ∀ note, languages note ⊆ texts note := fun note value hvalue => by
      simp [texts, hvalue]
    have hframeworks : ∀ note, frameworks note ⊆ texts note := fun note value hvalue => by
      simp [texts, hvalue]
    have htools : ∀ note, tools note ⊆ texts note := fun note value hvalue => by
      simp [texts, hvalue]
    have hpatterns : ∀ note, patterns note ⊆ texts note := fun note value hvalue => by
      simp [texts, hvalue]
    simp only [profile, hpath, map_text_firsts h hlanguages, map_text_firsts h hframeworks,
      map_text_firsts h htools, map_text_firsts h hpatterns]
  have hversion : yaml.text "0.1" = "0.1" := yaml.text_printable _ (by decide)
  rw [ProjectProfileDocument.reread, hprofiles, hversion]

end ProfileNote

end ForgeOS
