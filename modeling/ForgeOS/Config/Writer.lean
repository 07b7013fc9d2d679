import ForgeOS.Config.Loader
import ForgeOS.Floats
import ForgeOS.Library.Folds
import Mathlib.Data.Rat.Encodable
import Mathlib.Logic.Equiv.List

/-!
Writing `.forge/config.yaml`. A configuration is written as plain data, with its
extra fields behind those that are checked, and what has been written is loaded
as the configuration it was.
-/

namespace ForgeOS

open Library

namespace Config

/-- The settings of a configuration with the extra fields of its models. What
nobody checks is of the type `α`. -/
structure Settings (α : Type) where
  schemaVersion : String
  projectName : String
  rootPolicy : String
  projectExtra : Dict String α
  profile : ProfileName
  defaultAdapter : String
  adapters : Dict String (Dict String α)
  securityProfile : String
  securityExtra : Dict String α
  hooksEnabled : Bool
  hooksExtra : Dict String α
  features : Dict String α
  extra : Dict String α

def ProfileName.value : ProfileName → String
  | .minimal => "minimal"
  | .standard => "standard"
  | .expert => "expert"

theorem ProfileName.ofValue?_value (profile : ProfileName) :
    ForgeOS.ProfileName.ofValue? (ProfileName.value profile) = some profile := by
  cases profile <;> rfl

/-- The fields of a model under other names than those of its checks. -/
def extraFields (checked : List String) (raw : YamlMapping) : Dict String YamlValue :=
  raw.filterMap fun entry =>
    match entry.1 with
    | .str key => if key ∈ checked then none else some (key, entry.2)
    | _ => none

/-- A nested mapping; a field that is not there has none. -/
def nested (raw : YamlMapping) (key : String) : YamlMapping :=
  match Dict.get? raw (.str key) with
  | some (.map entries) => entries
  | _ => []

def configFields : List String :=
  ["schema_version", "project", "profile", "default_adapter", "adapters", "security", "hooks",
    "features"]

namespace Settings

variable {α β : Type}

/-- A configuration with the extra fields of the mapping it was read from. -/
def ofRaw (raw : YamlMapping) (config : ForgeConfig) : Settings YamlValue where
  schemaVersion := config.schemaVersion
  projectName := config.project.name
  rootPolicy := config.project.rootPolicy
  projectExtra := extraFields ["name", "root_policy"] (nested raw "project")
  profile := config.profile
  defaultAdapter := config.defaultAdapter
  adapters := config.adapters
  securityProfile := config.security.profile
  securityExtra := extraFields ["profile"] (nested raw "security")
  hooksEnabled := config.hooks.enabled
  hooksExtra := extraFields ["enabled"] (nested raw "hooks")
  features := config.features
  extra := extraFields configFields raw

def config (settings : Settings YamlValue) : ForgeConfig where
  schemaVersion := settings.schemaVersion
  project := ⟨settings.projectName, settings.rootPolicy⟩
  profile := settings.profile
  defaultAdapter := settings.defaultAdapter
  adapters := settings.adapters
  security := ⟨settings.securityProfile⟩
  hooks := ⟨settings.hooksEnabled⟩
  features := settings.features

/-- Do something to every value that nobody checks. -/
def map (f : α → β) (settings : Settings α) : Settings β where
  schemaVersion := settings.schemaVersion
  projectName := settings.projectName
  rootPolicy := settings.rootPolicy
  projectExtra := settings.projectExtra.map fun entry => (entry.1, f entry.2)
  profile := settings.profile
  defaultAdapter := settings.defaultAdapter
  adapters := settings.adapters.map fun row => (row.1, row.2.map fun entry => (entry.1, f entry.2))
  securityProfile := settings.securityProfile
  securityExtra := settings.securityExtra.map fun entry => (entry.1, f entry.2)
  hooksEnabled := settings.hooksEnabled
  hooksExtra := settings.hooksExtra.map fun entry => (entry.1, f entry.2)
  features := settings.features.map fun entry => (entry.1, f entry.2)
  extra := settings.extra.map fun entry => (entry.1, f entry.2)

/-- The dictionary that is made of plain settings, in the order of the fields. -/
def data (settings : Settings Json) : JsonObject := [
  ("schema_version", .str settings.schemaVersion),
  ("project", .obj ([("name", .str settings.projectName),
    ("root_policy", .str settings.rootPolicy)] ++ settings.projectExtra)),
  ("profile", .str (ProfileName.value settings.profile)),
  ("default_adapter", .str settings.defaultAdapter),
  ("adapters", .obj (settings.adapters.map fun row => (row.1, .obj row.2))),
  ("security", .obj (("profile", .str settings.securityProfile) :: settings.securityExtra)),
  ("hooks", .obj (("enabled", .bool settings.hooksEnabled) :: settings.hooksExtra)),
  ("features", .obj settings.features)] ++ settings.extra

end Settings

/-! ### The host -/

/-- An exception of pydantic's serializer. -/
structure SerializationError where
  message : String
deriving DecidableEq, Repr

/-- What reading and writing take from third-party code. -/
structure ConfigCodec extends ConfigHost where
  /-- `yaml.safe_dump(data, sort_keys=False)`. -/
  safeDump : JsonObject → String
  /-- What `model_dump(mode="json")` makes of a value that nobody checks. -/
  dumpAny : YamlValue → Except SerializationError Json
  /-- `bool(value)`. -/
  truthy : YamlValue → Bool

/-- It is no infinite float and not NaN. -/
def isFinite : YamlValue → Bool
  | .float value => value.isFinite
  | _ => true

/-- How that code is documented to behave. What has been dumped is loaded as it
was, and escapes whatever is no printable ASCII. Pydantic dumps finite plain data
as it is, and what it has made of any data again as that; and it makes nothing
true or false that was not so before, unless it is no finite number. -/
structure ConfigCodec.Lawful (codec : ConfigCodec) : Prop where
  safeLoad_safeDump : ∀ data,
    codec.safeLoad (codec.safeDump data) = .ok (.map (Json.toYamlEntries data))
  no_return : ∀ data, '\r' ∉ (codec.safeDump data).toList
  dumpAny_toYaml : ∀ value : Json, value.allFinite = true → codec.dumpAny value.toYaml = .ok value
  dumpAny_dumped : ∀ {value plain}, codec.dumpAny value = .ok plain →
    codec.dumpAny plain.toYaml = .ok plain
  truthy_toYaml : ∀ value : Json, codec.truthy value.toYaml = value.truthy
  truthy_dumpAny : ∀ {value plain}, isFinite value = true → codec.dumpAny value = .ok plain →
    plain.truthy = codec.truthy value

section Dumping

variable (codec : ConfigCodec)

def dumpValues : Dict String YamlValue → Except SerializationError JsonObject :=
  Dict.traverse codec.dumpAny

/-- The plain settings that `model_dump(mode="json")` makes. -/
def Settings.plain (settings : Settings YamlValue) : Except SerializationError (Settings Json) := do
  let projectExtra ← dumpValues codec settings.projectExtra
  let adapters ← Dict.traverse (dumpValues codec) settings.adapters
  let securityExtra ← dumpValues codec settings.securityExtra
  let hooksExtra ← dumpValues codec settings.hooksExtra
  let features ← dumpValues codec settings.features
  let extra ← dumpValues codec settings.extra
  return { settings with projectExtra, adapters, securityExtra, hooksExtra, features, extra }

def Settings.modelDump (settings : Settings YamlValue) : Except SerializationError JsonObject :=
  (settings.plain codec).map Settings.data

/-- `load_config(path)`, with the extra fields. -/
def loadSettings (path : String) (file : ConfigBytes) :
    Except ConfigException (Settings YamlValue) := do
  let raw ← readYamlMapping codec.toConfigHost path file
  match modelValidate raw with
  | .ok config => return .ofRaw raw config
  | .error (.problems problems) => throw (.config (validationText codec.toConfigHost problems))
  | .error (.schema error) => throw (.schema error.message)

/-- What `save_config` raises. -/
inductive SaveError where
  | serialization (error : SerializationError)
  /-- `config.loader.ConfigError` -/
  | config (message : String)
deriving DecidableEq, Repr

/-- `save_config(path, config)`. The new file takes the place of the old one, or
an `OSError` of the disk leaves it there. -/
def saveConfig (path : String) (disk : Except String Unit) (settings : Settings YamlValue) :
    Effect ConfigBytes SaveError Unit := do
  let data ← Effect.ofExcept ((settings.modelDump codec).mapError .serialization)
  match disk with
  | .ok () => set (ConfigBytes.content (encodeUtf8 (codec.safeDump data)))
  | .error error => throw (.config s!"Could not write config file: {path}: {error}")

end Dumping

/-- The loaded configuration is that of its settings. -/
theorem loadConfig_eq (codec : ConfigCodec) (path : String) (file : ConfigBytes) :
    loadConfig codec.toConfigHost path file =
      (loadSettings codec path file).map Settings.config := by
  unfold loadConfig loadSettings
  cases readYamlMapping codec.toConfigHost path file with
  | error error => rfl
  | ok raw =>
      simp only [ok_bind]
      rcases modelValidate raw with (problems | error) | config
      · rfl
      · rfl
      · rfl

end Config

/-! ### Checks that pass -/

namespace Checks

variable {α β : Type}

/-- A check that ends with a value and has nothing to complain about. -/
def Clears (check : Checks α) (a : α) : Prop :=
  ∀ problems, check.exec problems = (.ok a, problems)

theorem clears_pure (a : α) : Clears (pure a) a := fun _ => rfl

theorem Clears.bind {check : Checks α} {a : α} (h : Clears check a) {next : α → Checks β} {b : β}
    (hnext : Clears (next a) b) : Clears (check >>= next) b := by
  intro problems
  rw [Effect.exec_bind_ok _ (h problems)]
  exact hnext problems

theorem clears_str (loc : List String) (text : String) :
    Clears (str loc (.str text)) (some text) := clears_pure _

theorem clears_present {text : String} (h : pyStrip text ≠ "") (message : String)
    (loc : List String) : Clears (present message loc (.str text)) (some text) := by
  refine (clears_str loc text).bind ?_
  dsimp only
  rw [if_neg h]
  exact clears_pure _

theorem clears_fieldOr {raw : YamlMapping} {key : String} {value : YamlValue}
    (h : Dict.get? raw (.str key) = some value) {loc : List String} {default : α}
    {check : List String → YamlValue → Checks (Option α)} {a : Option α}
    (hcheck : Clears (check (loc ++ [key]) value) a) :
    Clears (fieldOr raw loc key default check) a := by
  rw [fieldOr, h]
  exact hcheck

theorem clears_field {raw : YamlMapping} {key : String} {value : YamlValue}
    (h : Dict.get? raw (.str key) = some value) {loc : List String}
    {check : List String → YamlValue → Checks (Option α)} {a : Option α}
    (hcheck : Clears (check (loc ++ [key]) value) a) : Clears (field raw loc key check) a := by
  rw [field, h]
  exact hcheck

/-- All keys of plain data are strings. -/
theorem clears_extraKeys (loc : List String) (entries : JsonObject) :
    Clears (extraKeys loc (Json.toYamlEntries entries)) () := by
  intro problems
  rw [extraKeys, Effect.exec_modify, toYamlEntries_eq, List.filterMap_map]
  refine congrArg (Prod.mk _) (Eq.trans (congrArg (problems ++ ·) ?_) (List.append_nil problems))
  exact List.filterMap_eq_nil_iff.mpr fun _ _ => rfl

/-- A dictionary without repeated keys passes with all its entries. -/
theorem clears_strKeyed {check : List String → YamlValue → Checks (Option α)} (make : β → Json)
    {read : β → α} {rows : Dict String β} (hkeys : (rows.map Prod.fst).Nodup)
    (h : ∀ row ∈ rows, ∀ loc, Clears (check loc (make row.2).toYaml) (some (read row.2)))
    (loc : List String) :
    Clears (strKeyed loc check (Json.toYamlEntries (rows.map fun row => (row.1, make row.2))))
      (some (rows.map fun row => (row.1, read row.2))) := by
  induction rows with
  | nil => exact clears_pure _
  | cons row rest ih =>
      rw [List.map_cons, List.nodup_cons] at hkeys
      rw [List.forall_mem_cons] at h
      have hsplit : Dict.update [(row.1, read row.2)]
          (rest.map fun row => (row.1, read row.2)) =
            (row.1, read row.2) :: rest.map fun row => (row.1, read row.2) := by
        refine Dict.update_of_nodup ?_
        rw [List.map_append, List.map_map]
        exact List.nodup_cons.mpr hkeys
      have hname : Clears (ofOption (loc ++ ["[key]"]) .stringType (YamlKey.str row.1).laxStr?)
          (some row.1) := clears_pure _
      refine hname.bind ((h.1 loc).bind ((ih hkeys.2 h.2).bind ?_))
      rw [List.map_cons, ← hsplit]
      exact clears_pure _

theorem clears_anyDict {entries : JsonObject} (hkeys : (entries.map Prod.fst).Nodup)
    (loc : List String) :
    Clears (anyDict loc (.map (Json.toYamlEntries entries)))
      (some (entries.map fun entry => (entry.1, entry.2.toYaml))) := by
  have hany : ∀ entry ∈ entries, ∀ loc,
      Clears (any loc (id entry.2).toYaml) (some entry.2.toYaml) :=
    fun _ _ _ => clears_pure _
  have hentries := clears_strKeyed id hkeys hany loc
  rw [List.map_id''] at hentries
  · exact (clears_pure (some (Json.toYamlEntries entries))).bind hentries
  · exact fun _ => rfl

/-- Whatever a check lets through has a property. -/
def Ensures (check : Checks (Option α)) (P : α → Prop) : Prop :=
  ∀ problems a problems', check.exec problems = (.ok (some a), problems') → P a

section Ensures

variable {P : α → Prop} {Q : β → Prop}

theorem ensures_pure {found : Option α} (h : ∀ a, found = some a → P a) :
    Ensures (pure found) P := by
  intro problems a problems' hexec
  obtain ⟨hfound, -⟩ := Prod.mk.inj hexec
  exact h a (Except.ok.inj hfound)

theorem ensures_report (loc : List String) (kind : ProblemKind) :
    Ensures (report loc kind : Checks (Option α)) P := by
  intro problems a problems' hexec
  cases hexec

theorem Ensures.bind {check : Checks (Option α)} (h : Ensures check P)
    {next : Option α → Checks (Option β)}
    (hnext : ∀ found : Option α, (∀ a, found = some a → P a) → Ensures (next found) Q) :
    Ensures (check >>= next) Q := by
  intro problems b problems' hexec
  obtain ⟨found, middle, hcheck, hrest⟩ := Effect.ok_of_exec_bind hexec
  refine hnext found ?_ middle b problems' hrest
  rintro a rfl
  exact h problems a middle hcheck

theorem ensures_bind {γ : Type} {check : Checks γ} {next : γ → Checks (Option β)}
    (hnext : ∀ c, Ensures (next c) Q) : Ensures (check >>= next) Q := by
  intro problems b problems' hexec
  obtain ⟨c, middle, -, hrest⟩ := Effect.ok_of_exec_bind hexec
  exact hnext c middle b problems' hrest

theorem ensures_true (check : Checks (Option α)) : Ensures check fun _ => True :=
  fun _ _ _ _ => trivial

theorem ensures_fieldOr {default : α} (hdefault : P default) (raw : YamlMapping)
    (loc : List String) (key : String) {check : List String → YamlValue → Checks (Option α)}
    (h : ∀ loc value, Ensures (check loc value) P) :
    Ensures (fieldOr raw loc key default check) P := by
  unfold fieldOr
  split
  · exact h _ _
  · refine ensures_pure fun a ha => ?_
    obtain rfl := Option.some.inj ha
    exact hdefault

theorem ensures_field (raw : YamlMapping) (loc : List String) (key : String)
    {check : List String → YamlValue → Checks (Option α)}
    (h : ∀ loc value, Ensures (check loc value) P) : Ensures (field raw loc key check) P := by
  unfold field
  split
  · exact h _ _
  · exact ensures_report _ _

end Ensures

theorem ensures_present (message : String) (loc : List String) (value : YamlValue) :
    Ensures (present message loc value) fun text => pyStrip text ≠ "" := by
  refine (ensures_true _).bind fun found _ => ?_
  cases found with
  | none => exact ensures_pure nofun
  | some text =>
      dsimp only
      split
      · intro problems a problems' hexec
        cases hexec
      · rename_i hpresent
        refine ensures_pure fun a ha => ?_
        obtain rfl := Option.some.inj ha
        exact hpresent

/-- The keys are told apart, whatever they were. -/
theorem ensures_strKeyed {P : α → Prop} {check : List String → YamlValue → Checks (Option α)}
    (h : ∀ loc value, Ensures (check loc value) P) (loc : List String)
    (entries : List (YamlKey × YamlValue)) :
    Ensures (strKeyed loc check entries) fun dict =>
      (dict.map Prod.fst).Nodup ∧ ∀ row ∈ dict, P row.2 := by
  induction entries with
  | nil =>
      refine ensures_pure fun dict hdict => ?_
      obtain rfl := Option.some.inj hdict
      exact ⟨List.nodup_nil, nofun⟩
  | cons entry rest ih =>
      refine (ensures_true _).bind fun name _ => (h _ _).bind fun checked hchecked =>
        ih.bind fun others hothers => ensures_pure fun dict hdict => ?_
      cases name with
      | none => cases hdict
      | some name =>
          cases checked with
          | none => cases hdict
          | some value =>
              cases others with
              | none => cases hdict
              | some others =>
                  obtain rfl := Option.some.inj hdict
                  obtain ⟨-, hrows⟩ := hothers others rfl
                  refine ⟨Dict.nodup_keys_update (d := [(name, value)]) (by simp) others, ?_⟩
                  intro row hrow
                  rcases Dict.mem_update hrow with hfirst | hother
                  · obtain rfl := List.mem_singleton.mp hfirst
                    exact hchecked value rfl
                  · exact hrows row hother

theorem ensures_anyDict (loc : List String) (value : YamlValue) :
    Ensures (anyDict loc value) fun dict => (dict.map Prod.fst).Nodup := by
  refine (ensures_true _).bind fun entries _ => ?_
  cases entries with
  | none => exact ensures_pure nofun
  | some entries =>
      intro problems dict problems' hexec
      exact (ensures_strKeyed (fun _ _ => ensures_true _) loc entries _ _ _ hexec).1

end Checks

namespace Config

open Checks

namespace Settings

variable {α : Type}

/-- What holds of the settings of every configuration that has been loaded. -/
structure Valid (settings : Settings α) : Prop where
  schemaVersion : pyStrip settings.schemaVersion ≠ ""
  projectName : settings.projectName ≠ ""
  defaultAdapter : pyStrip settings.defaultAdapter ≠ ""
  adapters : (settings.adapters.map Prod.fst).Nodup
  rows : ∀ row ∈ settings.adapters, (row.2.map Prod.fst).Nodup
  features : (settings.features.map Prod.fst).Nodup
  projectExtra : ∀ key ∈ settings.projectExtra.map Prod.fst, key ∉ ["name", "root_policy"]
  securityExtra : ∀ key ∈ settings.securityExtra.map Prod.fst, key ∉ ["profile"]
  hooksExtra : ∀ key ∈ settings.hooksExtra.map Prod.fst, key ∉ ["enabled"]
  extra : ∀ key ∈ settings.extra.map Prod.fst, key ∉ configFields

/-- Valid plain settings pass the checks as they are. -/
theorem clears_checkConfig {settings : Settings Json} (h : settings.Valid) :
    Clears (checkConfig (Json.toYamlEntries settings.data))
      (some (settings.map Json.toYaml).config) := by
  have hproject : Clears (checkProject ([] ++ ["project"]) (.map (Json.toYamlEntries
      ([("name", .str settings.projectName), ("root_policy", .str settings.rootPolicy)] ++
        settings.projectExtra)))) (some ⟨settings.projectName, settings.rootPolicy⟩) := by
    have hname (loc : List String) : Clears (checkName loc (.str settings.projectName))
        (some settings.projectName) := by
      refine (clears_str loc _).bind ?_
      dsimp only
      rw [if_neg h.projectName]
      exact clears_pure _
    exact (clears_pure (some _)).bind ((clears_field rfl (hname _)).bind
      ((clears_fieldOr rfl (clears_str _ _)).bind
        ((clears_extraKeys _ _).bind (clears_pure _))))
  have hprofile : Clears (checkProfile ([] ++ ["profile"])
      (.str (ProfileName.value settings.profile))) (some settings.profile) := by
    rw [checkProfile, ProfileName.ofValue?_value]
    exact clears_pure _
  have hadapters : Clears (checkAdapters ([] ++ ["adapters"]) (.map (Json.toYamlEntries
      (settings.adapters.map fun row => (row.1, .obj row.2)))))
        (some (settings.map Json.toYaml).adapters) := by
    have hrows : ∀ row ∈ settings.adapters, ∀ loc, Clears (anyDict loc (Json.obj row.2).toYaml)
        (some (row.2.map fun entry => (entry.1, entry.2.toYaml))) :=
      fun row hrow => clears_anyDict (h.rows row hrow)
    exact (clears_pure (some _)).bind
      (clears_strKeyed Json.obj h.adapters hrows ([] ++ ["adapters"]))
  have hsecurity : Clears (checkSecurity ([] ++ ["security"]) (.map (Json.toYamlEntries
      (("profile", .str settings.securityProfile) :: settings.securityExtra))))
        (some ⟨settings.securityProfile⟩) :=
    (clears_pure (some _)).bind ((clears_fieldOr rfl (clears_str _ _)).bind
      ((clears_extraKeys _ _).bind (clears_pure _)))
  have hhooks : Clears (checkHooks ([] ++ ["hooks"]) (.map (Json.toYamlEntries
      (("enabled", .bool settings.hooksEnabled) :: settings.hooksExtra))))
        (some ⟨settings.hooksEnabled⟩) :=
    (clears_pure (some _)).bind ((clears_fieldOr rfl (clears_pure (some _))).bind
      ((clears_extraKeys _ _).bind (clears_pure _)))
  exact (clears_fieldOr rfl (clears_present h.schemaVersion _ _)).bind
    ((clears_field rfl hproject).bind ((clears_fieldOr rfl hprofile).bind
      ((clears_fieldOr rfl (clears_present h.defaultAdapter _ _)).bind
        ((clears_fieldOr rfl hadapters).bind ((clears_fieldOr rfl hsecurity).bind
          ((clears_fieldOr rfl hhooks).bind
            ((clears_fieldOr rfl (clears_anyDict h.features _)).bind
              ((clears_extraKeys _ _).bind (clears_pure _)))))))))

theorem modelValidate_data {settings : Settings Json} (h : settings.Valid) :
    modelValidate (Json.toYamlEntries settings.data) = .ok (settings.map Json.toYaml).config := by
  rw [modelValidate, clears_checkConfig h]

/-- The extra fields of plain data are those behind the fields that are checked. -/
theorem extraFields_append {checked : List String} {fields extra : JsonObject}
    (hfields : ∀ key ∈ fields.map Prod.fst, key ∈ checked)
    (hextra : ∀ key ∈ extra.map Prod.fst, key ∉ checked) :
    extraFields checked (Json.toYamlEntries (fields ++ extra)) =
      extra.map fun entry => (entry.1, entry.2.toYaml) := by
  have hnone : extraFields checked (Json.toYamlEntries fields) = [] := by
    rw [extraFields, toYamlEntries_eq, List.filterMap_map]
    exact List.filterMap_eq_nil_iff.mpr fun entry hentry =>
      if_pos (hfields entry.1 (List.mem_map_of_mem hentry))
  have hall : extraFields checked (Json.toYamlEntries extra) =
      extra.map fun entry => (entry.1, entry.2.toYaml) := by
    rw [extraFields, toYamlEntries_eq, List.filterMap_map, ← List.filterMap_eq_map]
    exact List.filterMap_congr fun entry hentry =>
      if_neg (hextra entry.1 (List.mem_map_of_mem hentry))
  rw [toYamlEntries_eq, List.map_append, ← toYamlEntries_eq, ← toYamlEntries_eq, extraFields,
    List.filterMap_append]
  exact (congrArg (· ++ _) hnone).trans hall

theorem ofRaw_data {settings : Settings Json} (h : settings.Valid) :
    ofRaw (Json.toYamlEntries settings.data) (settings.map Json.toYaml).config =
      settings.map Json.toYaml := by
  have hproject : extraFields ["name", "root_policy"]
      (nested (Json.toYamlEntries settings.data) "project") =
        (settings.map Json.toYaml).projectExtra :=
    @extraFields_append _ [("name", .str settings.projectName),
      ("root_policy", .str settings.rootPolicy)] _ (by simp) h.projectExtra
  have hsecurity : extraFields ["profile"]
      (nested (Json.toYamlEntries settings.data) "security") =
        (settings.map Json.toYaml).securityExtra :=
    @extraFields_append _ [("profile", .str settings.securityProfile)] _ (by simp)
      h.securityExtra
  have hhooks : extraFields ["enabled"] (nested (Json.toYamlEntries settings.data) "hooks") =
      (settings.map Json.toYaml).hooksExtra :=
    @extraFields_append _ [("enabled", .bool settings.hooksEnabled)] _ (by simp) h.hooksExtra
  have hextra : extraFields configFields (Json.toYamlEntries settings.data) =
      (settings.map Json.toYaml).extra :=
    extraFields_append (fun _ hkey => hkey) h.extra
  rw [ofRaw, hproject, hsecurity, hhooks, hextra]
  rfl

theorem mem_extraFields {checked : List String} {raw : YamlMapping} {key : String}
    (h : key ∈ (extraFields checked raw).map Prod.fst) : key ∉ checked := by
  obtain ⟨entry, hentry, rfl⟩ := List.mem_map.mp h
  obtain ⟨field, -, hfield⟩ := List.mem_filterMap.mp hentry
  split at hfield
  · split at hfield
    · cases hfield
    · rename_i hother
      obtain rfl := Option.some.inj hfield
      exact hother
  · cases hfield

theorem ensures_checkProject (loc : List String) (value : YamlValue) :
    Ensures (checkProject loc value) fun project => project.name ≠ "" := by
  have hchecked (loc : List String) (value : YamlValue) :
      Ensures (checkName loc value) fun name => name ≠ "" := by
    refine (ensures_true _).bind fun found _ => ?_
    cases found with
    | none => exact ensures_pure nofun
    | some text =>
        dsimp only
        split
        · exact ensures_report _ _
        · rename_i hname
          refine ensures_pure fun name heq => ?_
          obtain rfl := Option.some.inj heq
          exact hname
  refine (ensures_true _).bind fun raw _ => ?_
  cases raw with
  | none => exact ensures_pure nofun
  | some raw =>
      refine (ensures_field raw loc "name" hchecked).bind fun name hname =>
        ensures_bind fun rootPolicy => ensures_bind fun _ => ensures_pure fun project heq => ?_
      obtain ⟨text, htext, heq⟩ := Option.bind_eq_some_iff.mp heq
      obtain ⟨policy, -, heq⟩ := Option.bind_eq_some_iff.mp heq
      obtain rfl := Option.some.inj heq
      exact hname text htext

theorem ensures_checkAdapters (loc : List String) (value : YamlValue) :
    Ensures (checkAdapters loc value) fun adapters =>
      (adapters.map Prod.fst).Nodup ∧ ∀ row ∈ adapters, (row.2.map Prod.fst).Nodup := by
  refine (ensures_true _).bind fun entries _ => ?_
  cases entries with
  | none => exact ensures_pure nofun
  | some entries => exact ensures_strKeyed ensures_anyDict loc entries

theorem ensures_checkConfig (raw : YamlMapping) :
    Ensures (checkConfig raw) fun config =>
      pyStrip config.schemaVersion ≠ "" ∧ config.project.name ≠ "" ∧
      pyStrip config.defaultAdapter ≠ "" ∧
      ((config.adapters.map Prod.fst).Nodup ∧
        ∀ row ∈ config.adapters, (row.2.map Prod.fst).Nodup) ∧
      (config.features.map Prod.fst).Nodup := by
  refine (ensures_fieldOr (by decide) raw [] "schema_version" (ensures_present _)).bind
    fun schemaVersion hschema =>
    (ensures_field raw [] "project" ensures_checkProject).bind fun project hproject =>
    ensures_bind fun profile =>
    (ensures_fieldOr (by decide) raw [] "default_adapter" (ensures_present _)).bind
    fun defaultAdapter hdefault =>
    (ensures_fieldOr ⟨List.nodup_nil, nofun⟩ raw [] "adapters" ensures_checkAdapters).bind
    fun adapters hadapters => ensures_bind fun security => ensures_bind fun hooks =>
    (ensures_fieldOr (P := fun dict => (dict.map Prod.fst).Nodup) List.nodup_nil raw [] "features"
      ensures_anyDict).bind
    fun features hfeatures => ensures_bind fun _ => ensures_pure fun config heq => ?_
  obtain ⟨schemaVersion, hschemaVersion, heq⟩ := Option.bind_eq_some_iff.mp heq
  obtain ⟨project, hprojectConfig, heq⟩ := Option.bind_eq_some_iff.mp heq
  obtain ⟨profile, -, heq⟩ := Option.bind_eq_some_iff.mp heq
  obtain ⟨defaultAdapter, hdefaultAdapter, heq⟩ := Option.bind_eq_some_iff.mp heq
  obtain ⟨adapters, hrows, heq⟩ := Option.bind_eq_some_iff.mp heq
  obtain ⟨security, -, heq⟩ := Option.bind_eq_some_iff.mp heq
  obtain ⟨hooks, -, heq⟩ := Option.bind_eq_some_iff.mp heq
  obtain ⟨features, hfeatureRows, heq⟩ := Option.bind_eq_some_iff.mp heq
  obtain rfl := Option.some.inj heq
  exact ⟨hschema _ hschemaVersion, hproject _ hprojectConfig, hdefault _ hdefaultAdapter,
    hadapters _ hrows, hfeatures _ hfeatureRows⟩

/-- What the checks let through is valid. -/
theorem valid_ofRaw {raw : YamlMapping} {config : ForgeConfig}
    (h : modelValidate raw = .ok config) : (ofRaw raw config).Valid := by
  obtain ⟨problems, hexec⟩ :
      ∃ problems, (checkConfig raw).exec [] = (.ok (some config), problems) := by
    unfold modelValidate at h
    split at h
    · cases h
    · rename_i hexec
      exact ⟨[], by rw [hexec, Except.ok.inj h]⟩
    · cases h
  obtain ⟨hschema, hname, hdefault, hadapters, hfeatures⟩ := ensures_checkConfig raw _ _ _ hexec
  exact {
    schemaVersion := hschema
    projectName := hname
    defaultAdapter := hdefault
    adapters := hadapters.1
    rows := hadapters.2
    features := hfeatures
    projectExtra := fun _ => mem_extraFields
    securityExtra := fun _ => mem_extraFields
    hooksExtra := fun _ => mem_extraFields
    extra := fun _ => mem_extraFields }

section Dumping

variable {codec : ConfigCodec}

/-- What of some settings is dumped. -/
structure Plain (codec : ConfigCodec) (settings : Settings YamlValue) (plain : Settings Json) :
    Prop where
  others : plain = { settings with
    projectExtra := plain.projectExtra, adapters := plain.adapters
    securityExtra := plain.securityExtra, hooksExtra := plain.hooksExtra
    features := plain.features, extra := plain.extra }
  projectExtra : dumpValues codec settings.projectExtra = .ok plain.projectExtra
  adapters : Dict.traverse (dumpValues codec) settings.adapters = .ok plain.adapters
  securityExtra : dumpValues codec settings.securityExtra = .ok plain.securityExtra
  hooksExtra : dumpValues codec settings.hooksExtra = .ok plain.hooksExtra
  features : dumpValues codec settings.features = .ok plain.features
  extra : dumpValues codec settings.extra = .ok plain.extra

theorem plain_eq_ok_iff {settings : Settings YamlValue} {plain : Settings Json} :
    settings.plain codec = .ok plain ↔ Plain codec settings plain := by
  unfold Settings.plain
  constructor
  · intro h
    obtain ⟨projectExtra, hproject, h⟩ := bind_eq_ok_iff.mp h
    obtain ⟨adapters, hadapters, h⟩ := bind_eq_ok_iff.mp h
    obtain ⟨securityExtra, hsecurity, h⟩ := bind_eq_ok_iff.mp h
    obtain ⟨hooksExtra, hhooks, h⟩ := bind_eq_ok_iff.mp h
    obtain ⟨features, hfeatures, h⟩ := bind_eq_ok_iff.mp h
    obtain ⟨extra, hextra, h⟩ := bind_eq_ok_iff.mp h
    obtain rfl := Except.ok.inj h
    exact ⟨rfl, hproject, hadapters, hsecurity, hhooks, hfeatures, hextra⟩
  · rintro ⟨hothers, hproject, hadapters, hsecurity, hhooks, hfeatures, hextra⟩
    rw [hproject, hadapters, hsecurity, hhooks, hfeatures, hextra]
    exact congrArg Except.ok hothers.symm

theorem Plain.valid {settings : Settings YamlValue} {plain : Settings Json}
    (h : Plain codec settings plain) (hvalid : settings.Valid) : plain.Valid where
  schemaVersion := by
    rw [h.others]
    exact hvalid.schemaVersion
  projectName := by
    rw [h.others]
    exact hvalid.projectName
  defaultAdapter := by
    rw [h.others]
    exact hvalid.defaultAdapter
  adapters := Dict.keys_traverse h.adapters ▸ hvalid.adapters
  rows := by
    intro row hrow
    obtain ⟨read, hread, -, hdumped⟩ := Dict.exists_of_mem_traverse h.adapters hrow
    exact Dict.keys_traverse hdumped ▸ hvalid.rows read hread
  features := Dict.keys_traverse h.features ▸ hvalid.features
  projectExtra := Dict.keys_traverse h.projectExtra ▸ hvalid.projectExtra
  securityExtra := Dict.keys_traverse h.securityExtra ▸ hvalid.securityExtra
  hooksExtra := Dict.keys_traverse h.hooksExtra ▸ hvalid.hooksExtra
  extra := Dict.keys_traverse h.extra ▸ hvalid.extra

def DumpedValues (codec : ConfigCodec) (values : JsonObject) : Prop :=
  ∀ entry ∈ values, codec.dumpAny entry.2.toYaml = .ok entry.2

/-- Plain settings that are dumped as they are. -/
structure Dumped (codec : ConfigCodec) (settings : Settings Json) : Prop where
  projectExtra : DumpedValues codec settings.projectExtra
  adapters : ∀ row ∈ settings.adapters, DumpedValues codec row.2
  securityExtra : DumpedValues codec settings.securityExtra
  hooksExtra : DumpedValues codec settings.hooksExtra
  features : DumpedValues codec settings.features
  extra : DumpedValues codec settings.extra

theorem dumpedValues_of_allFinite (hcodec : codec.Lawful) {values : JsonObject}
    (h : ∀ entry ∈ values, entry.2.allFinite = true) : DumpedValues codec values :=
  fun entry hentry => hcodec.dumpAny_toYaml _ (h entry hentry)

/-- What has been dumped once is dumped as it is. -/
theorem dumpedValues_of_dumpValues (hcodec : codec.Lawful) {values : Dict String YamlValue}
    {plain : JsonObject} (h : dumpValues codec values = .ok plain) :
    DumpedValues codec plain := by
  intro entry hentry
  obtain ⟨read, -, -, hdumped⟩ := Dict.exists_of_mem_traverse h hentry
  exact hcodec.dumpAny_dumped hdumped

theorem Plain.dumped (hcodec : codec.Lawful) {settings : Settings YamlValue}
    {plain : Settings Json} (h : Plain codec settings plain) : plain.Dumped codec where
  projectExtra := dumpedValues_of_dumpValues hcodec h.projectExtra
  adapters := by
    intro row hrow
    obtain ⟨read, -, -, hdumped⟩ := Dict.exists_of_mem_traverse h.adapters hrow
    exact dumpedValues_of_dumpValues hcodec hdumped
  securityExtra := dumpedValues_of_dumpValues hcodec h.securityExtra
  hooksExtra := dumpedValues_of_dumpValues hcodec h.hooksExtra
  features := dumpedValues_of_dumpValues hcodec h.features
  extra := dumpedValues_of_dumpValues hcodec h.extra

theorem Dumped.plain_toYaml {settings : Settings Json} (h : settings.Dumped codec) :
    (settings.map Json.toYaml).plain codec = .ok settings := by
  have hvalues {values : JsonObject} (h : DumpedValues codec values) :
      dumpValues codec (values.map fun entry => (entry.1, entry.2.toYaml)) = .ok values :=
    Dict.traverse_map h
  exact plain_eq_ok_iff.mpr ⟨rfl, hvalues h.projectExtra,
    Dict.traverse_map fun row hrow => hvalues (h.adapters row hrow), hvalues h.securityExtra,
    hvalues h.hooksExtra, hvalues h.features, hvalues h.extra⟩

theorem valid_of_loadSettings {path : String} {file : ConfigBytes}
    {settings : Settings YamlValue} (h : loadSettings codec path file = .ok settings) :
    settings.Valid := by
  obtain ⟨raw, -, h⟩ := bind_eq_ok_iff.mp h
  split at h
  · rename_i config hconfig
    obtain rfl := Except.ok.inj h
    exact valid_ofRaw hconfig
  · cases h
  · cases h

theorem loadSettings_text {settings : Settings Json} (h : settings.Valid) {text : String}
    (hlines : '\r' ∉ text.toList)
    (hload : codec.safeLoad text = .ok (.map (Json.toYamlEntries settings.data))) (path : String) :
    loadSettings codec path (.content (encodeUtf8 text)) = .ok (settings.map Json.toYaml) := by
  have hread : readText (encodeUtf8 text) = some text := by
    rw [readText, decodeUtf8_eq_some.mpr rfl, Option.map_some,
      universalNewlines_of_no_return hlines, String.ofList_toList]
  rw [loadSettings, readYamlMapping, hread]
  dsimp only
  rw [hload]
  dsimp only [ok_bind]
  rw [modelValidate_data h]
  exact congrArg Except.ok (ofRaw_data h)

/-- The file that plain settings are written to. -/
def saved (codec : ConfigCodec) (settings : Settings Json) : ConfigBytes :=
  .content (encodeUtf8 (codec.safeDump settings.data))

/-- What has been written is loaded as it was. -/
theorem loadSettings_saved (hcodec : codec.Lawful) {settings : Settings Json}
    (h : settings.Valid) (path : String) :
    loadSettings codec path (settings.saved codec) = .ok (settings.map Json.toYaml) :=
  loadSettings_text h (hcodec.no_return _) (hcodec.safeLoad_safeDump _) path

end Dumping

end Settings

end Config

/-! ### A codec that meets the laws -/

mutual

/-- The plain data that is read as a value. -/
def YamlValue.plain? : YamlValue → Option Json
  | .null => some .null
  | .bool value => some (.bool value)
  | .int value => some (.int value)
  | .float value => some (.float value)
  | .str value => some (.str value)
  | .binary _ => none
  | .other _ => none
  | .seq items => (YamlValue.plainItems? items).map .arr
  | .map entries => (YamlValue.plainEntries? entries).map .obj

def YamlValue.plainItems? : List YamlValue → Option (List Json)
  | [] => some []
  | item :: rest => do
      let plain ← item.plain?
      let others ← YamlValue.plainItems? rest
      return plain :: others

def YamlValue.plainEntries? : List (YamlKey × YamlValue) → Option JsonObject
  | [] => some []
  | (.str key, value) :: rest => do
      let plain ← value.plain?
      let others ← YamlValue.plainEntries? rest
      return (key, plain) :: others
  | _ :: _ => none

end

mutual

theorem plain?_toYaml : ∀ value : Json, value.toYaml.plain? = some value
  | .null | .bool _ | .int _ | .float _ | .str _ => rfl
  | .arr items => by
      rw [Json.toYaml, YamlValue.plain?, plainItems?_toYaml items]
      rfl
  | .obj entries => by
      rw [Json.toYaml, YamlValue.plain?, plainEntries?_toYaml entries]
      rfl

theorem plainItems?_toYaml :
    ∀ items : List Json, YamlValue.plainItems? (Json.toYamlItems items) = some items
  | [] => rfl
  | item :: rest => by
      rw [Json.toYamlItems, YamlValue.plainItems?, plain?_toYaml item, plainItems?_toYaml rest]
      rfl

theorem plainEntries?_toYaml :
    ∀ entries : List (String × Json),
      YamlValue.plainEntries? (Json.toYamlEntries entries) = some entries
  | [] => rfl
  | (key, value) :: rest => by
      rw [Json.toYamlEntries, YamlValue.plainEntries?, plain?_toYaml value,
        plainEntries?_toYaml rest]
      rfl

end

/-- A text as a number. -/
def textCode (text : String) : ℕ := Encodable.encode (text.toList.map Char.toNat)

theorem textCode_injective : Function.Injective textCode := by
  intro text other h
  have hchars := Encodable.encode_injective h
  exact String.toList_inj.mp (List.map_injective_iff.mpr (fun _ _ => Char.toNat_inj.mp) hchars)

def PyFloat.code : PyFloat → ℕ
  | .finite value => Nat.pair 0 (Encodable.encode value)
  | .nan => Nat.pair 1 0
  | .inf negative => Nat.pair 2 (Encodable.encode negative)

theorem PyFloat.code_injective : Function.Injective PyFloat.code := by
  intro value other h
  cases value <;> cases other <;>
    simp_all [PyFloat.code, Nat.pair_eq_pair]

mutual

/-- Plain data as a number. -/
def Json.code : Json → ℕ
  | .null => Nat.pair 0 0
  | .bool value => Nat.pair 1 (Encodable.encode value)
  | .int value => Nat.pair 2 (Encodable.encode value)
  | .float value => Nat.pair 3 value.code
  | .str value => Nat.pair 4 (textCode value)
  | .arr items => Nat.pair 5 (Json.codeItems items)
  | .obj entries => Nat.pair 6 (Json.codeEntries entries)

def Json.codeItems : List Json → ℕ
  | [] => 0
  | item :: rest => Nat.pair item.code (Json.codeItems rest) + 1

def Json.codeEntries : List (String × Json) → ℕ
  | [] => 0
  | entry :: rest =>
      Nat.pair (textCode entry.1) (Nat.pair entry.2.code (Json.codeEntries rest)) + 1

end

mutual

theorem code_injective : ∀ value other : Json, value.code = other.code → value = other
  | .null, other, h => by
      cases other <;> simp_all [Json.code, Nat.pair_eq_pair]
  | .bool value, other, h => by
      cases other <;> simp_all [Json.code, Nat.pair_eq_pair]
  | .int value, other, h => by
      cases other <;> simp_all [Json.code, Nat.pair_eq_pair]
  | .float value, other, h => by
      cases other <;> simp_all [Json.code, Nat.pair_eq_pair, PyFloat.code_injective.eq_iff]
  | .str value, other, h => by
      cases other <;> simp_all [Json.code, Nat.pair_eq_pair, textCode_injective.eq_iff]
  | .arr items, other, h => by
      cases other with
      | arr others =>
          rw [Json.code, Json.code, Nat.pair_eq_pair] at h
          rw [codeItems_injective items others h.2]
      | _ => simp [Json.code, Nat.pair_eq_pair] at h
  | .obj entries, other, h => by
      cases other with
      | obj others =>
          rw [Json.code, Json.code, Nat.pair_eq_pair] at h
          rw [codeEntries_injective entries others h.2]
      | _ => simp [Json.code, Nat.pair_eq_pair] at h

theorem codeItems_injective :
    ∀ items others : List Json, Json.codeItems items = Json.codeItems others → items = others
  | [], [], _ => rfl
  | [], _ :: _, h => nomatch h
  | _ :: _, [], h => nomatch h
  | item :: rest, other :: others, h => by
      obtain ⟨hitem, hrest⟩ := Nat.pair_eq_pair.mp (Nat.succ.inj h)
      rw [code_injective item other hitem, codeItems_injective rest others hrest]

theorem codeEntries_injective :
    ∀ entries others : List (String × Json),
      Json.codeEntries entries = Json.codeEntries others → entries = others
  | [], [], _ => rfl
  | [], _ :: _, h => nomatch h
  | _ :: _, [], h => nomatch h
  | (key, value) :: rest, (other, value') :: others, h => by
      obtain ⟨hkey, h⟩ := Nat.pair_eq_pair.mp (Nat.succ.inj h)
      obtain ⟨hvalue, hrest⟩ := Nat.pair_eq_pair.mp h
      obtain rfl : key = other := textCode_injective hkey
      rw [code_injective value value' hvalue, codeEntries_injective rest others hrest]

end

namespace Config

/-- A text of its own for every dictionary. -/
def numeral (data : JsonObject) : String :=
  String.ofList ('~' :: List.replicate (Json.codeEntries data) '1')

theorem numeral_injective : Function.Injective numeral := by
  intro data other h
  have hlength := congrArg List.length (String.ofList_injective h)
  rw [List.length_cons, List.length_cons, List.length_replicate, List.length_replicate] at hlength
  exact codeEntries_injective data other (Nat.succ.inj hlength)

open Classical in
/-- A codec that knows how one file is read, how it is read again with other data
in it, and nothing else of YAML. -/
noncomputable def knowingCodec (text : String) (raw : YamlMapping) (dumped : String)
    (data : JsonObject) : ConfigCodec where
  safeLoad := fun given =>
    if given = text then .ok (.map raw)
    else if given = dumped then .ok (.map (Json.toYamlEntries data))
    else if h : ∃ other, numeral other = given then .ok (.map (Json.toYamlEntries h.choose))
    else .error "not known"
  describe := fun _ => ""
  laxFloat := fun _ => none
  safeDump := fun given =>
    if Json.codeEntries given = Json.codeEntries data then dumped else numeral given
  dumpAny := fun value =>
    match value.plain? with
    | some plain => .ok plain
    | none => .error ⟨"not known"⟩
  truthy := fun value =>
    match value.plain? with
    | some plain => plain.truthy
    | none => true

theorem knowingCodec_lawful {text dumped : String} (raw : YamlMapping) (data : JsonObject)
    (htext : text.toList.head? ≠ some '~') (hdumped : dumped.toList.head? ≠ some '~')
    (hother : dumped ≠ text) (hlines : '\r' ∉ dumped.toList) :
    (knowingCodec text raw dumped data).Lawful where
  safeLoad_safeDump := by
    intro given
    have hhead : (numeral given).toList.head? = some '~' := by
      rw [numeral, String.toList_ofList, List.head?_cons]
    have hnotText : numeral given ≠ text := fun heq => htext (heq.symm ▸ hhead)
    have hnotDumped : numeral given ≠ dumped := fun heq => hdumped (heq.symm ▸ hhead)
    unfold knowingCodec
    dsimp only
    by_cases hsame : Json.codeEntries given = Json.codeEntries data
    · rw [if_pos hsame, if_neg hother, if_pos rfl, codeEntries_injective given data hsame]
    · have hknown : ∃ other, numeral other = numeral given := ⟨given, rfl⟩
      rw [if_neg hsame, if_neg hnotText, if_neg hnotDumped, dif_pos hknown,
        numeral_injective hknown.choose_spec]
  no_return := by
    intro given
    unfold knowingCodec
    dsimp only
    split
    · exact hlines
    · rw [numeral, String.toList_ofList, List.mem_cons, List.mem_replicate]
      simp
  dumpAny_toYaml := fun value _ => by simp only [knowingCodec, plain?_toYaml]
  dumpAny_dumped := fun _ => by simp only [knowingCodec, plain?_toYaml]
  truthy_toYaml := fun value => by simp only [knowingCodec, plain?_toYaml]
  truthy_dumpAny := by
    intro value plain _ h
    unfold knowingCodec at h ⊢
    dsimp only at h ⊢
    split at h
    · cases h
      rfl
    · cases h

end Config

end ForgeOS
