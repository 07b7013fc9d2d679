import ForgeOS.Json
import ForgeOS.Extensions.Manifest
import ForgeOS.Library.Effect
import ForgeOS.Text
import ForgeOS.Yaml

/-!
The schema of `.forge/config.yaml`, and its validation. The fields are checked
one after the other, and what is wrong with them is gathered; only the
validators of two fields raise an error of their own, which ends the check.
-/

namespace ForgeOS

open Library

/-! ### YAML values -/

/-- A scalar as pydantic takes it: bytes are read as text. -/
def YamlValue.scalar? : YamlValue → Option Json
  | .null => some .null
  | .bool value => some (.bool value)
  | .int value => some (.int value)
  | .float value => some (.float value)
  | .str value => some (.str value)
  | .binary content => (decodeUtf8 content).map .str
  | _ => none

/-- The values pydantic takes for a `str`. -/
def YamlValue.laxStr? (value : YamlValue) : Option String := value.scalar?.bind Json.str?

/-- The values pydantic takes for a `bool`. -/
def YamlValue.laxBool? (value : YamlValue) : Option Bool := value.scalar?.bind Json.laxBool?

/-- The keys pydantic takes for a `str`. -/
def YamlKey.laxStr? : YamlKey → Option String
  | .str value => some value
  | .binary content => decodeUtf8 content
  | .other _ => none

/-! ### Checks -/

inductive ProblemKind where
  | missing
  | stringType
  | stringTooShort
  | literalError
  | boolType
  | dictType
  | modelType
  | invalidKey
deriving DecidableEq, Repr

/-- One complaint of a `ValidationError`, with the place it is about. -/
structure Problem where
  loc : List String
  kind : ProblemKind
deriving DecidableEq, Repr

/-- `schemas.config.ConfigError`, which pydantic lets through. -/
structure SchemaConfigError where
  message : String
deriving DecidableEq, Repr

/-- Checks gather problems, and give no value where they have found one. -/
abbrev Checks := Effect (List Problem) SchemaConfigError

namespace Checks

variable {α : Type}

def report (loc : List String) (kind : ProblemKind) : Checks (Option α) := do
  modify (· ++ [⟨loc, kind⟩])
  return none

/-- A value that has a reading, or a problem. -/
def ofOption (loc : List String) (kind : ProblemKind) : Option α → Checks (Option α)
  | some value => return some value
  | none => report loc kind

def fieldOr (raw : YamlMapping) (loc : List String) (key : String) (default : α)
    (check : List String → YamlValue → Checks (Option α)) : Checks (Option α) :=
  match Dict.get? raw (.str key) with
  | some value => check (loc ++ [key]) value
  | none => return some default

/-- A required field. -/
def field (raw : YamlMapping) (loc : List String) (key : String)
    (check : List String → YamlValue → Checks (Option α)) : Checks (Option α) :=
  match Dict.get? raw (.str key) with
  | some value => check (loc ++ [key]) value
  | none => report (loc ++ [key]) .missing

def str (loc : List String) (value : YamlValue) : Checks (Option String) :=
  ofOption loc .stringType value.laxStr?

def bool (loc : List String) (value : YamlValue) : Checks (Option Bool) :=
  ofOption loc .boolType value.laxBool?

/-- A field validator that raises an error of its own on a blank text. -/
def present (message : String) (loc : List String) (value : YamlValue) :
    Checks (Option String) := do
  match ← str loc value with
  | some text => if pyStrip text = "" then throw ⟨message⟩ else return some text
  | none => return none

/-- `dict[str, ...]`. -/
def strKeyed (loc : List String) (check : List String → YamlValue → Checks (Option α)) :
    List (YamlKey × YamlValue) → Checks (Option (Dict String α))
  | [] => return some []
  | (key, value) :: rest => do
      let name ← ofOption (loc ++ ["[key]"]) .stringType key.laxStr?
      let checked ← check loc value
      let others ← strKeyed loc check rest
      return do Dict.update [(← name, ← checked)] (← others)

def mapping (kind : ProblemKind) (loc : List String) : YamlValue → Checks (Option YamlMapping)
  | .map entries => return some entries
  | _ => report loc kind

def any (_loc : List String) (value : YamlValue) : Checks (Option YamlValue) := return some value

/-- `dict[str, Any]`. -/
def anyDict (loc : List String) (value : YamlValue) : Checks (Option (Dict String YamlValue)) := do
  match ← mapping .dictType loc value with
  | some entries => strKeyed loc any entries
  | none => return none

/-- The keys of a model that allows extra fields. -/
def extraKeys (loc : List String) (raw : YamlMapping) : Checks Unit :=
  modify (· ++ raw.filterMap fun entry =>
    match entry.1 with
    | .str _ => none
    | .binary _ => some ⟨loc ++ ["bytes"], .invalidKey⟩
    | .other repr => some ⟨loc ++ [repr], .invalidKey⟩)

end Checks

/-! ### The configuration -/

/-- Project metadata. -/
structure ProjectConfig where
  name : String
  rootPolicy : String := "project_only"

structure SecurityConfig where
  profile : String := "baseline"

structure HooksConfig where
  enabled : Bool := false

inductive ProfileName where
  | minimal
  | standard
  | expert
deriving DecidableEq, Repr

def ProfileName.ofValue? (value : String) : Option ProfileName :=
  if value = "minimal" then some minimal
  else if value = "standard" then some standard
  else if value = "expert" then some expert
  else none

namespace Config

/-- Project configuration, without the extra fields that are allowed. -/
structure ForgeConfig where
  schemaVersion : String := "0.1"
  project : ProjectConfig
  profile : ProfileName := .minimal
  defaultAdapter : String := "dummy"
  adapters : Dict String (Dict String YamlValue) := []
  security : SecurityConfig := {}
  hooks : HooksConfig := {}
  features : Dict String YamlValue := []

open Checks

def checkName (loc : List String) (value : YamlValue) : Checks (Option String) := do
  match ← str loc value with
  | some text => if text = "" then report loc .stringTooShort else return some text
  | none => return none

def checkProject (loc : List String) (value : YamlValue) : Checks (Option ProjectConfig) := do
  let some raw ← mapping .modelType loc value | return none
  let name ← field raw loc "name" checkName
  let rootPolicy ← fieldOr raw loc "root_policy" "project_only" str
  extraKeys loc raw
  return do some { name := (← name), rootPolicy := (← rootPolicy) }

def checkSecurity (loc : List String) (value : YamlValue) : Checks (Option SecurityConfig) := do
  let some raw ← mapping .modelType loc value | return none
  let profile ← fieldOr raw loc "profile" "baseline" str
  extraKeys loc raw
  return do some { profile := (← profile) }

def checkHooks (loc : List String) (value : YamlValue) : Checks (Option HooksConfig) := do
  let some raw ← mapping .modelType loc value | return none
  let enabled ← fieldOr raw loc "enabled" false bool
  extraKeys loc raw
  return do some { enabled := (← enabled) }

def checkProfile (loc : List String) : YamlValue → Checks (Option ProfileName)
  | .str value => ofOption loc .literalError (ProfileName.ofValue? value)
  | _ => report loc .literalError

/-- `dict[str, dict[str, Any]]`. -/
def checkAdapters (loc : List String) (value : YamlValue) :
    Checks (Option (Dict String (Dict String YamlValue))) := do
  match ← mapping .dictType loc value with
  | some entries => strKeyed loc anyDict entries
  | none => return none

/-- The checks of `ForgeConfig`, in the order of its fields. -/
def checkConfig (raw : YamlMapping) : Checks (Option ForgeConfig) := do
  let schemaVersion ← fieldOr raw [] "schema_version" "0.1"
    (present "Invalid Forge config. `schema_version` is required")
  let project ← field raw [] "project" checkProject
  let profile ← fieldOr raw [] "profile" .minimal checkProfile
  let defaultAdapter ← fieldOr raw [] "default_adapter" "dummy"
    (present "Invalid Forge config. `default_adapter` is required")
  let adapters ← fieldOr raw [] "adapters" [] checkAdapters
  let security ← fieldOr raw [] "security" {} checkSecurity
  let hooks ← fieldOr raw [] "hooks" {} checkHooks
  let features ← fieldOr raw [] "features" [] anyDict
  extraKeys [] raw
  return do some {
    schemaVersion := (← schemaVersion)
    project := (← project)
    profile := (← profile)
    defaultAdapter := (← defaultAdapter)
    adapters := (← adapters)
    security := (← security)
    hooks := (← hooks)
    features := (← features) }

/-- What `ForgeConfig.model_validate` raises. -/
inductive ValidationRaise where
  /-- A `ValidationError`. -/
  | problems (problems : List Problem)
  | schema (error : SchemaConfigError)

def modelValidate (raw : YamlMapping) : Except ValidationRaise ForgeConfig :=
  match (checkConfig raw).exec [] with
  | (.error error, _) => .error (.schema error)
  | (.ok (some config), []) => .ok config
  | (.ok _, problems) => .error (.problems problems)

end Config

/-! ### Which checks raise -/

namespace Checks

variable {α β : Type}

/-- A check that always ends with what it has found. -/
def Quiet (check : Checks α) : Prop :=
  ∀ problems, ∃ a problems', check.exec problems = (.ok a, problems')

/-- A check that always raises. -/
def Escapes (check : Checks α) : Prop :=
  ∀ problems, ∃ error problems', check.exec problems = (.error error, problems')

theorem quiet_pure (a : α) : Quiet (pure a) := fun problems => ⟨a, problems, rfl⟩

theorem Quiet.bind {check : Checks α} (h : Quiet check) {next : α → Checks β}
    (hnext : ∀ a, Quiet (next a)) : Quiet (check >>= next) := by
  intro problems
  obtain ⟨a, problems', hexec⟩ := h problems
  rw [Effect.exec_bind_ok _ hexec]
  exact hnext a problems'

theorem Quiet.bind_escapes {check : Checks α} (h : Quiet check) {next : α → Checks β}
    (hnext : ∀ a, Escapes (next a)) : Escapes (check >>= next) := by
  intro problems
  obtain ⟨a, problems', hexec⟩ := h problems
  rw [Effect.exec_bind_ok _ hexec]
  exact hnext a problems'

theorem Escapes.bind {check : Checks α} (h : Escapes check) (next : α → Checks β) :
    Escapes (check >>= next) := by
  intro problems
  obtain ⟨error, problems', hexec⟩ := h problems
  exact ⟨error, problems', Effect.exec_bind_error _ hexec⟩

theorem quiet_report (loc : List String) (kind : ProblemKind) :
    Quiet (report loc kind : Checks (Option α)) := fun _ => ⟨none, _, rfl⟩

theorem quiet_ofOption (loc : List String) (kind : ProblemKind) (value : Option α) :
    Quiet (ofOption loc kind value) := by
  cases value with
  | none => exact quiet_report loc kind
  | some value => exact quiet_pure (some value)

section Fields

variable {raw : YamlMapping} {loc : List String} {key : String}
  {check : List String → YamlValue → Checks (Option α)}

theorem quiet_fieldOr (default : α) (h : ∀ loc value, Quiet (check loc value)) :
    Quiet (fieldOr raw loc key default check) := by
  unfold fieldOr
  split
  · exact h _ _
  · exact quiet_pure _

theorem quiet_field (h : ∀ loc value, Quiet (check loc value)) :
    Quiet (field raw loc key check) := by
  unfold field
  split
  · exact h _ _
  · exact quiet_report _ _

end Fields

theorem quiet_mapping (kind : ProblemKind) (loc : List String) (value : YamlValue) :
    Quiet (mapping kind loc value) := by
  unfold mapping
  split
  · exact quiet_pure _
  · exact quiet_report _ _

theorem quiet_strKeyed {check : List String → YamlValue → Checks (Option α)}
    (h : ∀ loc value, Quiet (check loc value)) (loc : List String)
    (entries : List (YamlKey × YamlValue)) : Quiet (strKeyed loc check entries) := by
  induction entries with
  | nil => exact quiet_pure _
  | cons entry rest ih =>
      exact (quiet_ofOption _ _ _).bind fun _ => (h _ _).bind fun _ => ih.bind fun _ =>
        quiet_pure _

theorem quiet_anyDict (loc : List String) (value : YamlValue) : Quiet (anyDict loc value) := by
  refine (quiet_mapping _ _ _).bind fun entries => ?_
  cases entries with
  | none => exact quiet_pure _
  | some entries => exact quiet_strKeyed (fun _ _ => quiet_pure _) loc entries

theorem quiet_extraKeys (loc : List String) (raw : YamlMapping) : Quiet (extraKeys loc raw) :=
  fun _ => ⟨(), _, rfl⟩

end Checks

namespace Config

open Checks

/-- A text is given for the field, and there is nothing in it. -/
def Blank (raw : YamlMapping) (key : String) : Prop :=
  ∃ value text, Dict.get? raw (.str key) = some value ∧ value.laxStr? = some text ∧
    pyStrip text = ""

theorem escapes_present {raw : YamlMapping} {key : String} (h : Blank raw key)
    (loc : List String) (default message : String) :
    Escapes (fieldOr raw loc key default (present message)) := by
  obtain ⟨value, text, hvalue, htext, hblank⟩ := h
  intro problems
  refine ⟨⟨message⟩, problems, ?_⟩
  rw [fieldOr, hvalue]
  dsimp only
  rw [present, str, htext, ofOption, Effect.exec_bind_ok _ (Effect.exec_pure _ problems)]
  dsimp only
  rw [if_pos hblank]
  rfl

theorem quiet_present {raw : YamlMapping} {key : String} (h : ¬Blank raw key)
    (loc : List String) (default message : String) :
    Quiet (fieldOr raw loc key default (present message)) := by
  unfold fieldOr
  split
  · rename_i value hvalue
    intro problems
    rw [present, str]
    cases htext : value.laxStr? with
    | none => exact ⟨none, _, rfl⟩
    | some text =>
        have hpresent : pyStrip text ≠ "" := fun hblank => h ⟨value, text, hvalue, htext, hblank⟩
        rw [ofOption, Effect.exec_bind_ok _ (Effect.exec_pure _ problems)]
        dsimp only
        rw [if_neg hpresent]
        exact ⟨some text, problems, rfl⟩
  · exact quiet_pure _

theorem quiet_str (loc : List String) (value : YamlValue) : Quiet (str loc value) :=
  quiet_ofOption _ _ _

theorem quiet_bool (loc : List String) (value : YamlValue) : Quiet (bool loc value) :=
  quiet_ofOption _ _ _

theorem quiet_checkName (loc : List String) (value : YamlValue) :
    Quiet (checkName loc value) := by
  refine (quiet_str loc value).bind fun text => ?_
  cases text with
  | none => exact quiet_pure _
  | some text =>
      dsimp only
      split
      · exact quiet_report _ _
      · exact quiet_pure _

/-- A nested model raises nothing if the checks of its fields do not. -/
theorem quiet_model {α : Type} {loc : List String} {value : YamlValue}
    {fields : YamlMapping → Checks (Option α)} (h : ∀ raw, Quiet (fields raw)) :
    Quiet (do
      let some raw ← mapping .modelType loc value | return none
      fields raw) := by
  refine (quiet_mapping _ loc value).bind fun raw => ?_
  cases raw with
  | none => exact quiet_pure _
  | some raw => exact h raw

theorem quiet_checkProject (loc : List String) (value : YamlValue) :
    Quiet (checkProject loc value) :=
  quiet_model fun _ => (quiet_field quiet_checkName).bind fun _ =>
    (quiet_fieldOr _ quiet_str).bind fun _ => (quiet_extraKeys _ _).bind fun _ => quiet_pure _

theorem quiet_checkSecurity (loc : List String) (value : YamlValue) :
    Quiet (checkSecurity loc value) :=
  quiet_model fun _ => (quiet_fieldOr _ quiet_str).bind fun _ =>
    (quiet_extraKeys _ _).bind fun _ => quiet_pure _

theorem quiet_checkHooks (loc : List String) (value : YamlValue) :
    Quiet (checkHooks loc value) :=
  quiet_model fun _ => (quiet_fieldOr _ quiet_bool).bind fun _ =>
    (quiet_extraKeys _ _).bind fun _ => quiet_pure _

theorem quiet_checkProfile (loc : List String) (value : YamlValue) :
    Quiet (checkProfile loc value) := by
  unfold checkProfile
  split
  · exact quiet_ofOption _ _ _
  · exact quiet_report _ _

theorem quiet_checkAdapters (loc : List String) (value : YamlValue) :
    Quiet (checkAdapters loc value) := by
  refine (quiet_mapping _ _ _).bind fun entries => ?_
  cases entries with
  | none => exact quiet_pure _
  | some entries => exact quiet_strKeyed quiet_anyDict loc entries

/-- The checks after the default adapter. -/
private theorem quiet_rest (raw : YamlMapping)
    (build : Option (Dict String (Dict String YamlValue)) → Option SecurityConfig →
      Option HooksConfig → Option (Dict String YamlValue) → Option ForgeConfig) : Quiet (do
    let adapters ← fieldOr raw [] "adapters" [] checkAdapters
    let security ← fieldOr raw [] "security" {} checkSecurity
    let hooks ← fieldOr raw [] "hooks" {} checkHooks
    let features ← fieldOr raw [] "features" [] anyDict
    extraKeys [] raw
    return build adapters security hooks features) :=
  (quiet_fieldOr _ quiet_checkAdapters).bind fun _ =>
    (quiet_fieldOr _ quiet_checkSecurity).bind fun _ =>
    (quiet_fieldOr _ quiet_checkHooks).bind fun _ =>
    (quiet_fieldOr _ quiet_anyDict).bind fun _ =>
    (quiet_extraKeys _ _).bind fun _ => quiet_pure _

theorem quiet_checkConfig {raw : YamlMapping} (hschema : ¬Blank raw "schema_version")
    (hadapter : ¬Blank raw "default_adapter") : Quiet (checkConfig raw) :=
  (quiet_present hschema _ _ _).bind fun _ =>
    (quiet_field quiet_checkProject).bind fun _ =>
    (quiet_fieldOr _ quiet_checkProfile).bind fun _ =>
    (quiet_present hadapter _ _ _).bind fun _ => quiet_rest raw _

theorem escapes_checkConfig {raw : YamlMapping}
    (h : Blank raw "schema_version" ∨ Blank raw "default_adapter") :
    Escapes (checkConfig raw) := by
  by_cases hschema : Blank raw "schema_version"
  · exact (escapes_present hschema _ _ _).bind _
  · have hadapter := h.resolve_left hschema
    exact (quiet_present hschema _ _ _).bind_escapes fun _ =>
      (quiet_field quiet_checkProject).bind_escapes fun _ =>
      (quiet_fieldOr _ quiet_checkProfile).bind_escapes fun _ =>
      (escapes_present hadapter _ _ _).bind _

/-- The schema lets an error of its own escape exactly where the schema version
or the default adapter is blank. -/
theorem modelValidate_schema_iff (raw : YamlMapping) :
    (∃ error, modelValidate raw = .error (.schema error)) ↔
      Blank raw "schema_version" ∨ Blank raw "default_adapter" := by
  unfold modelValidate
  constructor
  · rintro ⟨error, herror⟩
    by_contra hblank
    rw [not_or] at hblank
    obtain ⟨config, problems, hexec⟩ := quiet_checkConfig hblank.1 hblank.2 []
    rw [hexec] at herror
    cases config <;> cases problems <;> cases herror
  · intro hblank
    obtain ⟨error, problems, hexec⟩ := escapes_checkConfig hblank []
    exact ⟨error, by rw [hexec]⟩

end Config

end ForgeOS
