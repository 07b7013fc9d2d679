import ForgeOS.Config.Schema

/-!
Loading `.forge/config.yaml`, and two readers of it that promise never to
raise: the preflight checks of `forge doctor`, and the observer's settings.
Both catch the loader's own `ConfigError`. What the loader lets through
otherwise they let through as well.
-/

namespace ForgeOS

open Library

namespace Config

/-- What escapes from reading the configuration. -/
inductive ConfigException where
  /-- `config.loader.ConfigError` -/
  | config (message : String)
  /-- `schemas.config.ConfigError` -/
  | schema (message : String)
  | unicodeDecode
  /-- An index out of range. -/
  | index
deriving DecidableEq, Repr

/-- The file at a path, as it is read. -/
inductive ConfigBytes where
  /-- An `OSError`. -/
  | unreadable
  | content (bytes : List UInt8)

/-- What the loader takes from third-party code. -/
structure ConfigHost where
  /-- `yaml.safe_load(text)`, or the complaint of a `YAMLError`. -/
  safeLoad : String → Except String YamlValue
  /-- How a problem is printed. -/
  describe : Problem → String
  /-- The values pydantic takes for a `float`. -/
  laxFloat : YamlValue → Option PyFloat

section Loading

variable (host : ConfigHost) (path : String)

def readYamlMapping : ConfigBytes → Except ConfigException YamlMapping
  | .unreadable => .error (.config s!"Could not read config file: {path}")
  | .content bytes =>
      match readText bytes with
      | none => .error .unicodeDecode
      | some text =>
          match host.safeLoad text with
          | .error _ => .error (.config s!"Config file is not valid YAML: {path}")
          | .ok .null => .error (.config s!"Config file is empty: {path}")
          | .ok (.map raw) => .ok raw
          | .ok _ => .error (.config s!"Config file must contain a YAML mapping: {path}")

/-- `str(exc)`, of a `ValidationError`. -/
def validationText (problems : List Problem) : String :=
  let count := problems.length
  let plural := if count = 1 then "" else "s"
  s!"{count} validation error{plural} for ForgeConfig\n" ++
    "\n".intercalate (problems.map host.describe)

def loadConfig (file : ConfigBytes) : Except ConfigException ForgeConfig := do
  let raw ← readYamlMapping host path file
  match modelValidate raw with
  | .ok config => return config
  | .error (.problems problems) => throw (.config (validationText host problems))
  | .error (.schema error) => throw (.schema error.message)

end Loading

/-! ### The doctor -/

inductive DoctorStatus where
  | pass
  | warn
  | fail
  | info
deriving DecidableEq, Repr

/-- One environment or project check and its outcome. -/
structure DoctorCheck where
  name : String
  status : DoctorStatus
  detail : String
  remedy : Option String := none
deriving DecidableEq, Repr

/-- What `AdapterUseCases.status` tells of an adapter. -/
structure AdapterStatus where
  adapterId : String
  available : Bool
  reason : String
deriving DecidableEq, Repr

def noProject (name : String) : DoctorCheck where
  name := name
  status := .info
  detail := "skipped — not in a Forge project"

/-- `text.splitlines()[0]`. -/
def firstLineOf (text : String) : Except ConfigException String :=
  match firstOfLines? text with
  | some line => .ok line
  | none => .error .index

section Doctor

variable (host : ConfigHost)

def checkConfigValid (projectRoot : Option String) (file : ConfigBytes) :
    Except ConfigException DoctorCheck :=
  match projectRoot with
  | none => .ok (noProject "Config validity")
  | some root =>
      let configPath := s!"{root}/.forge/config.yaml"
      match loadConfig host configPath file with
      | .ok _ => .ok {
          name := "Config validity"
          status := .pass
          detail := "config.yaml loaded and validated" }
      | .error (.config message) => do
          return {
            name := "Config validity"
            status := .fail
            detail := ← firstLineOf message
            remedy := some s!"Fix {configPath}" }
      | .error other => .error other

/-- `EnvironmentDoctor.check_forge_writable()`; the probe tells whether a file
can be made under `.forge`. -/
def checkForgeWritable (projectRoot : Option String) (writable : Bool) : DoctorCheck :=
  match projectRoot with
  | none => noProject ".forge writable"
  | some root =>
      if writable then {
        name := ".forge writable"
        status := .pass
        detail := s!"{root}/.forge is writable" }
      else {
        name := ".forge writable"
        status := .fail
        detail := s!"{root}/.forge is not writable"
        remedy := some "Check directory permissions" }

/-- `_adapter_check(root)`, of the statuses or of what getting them raised. -/
def adapterCheck (statuses : Except String (List AdapterStatus)) :
    Except ConfigException DoctorCheck :=
  match statuses with
  | .error error => do
      return { name := "Adapters", status := .info, detail := ← firstLineOf s!"skipped — {error}" }
  | .ok statuses =>
      let available := (statuses.filter fun status => status.available).map
        AdapterStatus.adapterId
      let unavailable := (statuses.filter fun status => !status.available).map fun status =>
        s!"{status.adapterId} ({status.reason})"
      let names := if available.isEmpty then "none" else ", ".intercalate available
      let detail := s!"{available.length} available: {names}"
      .ok {
        name := "Adapters"
        status := .info
        detail :=
          if unavailable.isEmpty then detail
          else detail ++ s!"; {unavailable.length} unavailable: " ++ ", ".intercalate unavailable }

/-- What `forge doctor` finds around the configuration. -/
structure DoctorEnv where
  installChecks : List DoctorCheck
  /-- The project that is found, if one is. -/
  root : Option String
  writable : Bool
  adapters : Except String (List AdapterStatus)

/-- `DoctorUseCases.run()`. -/
def runDoctor (env : DoctorEnv) (file : ConfigBytes) :
    Except ConfigException (List DoctorCheck) :=
  match env.root with
  | none => .ok (env.installChecks ++ [{
      name := "Forge project"
      status := .info
      detail := "skipped — not in a Forge project"
      remedy := some "`forge init` to create one" }])
  | some root => do
      let config ← checkConfigValid host (some root) file
      let adapters ← adapterCheck env.adapters
      return env.installChecks ++ [
        { name := "Forge project", status := .pass, detail := s!"detected at {root}" },
        config, checkForgeWritable (some root) env.writable, adapters]

end Doctor

/-! ### The observer -/

/-- The settings of the observer, without the extra fields that are allowed. -/
structure ObserverConfig where
  enabled : Bool := false
  pollIntervalSeconds : PyFloat := .finite 60
  acpSessionCleanupIntervalSeconds : PyFloat := .finite 300
  acpAgentHealthIntervalSeconds : PyFloat := .finite 300
  metricsIntervalSeconds : PyFloat := .finite 300
  staleSessionMaxAgeSeconds : PyFloat := .finite 3600

section Observer

variable (host : ConfigHost)

/-- A field with a default; none is a problem. -/
def observerField {α : Type} (raw : YamlMapping) (key : String) (default : α)
    (read : YamlValue → Option α) : Option α :=
  match Dict.get? raw (.str key) with
  | some value => read value
  | none => some default

/-- `ObserverConfig.model_validate(raw)`; none is a `ValidationError`. -/
def ObserverConfig.modelValidate (raw : YamlMapping) : Option ObserverConfig := do
  let enabled ← observerField raw "enabled" false YamlValue.laxBool?
  let poll ← observerField raw "poll_interval_seconds" (.finite 60) host.laxFloat
  let cleanup ← observerField raw "acp_session_cleanup_interval_seconds" (.finite 300)
    host.laxFloat
  let health ← observerField raw "acp_agent_health_interval_seconds" (.finite 300) host.laxFloat
  let metrics ← observerField raw "metrics_interval_seconds" (.finite 300) host.laxFloat
  let stale ← observerField raw "stale_session_max_age_seconds" (.finite 3600) host.laxFloat
  guard (raw.all fun entry => match entry.1 with | .str _ => true | _ => false)
  return {
    enabled := enabled
    pollIntervalSeconds := poll
    acpSessionCleanupIntervalSeconds := cleanup
    acpAgentHealthIntervalSeconds := health
    metricsIntervalSeconds := metrics
    staleSessionMaxAgeSeconds := stale }

/-- `load_observer_config(project_root)`; none is a file that does not exist. -/
def loadObserverConfig (root : String) (file : Option ConfigBytes) :
    Except ConfigException ObserverConfig :=
  match file with
  | none => .ok {}
  | some file =>
      match loadConfig host s!"{root}/.forge/config.yaml" file with
      | .error (.config _) => .ok {}
      | .error other => .error other
      | .ok config =>
          match Dict.get? config.features "observer" with
          | some (.bool true) => .ok { enabled := true }
          | some (.map raw) => .ok ((ObserverConfig.modelValidate host raw).getD {})
          | _ => .ok {}

end Observer

/-! ### What escapes -/

/-- Loading returns a configuration or raises the loader's error. -/
def FailsOneWay (host : ConfigHost) (path : String) (file : ConfigBytes) : Prop :=
  ∀ exception, loadConfig host path file = .error exception →
    ∃ message, exception = .config message

/-- The bytes are text, and if they are a mapping it has no blank schema version
and no blank default adapter. -/
def Clean (host : ConfigHost) (bytes : List UInt8) : Prop :=
  ∃ text, readText bytes = some text ∧ ∀ raw, host.safeLoad text = .ok (.map raw) →
    ¬Blank raw "schema_version" ∧ ¬Blank raw "default_adapter"

theorem append_ne_empty_left {a : String} (h : a ≠ "") (b : String) : a ++ b ≠ "" := by
  simp [h]

theorem append_ne_empty_right (a : String) {b : String} (h : b ≠ "") : a ++ b ≠ "" := by
  simp [h]

section Escapes

variable {host : ConfigHost} {bytes : List UInt8}

theorem validationText_ne_empty (host : ConfigHost) (problems : List Problem) :
    validationText host problems ≠ "" :=
  append_ne_empty_left (append_ne_empty_right _ (by decide)) _

theorem loadConfig_of_undecodable (h : readText bytes = none) (path : String) :
    loadConfig host path (.content bytes) = .error .unicodeDecode := by
  rw [loadConfig, readYamlMapping, h]
  rfl

/-- Text that is no mapping makes the loader raise its own error. -/
theorem loadConfig_of_not_mapping {text : String} (htext : readText bytes = some text)
    (h : ∀ raw, host.safeLoad text ≠ .ok (.map raw)) (path : String) :
    ∃ message, message ≠ "" ∧ loadConfig host path (.content bytes) = .error (.config message) := by
  rw [loadConfig, readYamlMapping, htext]
  dsimp only
  split
  · exact ⟨_, append_ne_empty_left (by decide) path, rfl⟩
  · exact ⟨_, append_ne_empty_left (by decide) path, rfl⟩
  · rename_i raw hraw
    exact absurd hraw (h raw)
  · exact ⟨_, append_ne_empty_left (by decide) path, rfl⟩

theorem loadConfig_of_mapping {text : String} (htext : readText bytes = some text)
    {raw : YamlMapping} (hraw : host.safeLoad text = .ok (.map raw)) (path : String) :
    loadConfig host path (.content bytes) =
      match modelValidate raw with
      | .ok config => .ok config
      | .error (.problems problems) => .error (.config (validationText host problems))
      | .error (.schema error) => .error (.schema error.message) := by
  rw [loadConfig, readYamlMapping, htext]
  dsimp only
  rw [hraw]
  dsimp only [ok_bind, error_bind]
  rcases modelValidate raw with (problems | error) | config <;> rfl

/-- Clean bytes give a configuration, or the loader's error with a message. -/
theorem loadConfig_of_clean (h : Clean host bytes) (path : String) :
    (∃ config, loadConfig host path (.content bytes) = .ok config) ∨
      ∃ message, message ≠ "" ∧
        loadConfig host path (.content bytes) = .error (.config message) := by
  obtain ⟨text, htext, hfields⟩ := h
  by_cases hmapping : ∃ raw, host.safeLoad text = .ok (.map raw)
  · obtain ⟨raw, hraw⟩ := hmapping
    have hquiet : ¬∃ error, modelValidate raw = .error (.schema error) := by
      rw [modelValidate_schema_iff, not_or]
      exact hfields raw hraw
    rw [loadConfig_of_mapping htext hraw]
    rcases hvalid : modelValidate raw with (problems | error) | config
    · exact .inr ⟨_, validationText_ne_empty host problems, rfl⟩
    · exact absurd ⟨error, hvalid⟩ hquiet
    · exact .inl ⟨config, rfl⟩
  · exact .inr (loadConfig_of_not_mapping htext (fun raw hraw => hmapping ⟨raw, hraw⟩) path)

/-- Other bytes let another error escape. -/
theorem loadConfig_of_not_clean (h : ¬Clean host bytes) (path : String) :
    ∃ exception, loadConfig host path (.content bytes) = .error exception ∧
      ∀ message, exception ≠ .config message := by
  cases htext : readText bytes with
  | none => exact ⟨_, loadConfig_of_undecodable htext path, nofun⟩
  | some text =>
      have hmapping : ∃ raw, host.safeLoad text = .ok (.map raw) ∧
          (Blank raw "schema_version" ∨ Blank raw "default_adapter") := by
        by_contra hnone
        refine h ⟨text, htext, fun raw hraw => ?_⟩
        rw [← not_or]
        exact fun hblank => hnone ⟨raw, hraw, hblank⟩
      obtain ⟨raw, hraw, hblank⟩ := hmapping
      obtain ⟨error, herror⟩ := (modelValidate_schema_iff raw).mpr hblank
      exact ⟨.schema error.message, by rw [loadConfig_of_mapping htext hraw, herror], nofun⟩

theorem failsOneWay_iff (host : ConfigHost) (path : String) (bytes : List UInt8) :
    FailsOneWay host path (.content bytes) ↔ Clean host bytes := by
  constructor
  · intro h
    by_contra hclean
    obtain ⟨exception, hexception, hother⟩ := loadConfig_of_not_clean hclean path
    obtain ⟨message, hmessage⟩ := h exception hexception
    exact hother message hmessage
  · intro hclean exception hexception
    rcases loadConfig_of_clean hclean path with ⟨config, hconfig⟩ | ⟨message, -, hmessage⟩
    · cases hconfig.symm.trans hexception
    · exact ⟨message, (Except.error.inj (hmessage.symm.trans hexception)).symm⟩

theorem firstLineOf_ok {text : String} (h : text ≠ "") : ∃ line, firstLineOf text = .ok line := by
  unfold firstLineOf firstOfLines?
  rw [if_neg h]
  exact ⟨_, rfl⟩

theorem adapterCheck_ok (statuses : Except String (List AdapterStatus)) :
    ∃ check, adapterCheck statuses = .ok check := by
  cases statuses with
  | error error =>
      have hmessage : s!"skipped — {error}" ≠ "" := append_ne_empty_left (by decide) _
      obtain ⟨line, hline⟩ := firstLineOf_ok hmessage
      rw [adapterCheck, hline]
      exact ⟨_, rfl⟩
  | ok statuses => exact ⟨_, rfl⟩

/-- The check of the configuration returns exactly for clean bytes. -/
theorem checkConfigValid_isOk_iff (host : ConfigHost) (root : String) (bytes : List UInt8) :
    (checkConfigValid host (some root) (.content bytes)).isOk = true ↔ Clean host bytes := by
  unfold checkConfigValid
  dsimp only
  by_cases hclean : Clean host bytes
  · refine iff_of_true ?_ hclean
    rcases loadConfig_of_clean hclean s!"{root}/.forge/config.yaml" with
      ⟨config, hconfig⟩ | ⟨message, hmessage, hraised⟩
    · rw [hconfig]
      rfl
    · obtain ⟨line, hline⟩ := firstLineOf_ok hmessage
      rw [hraised]
      dsimp only
      rw [hline]
      rfl
  · refine iff_of_false ?_ hclean
    obtain ⟨exception, hraised, hother⟩ :=
      loadConfig_of_not_clean hclean s!"{root}/.forge/config.yaml"
    rw [hraised]
    cases exception with
    | config message => exact absurd rfl (hother message)
    | _ => exact Bool.false_ne_true

/-- So does the doctor, in a project. -/
theorem runDoctor_isOk_iff (host : ConfigHost) (env : DoctorEnv) (root : String)
    (bytes : List UInt8) :
    (runDoctor host { env with root := some root } (.content bytes)).isOk = true ↔
      Clean host bytes := by
  rw [← checkConfigValid_isOk_iff host root bytes, runDoctor]
  obtain ⟨adapters, hadapters⟩ := adapterCheck_ok env.adapters
  dsimp only
  rw [hadapters]
  cases checkConfigValid host (some root) (.content bytes) with
  | error exception => rfl
  | ok check => rfl

theorem loadObserverConfig_isOk_iff (host : ConfigHost) (root : String) (bytes : List UInt8) :
    (loadObserverConfig host root (some (.content bytes))).isOk = true ↔ Clean host bytes := by
  unfold loadObserverConfig
  dsimp only
  by_cases hclean : Clean host bytes
  · refine iff_of_true ?_ hclean
    rcases loadConfig_of_clean hclean s!"{root}/.forge/config.yaml" with
      ⟨config, hconfig⟩ | ⟨message, -, hraised⟩
    · rw [hconfig]
      dsimp only
      split <;> rfl
    · rw [hraised]
      rfl
  · refine iff_of_false ?_ hclean
    obtain ⟨exception, hraised, hother⟩ :=
      loadConfig_of_not_clean hclean s!"{root}/.forge/config.yaml"
    rw [hraised]
    cases exception with
    | config message => exact absurd rfl (hother message)
    | _ => exact Bool.false_ne_true

end Escapes

/-- Loading fails in one way only, and the doctor and the observer return,
exactly if the bytes are text that does not leave the schema version or the
default adapter blank. Undecodable bytes and blank values raise errors that
neither the loader nor its callers expect. -/
theorem fails_one_way_iff (host : ConfigHost) (bytes : List UInt8) :
    (∀ path, FailsOneWay host path (.content bytes) ↔ Clean host bytes) ∧
    (∀ (env : DoctorEnv) root,
      (runDoctor host { env with root := some root } (.content bytes)).isOk = true ↔
        Clean host bytes) ∧
    ∀ root, (loadObserverConfig host root (some (.content bytes))).isOk = true ↔
      Clean host bytes :=
  ⟨fun path => failsOneWay_iff host path bytes,
    fun env root => runDoctor_isOk_iff host env root bytes,
    fun root => loadObserverConfig_isOk_iff host root bytes⟩

/-- A host that knows one text, `default_adapter: ' '`. -/
def blankAdapterHost : ConfigHost where
  safeLoad := fun text =>
    if text = "default_adapter: ' '\n" then .ok (.map [(.str "default_adapter", .str " ")])
    else .error "not known"
  describe := fun _ => ""
  laxFloat := fun _ => none

def blankAdapterBytes : List UInt8 := [
  0x64, 0x65, 0x66, 0x61, 0x75, 0x6c, 0x74, 0x5f, 0x61, 0x64, 0x61, 0x70, 0x74, 0x65, 0x72, 0x3a,
  0x20, 0x27, 0x20, 0x27, 0x0a]

theorem not_clean_invalidByte (host : ConfigHost) : ¬Clean host [0xff] := by
  have hread : readText [0xff] = none := by decide
  rintro ⟨text, htext, -⟩
  cases hread.symm.trans htext

theorem not_clean_blankAdapter : ¬Clean blankAdapterHost blankAdapterBytes := by
  have hread : readText blankAdapterBytes = some "default_adapter: ' '\n" := by decide
  rintro ⟨text, htext, hfields⟩
  obtain rfl := Option.some.inj (hread.symm.trans htext)
  exact (hfields _ rfl).2 ⟨.str " ", " ", rfl, rfl, by decide⟩

/-- Of these bytes the loader, the doctor and the observer all raise what they
should not. -/
def FailsOtherWays (bytes : List UInt8) : Prop :=
  ¬FailsOneWay blankAdapterHost "/p/.forge/config.yaml" (.content bytes) ∧
    ¬(runDoctor blankAdapterHost ⟨[], some "/p", true, .ok []⟩ (.content bytes)).isOk = true ∧
    ¬(loadObserverConfig blankAdapterHost "/p" (some (.content bytes))).isOk = true

theorem failsOtherWays_of_not_clean {bytes : List UInt8} (h : ¬Clean blankAdapterHost bytes) :
    FailsOtherWays bytes := by
  refine ⟨?_, ?_, ?_⟩
  · rw [failsOneWay_iff]
    exact h
  · rw [runDoctor_isOk_iff blankAdapterHost ⟨[], none, true, .ok []⟩ "/p"]
    exact h
  · rw [loadObserverConfig_isOk_iff]
    exact h

/-- A byte that is no UTF-8 does it, and so does a blank default adapter. -/
theorem fails_other_ways : FailsOtherWays [0xff] ∧ FailsOtherWays blankAdapterBytes :=
  ⟨failsOtherWays_of_not_clean (not_clean_invalidByte blankAdapterHost),
    failsOtherWays_of_not_clean not_clean_blankAdapter⟩

end Config

end ForgeOS
