import ForgeOS.Adapters.Bridge
import ForgeOS.Config.Writer
import ForgeOS.Project.Initialize
import Mathlib.Data.List.Sort

/-!
The selection of a kernel adapter: the registry that constructs adapters, and
the commands that enable, disable and choose them in `.forge/config.yaml`. Seen
from outside, the file is a board of switches with one adapter chosen.
-/

namespace ForgeOS

open Library

/-! ### The registry -/

/-- What constructing an adapter comes to: its optional capabilities, or an
exception. -/
abbrev AdapterFactory := Dict String YamlValue → Except PyError (List String)

/-- Construct adapters by id. -/
structure AdapterRegistry where
  factories : Dict String AdapterFactory

inductive CreatedAdapter where
  /-- `PlaceholderAdapter` -/
  | placeholder (adapterId : String)
  | adapter (optionalCapabilities : List String)

namespace AdapterRegistry

def registryError (message : String) : PyError := ⟨"AdapterRegistryError", message⟩

variable (registry : AdapterRegistry)

def create (adapterId : String) (config : Dict String YamlValue) : Except PyError CreatedAdapter :=
  match Dict.get? registry.factories adapterId with
  | none =>
      if adapterId ∈ adapterPriority then .ok (.placeholder adapterId)
      else .error (registryError s!"Unknown adapter \x60{adapterId}\x60.")
  | some factory => (factory config).map .adapter

/-- `create_adapter_from_config`, without a store to bind. -/
def createAdapterFromConfig (truthy : YamlValue → Bool) (config : Config.ForgeConfig) :
    Except PyError CreatedAdapter :=
  let adapterId := config.defaultAdapter
  let adapterConfig := (Dict.get? config.adapters adapterId).getD []
  let enabled := (Dict.get? adapterConfig "enabled").getD (.bool (adapterId = "dummy"))
  if truthy enabled then registry.create adapterId adapterConfig
  else .error (registryError s!"Configured default adapter \x60{adapterId}\x60 is disabled.")

end AdapterRegistry

/-! ### The use cases -/

/-- Result of toggling an adapter's enabled/default state in config. -/
structure AdapterMutation where
  adapterId : String
  enabled : Bool
  isDefault : Bool
  available : Bool
  reason : String
  changed : Bool
deriving DecidableEq, Repr

/-- What the commands raise. -/
inductive AdapterCommandError where
  /-- `AdapterRegistryError` -/
  | registry (message : String)
  | config (error : Config.ConfigException)
  /-- A `ValidationError`, or an error of a validator. -/
  | validation (error : Config.ValidationRaise)
  | save (error : Config.SaveError)

structure AdapterUseCases where
  codec : Config.ConfigCodec
  registry : AdapterRegistry
  configPath : String

/-- A call of `set_enabled`, and whether the disk takes what is written. -/
structure AdapterCommand where
  adapterId : String
  enabled : Bool
  makeDefault : Bool
  disk : Except String Unit

namespace AdapterUseCases

/-- Selectability snapshot for one kernel adapter, of which the doctor is told a
part. -/
structure Status extends Config.AdapterStatus where
  implementation : String
  enabled : Bool
  isDefault : Bool
  capabilities : List String
deriving DecidableEq, Repr

def unknownAdapter (adapterId : String) : AdapterCommandError :=
  .registry (s!"Unknown adapter \x60{adapterId}\x60. Known adapters: " ++
    ", ".intercalate adapterPriority ++ ".")

def defaultStays (adapterId : String) : AdapterCommandError :=
  .registry (s!"Cannot disable \x60{adapterId}\x60 while it is the default adapter. " ++
    "Set another adapter as default first: \x60forge adapter enable <id> --default\x60.")

/-- The value under a key, which is an object. -/
def objectAt (data : JsonObject) (key : String) : Option JsonObject :=
  match Dict.get? data key with
  | some (.obj entries) => some entries
  | _ => none

variable (useCases : AdapterUseCases)

def probe (adapterId : String) (adapterConfig : Dict String YamlValue) :
    Bool × String × List String :=
  match useCases.registry.create adapterId adapterConfig with
  | .error error => (false, error.message, [])
  | .ok (.placeholder _) => (false, "not implemented", [])
  | .ok (.adapter capabilities) => (true, "", capabilities.insertionSort (· ≤ ·))

/-- The snapshot of one adapter. -/
def statusOf (config : Config.ForgeConfig) (adapterId : String) : Status :=
  let adapterConfig := (Dict.get? config.adapters adapterId).getD []
  let enabled := (Dict.get? adapterConfig "enabled").getD (.bool (adapterId = "dummy"))
  let probed := useCases.probe adapterId adapterConfig
  { adapterId
    implementation := adapterClassName adapterId
    enabled := useCases.codec.truthy enabled
    isDefault := adapterId = config.defaultAdapter
    available := probed.1
    reason := probed.2.1
    capabilities := probed.2.2 }

/-- Return a selectability snapshot for every adapter, in priority order. -/
def status (file : Config.ConfigBytes) : Except Config.ConfigException (List Status) :=
  (Config.loadConfig useCases.codec.toConfigHost useCases.configPath file).map fun config =>
    adapterPriority.map (useCases.statusOf config)

/-- What `set_enabled` returns. -/
def mutationOf (config : Config.ForgeConfig) (command : AdapterCommand) (changed : Bool) :
    AdapterMutation :=
  let adapterId := command.adapterId
  let probed := useCases.probe adapterId ((Dict.get? config.adapters adapterId).getD [])
  { adapterId
    enabled := command.enabled || command.makeDefault
    isDefault := config.defaultAdapter = adapterId
    available := probed.1
    reason := probed.2.1
    changed }

/-- Enable/disable an adapter (and optionally make it the default kernel). -/
def setEnabled (command : AdapterCommand) :
    Effect Config.ConfigBytes AdapterCommandError AdapterMutation := do
  let adapterId := command.adapterId
  if adapterId ∉ adapterPriority then throw (unknownAdapter adapterId)
  let settings ← Effect.ofExcept
    ((Config.loadSettings useCases.codec useCases.configPath (← get)).mapError .config)
  if !command.enabled ∧ adapterId = settings.defaultAdapter then throw (defaultStays adapterId)
  let enabled := command.enabled || command.makeDefault
  let data ← Effect.ofExcept
    ((settings.modelDump useCases.codec).mapError fun error => .save (.serialization error))
  let adapters := (objectAt data "adapters").getD []
  -- A hand-trimmed file may have no row of a known adapter.
  let entry := (objectAt adapters adapterId).getD
    [("implementation", .str (adapterClassName adapterId))]
  let wasEnabled := ((Dict.get? entry "enabled").getD (.bool (adapterId = "dummy"))).truthy
  let wasDefault : Bool := (Dict.get? data "default_adapter").bind Json.str? = some adapterId
  let data := data.set "adapters"
    (.obj (adapters.set adapterId (.obj (entry.set "enabled" (.bool enabled)))))
  let data := if command.makeDefault then data.set "default_adapter" (.str adapterId) else data
  let raw := Json.toYamlEntries data
  let validated ← Effect.ofExcept ((Config.modelValidate raw).mapError .validation)
  let changed := wasEnabled != enabled || (command.makeDefault && !wasDefault)
  if changed then
    (Config.saveConfig useCases.codec useCases.configPath command.disk
      (.ofRaw raw validated)).mapError .save
  return useCases.mutationOf validated command changed

def fileAfter (file : Config.ConfigBytes) (commands : List AdapterCommand) : Config.ConfigBytes :=
  run (fun file command => ((useCases.setEnabled command).exec file).2) file commands

end AdapterUseCases

/-! ### The board -/

/-- Which adapters are enabled, and which one is chosen. -/
structure Switchboard where
  enabled : String → Bool
  chosen : String

namespace Switchboard

variable (board : Switchboard) (command : AdapterCommand)

/-- The adapter is known, and not the chosen one that is to be disabled. -/
def accepts : Bool :=
  command.adapterId ∈ adapterPriority &&
    (command.enabled || command.adapterId ≠ board.chosen)

/-- The board with the switch turned. -/
def turn : Switchboard where
  enabled := fun adapterId =>
    if adapterId = command.adapterId then command.enabled || command.makeDefault
    else board.enabled adapterId
  chosen := if command.makeDefault then command.adapterId else board.chosen

/-- Something would be another way than it is. -/
def changes : Bool :=
  board.enabled command.adapterId != (command.enabled || command.makeDefault) ||
    (command.makeDefault && board.chosen ≠ command.adapterId)

/-- A command turns a switch if it is accepted and the disk takes the file. -/
def step : Switchboard :=
  if board.accepts command && command.disk.isOk then board.turn command else board

/-- The board of a configuration. -/
def ofConfig (truthy : YamlValue → Bool) (config : Config.ForgeConfig) : Switchboard where
  enabled := fun adapterId =>
    truthy ((Dict.get? ((Dict.get? config.adapters adapterId).getD []) "enabled").getD
      (.bool (adapterId = "dummy")))
  chosen := config.defaultAdapter

theorem step_of_not_accepts {board : Switchboard} {command : AdapterCommand}
    (h : board.accepts command = false) : board.step command = board := by
  rw [step, h]
  rfl

theorem turn_of_not_changes {board : Switchboard} {command : AdapterCommand}
    (h : board.changes command = false) : board.turn command = board := by
  obtain ⟨hswitch, hchosen⟩ := Bool.or_eq_false_iff.mp h
  have henabled : (board.turn command).enabled = board.enabled := by
    funext adapterId
    rw [turn]
    dsimp only
    split
    · rename_i hsame
      rw [hsame]
      exact (bne_eq_false_iff_eq.mp hswitch).symm
    · rfl
  have hstays : (board.turn command).chosen = board.chosen := by
    rw [turn]
    dsimp only
    split
    · rename_i hdefault
      rw [hdefault, Bool.true_and, decide_eq_false_iff_not, not_not] at hchosen
      exact hchosen.symm
    · rfl
  calc board.turn command
      = ⟨(board.turn command).enabled, (board.turn command).chosen⟩ := rfl
    _ = board := by rw [henabled, hstays]

/-- The chosen adapter stays enabled: it is never the one that is disabled, and
a new one is enabled when it is chosen. -/
theorem step_enabled_chosen {board : Switchboard} (h : board.enabled board.chosen = true)
    (command : AdapterCommand) :
    (board.step command).enabled (board.step command).chosen = true := by
  unfold step
  split
  · rename_i htaken
    obtain ⟨haccepts, -⟩ := Bool.and_eq_true_iff.mp htaken
    obtain ⟨-, hdisable⟩ := Bool.and_eq_true_iff.mp haccepts
    unfold turn
    dsimp only
    cases hdefault : command.makeDefault with
    | true => simp
    | false =>
        rw [if_neg Bool.false_ne_true, Bool.or_false]
        split
        · rename_i hsame
          rcases Bool.or_eq_true_iff.mp hdisable with henabled | hother
          · exact henabled
          · exact absurd hsame.symm (of_decide_eq_true hother)
        · exact h
  · exact h

theorem run_enabled_chosen {board : Switchboard} (h : board.enabled board.chosen = true)
    (commands : List AdapterCommand) :
    (run step board commands).enabled (run step board commands).chosen = true :=
  run_invariant (I := fun board : Switchboard => board.enabled board.chosen = true) h
    fun _ command _ hboard => step_enabled_chosen hboard command

end Switchboard

/-! ### Plain settings -/

namespace Config.Settings

/-- The switch of an adapter. -/
def isEnabled (plain : Settings Json) (adapterId : String) : Bool :=
  ((Dict.get? ((Dict.get? plain.adapters adapterId).getD []) "enabled").getD
    (.bool (adapterId = "dummy"))).truthy

/-- The switch of an adapter as it is read. -/
def readsEnabled (codec : Config.ConfigCodec) (settings : Settings YamlValue)
    (adapterId : String) : Bool :=
  codec.truthy ((Dict.get? ((Dict.get? settings.adapters adapterId).getD []) "enabled").getD
    (.bool (adapterId = "dummy")))

/-- No adapter has NaN or an infinite float as its switch. -/
def SwitchesFinite (settings : Settings YamlValue) : Prop :=
  ∀ adapterId row value, Dict.get? settings.adapters adapterId = some row →
    Dict.get? row "enabled" = some value → isFinite value = true

/-- The row of an adapter, or that of a new one. -/
def row (plain : Settings Json) (adapterId : String) : JsonObject :=
  (Dict.get? plain.adapters adapterId).getD [("implementation", .str (adapterClassName adapterId))]

/-- The settings with a switch turned. -/
def turned (plain : Settings Json) (command : AdapterCommand) : Settings Json :=
  { plain with
    adapters := plain.adapters.set command.adapterId ((plain.row command.adapterId).set "enabled"
      (.bool (command.enabled || command.makeDefault)))
    defaultAdapter := if command.makeDefault then command.adapterId else plain.defaultAdapter }

def board (plain : Settings Json) : Switchboard where
  enabled := plain.isEnabled
  chosen := plain.defaultAdapter

theorem isEnabled_row (plain : Settings Json) (adapterId : String) :
    ((Dict.get? (plain.row adapterId) "enabled").getD (.bool (adapterId = "dummy"))).truthy =
      plain.isEnabled adapterId := by
  unfold row isEnabled
  cases Dict.get? plain.adapters adapterId with
  | none => rfl
  | some row => rfl

theorem isEnabled_turned (plain : Settings Json) (command : AdapterCommand) (adapterId : String) :
    (plain.turned command).isEnabled adapterId =
      if adapterId = command.adapterId then command.enabled || command.makeDefault
      else plain.isEnabled adapterId := by
  unfold isEnabled turned
  dsimp only
  rw [Dict.get?_set]
  by_cases hsame : command.adapterId = adapterId
  · rw [if_pos hsame, if_pos hsame.symm, Option.getD_some, Dict.get?_set, if_pos rfl]
    rfl
  · rw [if_neg hsame, if_neg (Ne.symm hsame)]

theorem board_turned (plain : Settings Json) (command : AdapterCommand) :
    (plain.turned command).board = plain.board.turn command :=
  congrArg (Switchboard.mk · _) (funext (isEnabled_turned plain command))

theorem data_turned (plain : Settings Json) (command : AdapterCommand) :
    (plain.turned command).data =
      let data := plain.data.set "adapters" (.obj (Dict.set
        (plain.adapters.map fun row => (row.1, .obj row.2)) command.adapterId
          (.obj ((plain.row command.adapterId).set "enabled"
            (.bool (command.enabled || command.makeDefault))))))
      if command.makeDefault then data.set "default_adapter" (.str command.adapterId)
      else data := by
  rw [Dict.set_mapValues plain.adapters Json.obj]
  unfold turned
  cases command.makeDefault with
  | false => rfl
  | true => rfl

theorem Valid.turned {plain : Settings Json} (h : plain.Valid) {command : AdapterCommand}
    (hknown : command.adapterId ∈ adapterPriority) : (plain.turned command).Valid where
  schemaVersion := h.schemaVersion
  projectName := h.projectName
  defaultAdapter := by
    have hnames : ∀ adapterId ∈ adapterPriority, pyStrip adapterId ≠ "" := by decide
    unfold Settings.turned
    dsimp only
    split
    · exact hnames _ hknown
    · exact h.defaultAdapter
  adapters := Dict.nodup_keys_set h.adapters _ _
  rows := by
    intro row hrow
    rcases Dict.mem_set hrow with rfl | hold
    · refine Dict.nodup_keys_set ?_ _ _
      unfold Settings.row
      cases hfound : Dict.get? plain.adapters command.adapterId with
      | none => simp
      | some row => exact h.rows _ (Dict.mem_of_get? hfound)
    · exact h.rows row hold
  features := h.features
  projectExtra := h.projectExtra
  securityExtra := h.securityExtra
  hooksExtra := h.hooksExtra
  extra := h.extra

/-- Nothing else has changed: of the settings the rows and the chosen adapter
alone, and of a row the switch. -/
structure Keeps (plain plain' : Settings Json) : Prop where
  others : plain' =
    { plain with adapters := plain'.adapters, defaultAdapter := plain'.defaultAdapter }
  rows : ∀ {adapterId row}, Dict.get? plain.adapters adapterId = some row →
    ∃ row', Dict.get? plain'.adapters adapterId = some row' ∧
      ∀ key, key ≠ "enabled" → Dict.get? row' key = Dict.get? row key

theorem Keeps.refl (plain : Settings Json) : plain.Keeps plain :=
  ⟨rfl, fun hrow => ⟨_, hrow, fun _ _ => rfl⟩⟩

theorem Keeps.trans {plain middle last : Settings Json} (h : plain.Keeps middle)
    (h' : middle.Keeps last) : plain.Keeps last where
  others := by rw [h'.others, h.others]
  rows := by
    intro adapterId row hrow
    obtain ⟨row', hrow', hsame⟩ := h.rows hrow
    obtain ⟨row'', hrow'', hsame'⟩ := h'.rows hrow'
    exact ⟨row'', hrow'', fun key hkey => (hsame' key hkey).trans (hsame key hkey)⟩

theorem keeps_turned (plain : Settings Json) (command : AdapterCommand) :
    plain.Keeps (plain.turned command) where
  others := rfl
  rows := by
    intro adapterId row hrow
    unfold turned
    dsimp only
    by_cases hsame : command.adapterId = adapterId
    · refine ⟨_, by rw [Dict.get?_set, if_pos hsame], fun key hkey => ?_⟩
      rw [Dict.get?_set, if_neg (Ne.symm hkey), Settings.row, hsame, hrow, Option.getD_some]
    · refine ⟨row, ?_, fun _ _ => rfl⟩
      rw [Dict.get?_set, if_neg hsame, hrow]

section Dumping

variable {codec : Config.ConfigCodec} {settings : Settings YamlValue} {plain : Settings Json}

/-- A switch is read as it will be dumped. -/
theorem Plain.readsEnabled_eq (hcodec : codec.Lawful) (h : Plain codec settings plain)
    (hswitches : settings.SwitchesFinite) (adapterId : String) :
    settings.readsEnabled codec adapterId = plain.isEnabled adapterId := by
  have hdefault : codec.truthy (.bool (adapterId = "dummy")) =
      (Json.bool (adapterId = "dummy")).truthy := hcodec.truthy_toYaml (.bool (adapterId = "dummy"))
  have hrow := Dict.get?_traverse h.adapters adapterId
  have hfinite := hswitches adapterId
  unfold readsEnabled isEnabled
  generalize Dict.get? settings.adapters adapterId = row at hrow hfinite ⊢
  generalize Dict.get? plain.adapters adapterId = row' at hrow ⊢
  cases hrow with
  | none => exact hdefault
  | @some row row' hdumped =>
      have hswitch := Dict.get?_traverse hdumped "enabled"
      replace hfinite := fun value => hfinite row value rfl
      rw [Option.getD_some, Option.getD_some]
      generalize Dict.get? row "enabled" = switch at hswitch hfinite ⊢
      generalize Dict.get? row' "enabled" = switch' at hswitch ⊢
      cases hswitch with
      | none => exact hdefault
      | some hvalue => exact (hcodec.truthy_dumpAny (hfinite _ rfl) hvalue).symm

theorem readsEnabled_toYaml (hcodec : codec.Lawful) (plain : Settings Json) (adapterId : String) :
    (plain.map Json.toYaml).readsEnabled codec adapterId = plain.isEnabled adapterId := by
  have hdefault : codec.truthy (.bool (adapterId = "dummy")) =
      (Json.bool (adapterId = "dummy")).truthy := hcodec.truthy_toYaml (.bool (adapterId = "dummy"))
  unfold readsEnabled isEnabled Settings.map
  dsimp only
  rw [Dict.get?_mapValues plain.adapters fun row => row.map fun entry => (entry.1, entry.2.toYaml)]
  cases Dict.get? plain.adapters adapterId with
  | none => exact hdefault
  | some row =>
      rw [Option.map_some, Option.getD_some, Option.getD_some, Dict.get?_mapValues]
      cases Dict.get? row "enabled" with
      | none => exact hdefault
      | some value => exact hcodec.truthy_toYaml value

/-- A row with its switch turned is dumped as it is. -/
theorem Dumped.turned (hcodec : codec.Lawful) (h : plain.Dumped codec)
    (command : AdapterCommand) : (plain.turned command).Dumped codec where
  projectExtra := h.projectExtra
  adapters := by
    have hnew (value : Bool) : codec.dumpAny (Json.bool value).toYaml = .ok (.bool value) :=
      hcodec.dumpAny_toYaml (.bool value) rfl
    have hrow : DumpedValues codec (plain.row command.adapterId) := by
      unfold Settings.row
      cases hfound : Dict.get? plain.adapters command.adapterId with
      | none =>
          intro entry hentry
          obtain rfl := List.mem_singleton.mp hentry
          exact hcodec.dumpAny_toYaml (.str _) rfl
      | some row => exact h.adapters _ (Dict.mem_of_get? hfound)
    intro row hrows
    rcases Dict.mem_set hrows with rfl | hold
    · intro entry hentry
      rcases Dict.mem_set hentry with rfl | hentry
      · exact hnew _
      · exact hrow entry hentry
    · exact h.adapters row hold
  securityExtra := h.securityExtra
  hooksExtra := h.hooksExtra
  features := h.features
  extra := h.extra

theorem Plain.defaultAdapter_eq (h : Plain codec settings plain) :
    plain.defaultAdapter = settings.defaultAdapter := by
  rw [h.others]

end Dumping

end Config.Settings

/-! ### Runs of commands -/

namespace AdapterUseCases

open Config.Settings

variable {useCases : AdapterUseCases} {file : Config.ConfigBytes}
  {plain : Config.Settings Json}

/-- The file is loaded as settings that are dumped as these, and its switches are
read as they will be dumped. -/
def Reads (useCases : AdapterUseCases) (file : Config.ConfigBytes)
    (plain : Config.Settings Json) : Prop :=
  ∃ settings, Config.loadSettings useCases.codec useCases.configPath file = .ok settings ∧
    settings.plain useCases.codec = .ok plain ∧
    ∀ adapterId, settings.readsEnabled useCases.codec adapterId = plain.isEnabled adapterId

theorem Reads.valid (h : useCases.Reads file plain) : plain.Valid := by
  obtain ⟨settings, hload, hplain, -⟩ := h
  exact (plain_eq_ok_iff.mp hplain).valid (valid_of_loadSettings hload)

theorem Reads.dumped (hcodec : useCases.codec.Lawful) (h : useCases.Reads file plain) :
    plain.Dumped useCases.codec := by
  obtain ⟨settings, -, hplain, -⟩ := h
  exact (plain_eq_ok_iff.mp hplain).dumped hcodec

theorem reads_saved (hcodec : useCases.codec.Lawful) (h : plain.Valid)
    (hdumped : plain.Dumped useCases.codec) : useCases.Reads (plain.saved useCases.codec) plain :=
  ⟨_, loadSettings_saved hcodec h _, hdumped.plain_toYaml, readsEnabled_toYaml hcodec plain⟩

theorem objectAt_adapters (plain : Config.Settings Json) :
    objectAt plain.data "adapters" = some (plain.adapters.map fun row => (row.1, .obj row.2)) :=
  rfl

theorem objectAt_row (plain : Config.Settings Json) (adapterId : String) :
    objectAt (plain.adapters.map fun row => (row.1, .obj row.2)) adapterId =
      Dict.get? plain.adapters adapterId := by
  rw [objectAt, Dict.get?_mapValues]
  cases Dict.get? plain.adapters adapterId with
  | none => rfl
  | some row => rfl

/-- The new configuration is written if it differs. -/
theorem exec_saveConfig (hvalid : plain.Valid) (hdumped : plain.Dumped useCases.codec)
    (disk : Except String Unit) (file : Config.ConfigBytes) :
    (Config.saveConfig useCases.codec useCases.configPath disk
      (.ofRaw (Json.toYamlEntries plain.data) (plain.map Json.toYaml).config)).exec file =
      match disk with
      | .ok () => (.ok (), plain.saved useCases.codec)
      | .error error => (.error (.config
          s!"Could not write config file: {useCases.configPath}: {error}"), file) := by
  have hdump : ((Config.Settings.ofRaw (Json.toYamlEntries plain.data)
      (plain.map Json.toYaml).config).modelDump useCases.codec) = .ok plain.data := by
    rw [ofRaw_data hvalid, modelDump, hdumped.plain_toYaml]
    rfl
  rw [Config.saveConfig, hdump]
  cases disk with
  | ok written => rfl
  | error error => rfl

/-- What is compared before and after. -/
theorem changes_eq (plain : Config.Settings Json) (command : AdapterCommand) :
    plain.board.changes command =
      (((Dict.get? (plain.row command.adapterId) "enabled").getD
          (.bool (command.adapterId = "dummy"))).truthy !=
            (command.enabled || command.makeDefault) ||
        command.makeDefault && !decide ((Dict.get? plain.data "default_adapter").bind Json.str? =
          some command.adapterId)) := by
  have hdefault : (Dict.get? plain.data "default_adapter").bind Json.str? =
      some plain.defaultAdapter := rfl
  rw [isEnabled_row, hdefault, Switchboard.changes, decide_not,
    decide_eq_decide.mpr Option.some_inj]
  rfl

theorem exec_setEnabled (hcodec : useCases.codec.Lawful) (h : useCases.Reads file plain)
    (command : AdapterCommand) :
    (useCases.setEnabled command).exec file =
      if command.adapterId ∉ adapterPriority then
        (.error (unknownAdapter command.adapterId), file)
      else if !command.enabled ∧ command.adapterId = plain.defaultAdapter then
        (.error (defaultStays command.adapterId), file)
      else
        let config := ((plain.turned command).map Json.toYaml).config
        if plain.board.changes command then
          match command.disk with
          | .ok () => (.ok (useCases.mutationOf config command true),
              (plain.turned command).saved useCases.codec)
          | .error error => (.error (.save (.config
              s!"Could not write config file: {useCases.configPath}: {error}")), file)
        else (.ok (useCases.mutationOf config command false), file) := by
  have hvalid := h.valid
  have hdumped := (h.dumped hcodec).turned hcodec command
  obtain ⟨settings, hload, hplain, -⟩ := h
  have hdefault := (plain_eq_ok_iff.mp hplain).defaultAdapter_eq
  by_cases hknown : command.adapterId ∉ adapterPriority
  · rw [if_pos hknown]
    unfold setEnabled
    simp only [if_pos hknown]
    rfl
  · rw [if_neg hknown]
    by_cases hdisable : !command.enabled ∧ command.adapterId = plain.defaultAdapter
    · rw [if_pos hdisable]
      unfold setEnabled
      rw [hdefault] at hdisable
      simp only [if_neg hknown, Effect.exec_bind, Effect.exec_get, Effect.exec_ofExcept, hload,
        ok_mapError, if_pos hdisable]
      rfl
    · rw [if_neg hdisable]
      have hturned := hvalid.turned (not_not.mp hknown)
      have hdump : settings.modelDump useCases.codec = .ok plain.data := by
        rw [modelDump, hplain]
        rfl
      unfold setEnabled
      rw [hdefault] at hdisable
      simp only [if_neg hknown, Effect.exec_bind, Effect.exec_get, Effect.exec_ofExcept, hload,
        ok_mapError, if_neg hdisable, hdump, objectAt_adapters, Option.getD_some, objectAt_row]
      have hdata := data_turned plain command
      have hchanged := changes_eq plain command
      simp only [Config.Settings.row] at hdata hchanged
      rw [← hdata, ← hchanged, modelValidate_data hturned]
      dsimp only [ok_mapError]
      cases plain.board.changes command with
      | false =>
          rw [if_neg Bool.false_ne_true, if_neg Bool.false_ne_true]
          rfl
      | true =>
          rw [if_pos rfl, if_pos rfl, Effect.exec_bind, Effect.exec_mapError,
            exec_saveConfig hturned hdumped]
          cases command.disk with
          | ok written => rfl
          | error error => rfl

theorem accepts_iff {command : AdapterCommand} :
    plain.board.accepts command = true ↔ command.adapterId ∈ adapterPriority ∧
      ¬(!command.enabled ∧ command.adapterId = plain.defaultAdapter) := by
  rw [Switchboard.accepts, Bool.and_eq_true, decide_eq_true_iff, Bool.or_eq_true,
    decide_eq_true_iff, Bool.not_eq_true', not_and, Config.Settings.board]
  cases command.enabled with
  | true => simp
  | false => simp

theorem accepts_eq_false_iff {command : AdapterCommand} :
    plain.board.accepts command = false ↔ command.adapterId ∉ adapterPriority ∨
      (!command.enabled ∧ command.adapterId = plain.defaultAdapter) := by
  rw [← Bool.not_eq_true, accepts_iff, Decidable.not_and_iff_not_or_not, Decidable.not_not]

/-- One command: what the file shows afterwards is the board after a step. -/
theorem Reads.step (hcodec : useCases.codec.Lawful) (h : useCases.Reads file plain)
    (command : AdapterCommand) :
    ∃ plain', useCases.Reads ((useCases.setEnabled command).exec file).2 plain' ∧
      plain'.board = plain.board.step command ∧ plain.Keeps plain' := by
  rw [exec_setEnabled hcodec h]
  by_cases hknown : command.adapterId ∉ adapterPriority
  · rw [if_pos hknown, Switchboard.step_of_not_accepts (accepts_eq_false_iff.mpr (.inl hknown))]
    exact ⟨plain, h, rfl, .refl plain⟩
  · rw [if_neg hknown]
    by_cases hdisable : !command.enabled ∧ command.adapterId = plain.defaultAdapter
    · rw [if_pos hdisable,
        Switchboard.step_of_not_accepts (accepts_eq_false_iff.mpr (.inr hdisable))]
      exact ⟨plain, h, rfl, .refl plain⟩
    · have haccepts := accepts_iff.mpr ⟨not_not.mp hknown, hdisable⟩
      rw [if_neg hdisable]
      dsimp only
      cases hchanges : plain.board.changes command with
      | false =>
          rw [if_neg Bool.false_ne_true]
          refine ⟨plain, h, ?_, .refl plain⟩
          rw [Switchboard.step, Switchboard.turn_of_not_changes hchanges, ite_self]
      | true =>
          rw [if_pos rfl]
          cases hdisk : command.disk with
          | error error =>
              refine ⟨plain, h, ?_, .refl plain⟩
              rw [Switchboard.step, hdisk, Except.isOk, Except.toBool, Bool.and_false,
                if_neg Bool.false_ne_true]
          | ok written =>
              have hturned := h.valid.turned (not_not.mp hknown)
              have hdumped := (h.dumped hcodec).turned hcodec command
              refine ⟨plain.turned command, reads_saved hcodec hturned hdumped, ?_,
                keeps_turned plain command⟩
              rw [board_turned, Switchboard.step, hdisk, haccepts]
              rfl

theorem Reads.run (hcodec : useCases.codec.Lawful) (h : useCases.Reads file plain)
    (commands : List AdapterCommand) :
    ∃ plain', useCases.Reads (useCases.fileAfter file commands) plain' ∧
      plain'.board = Library.run Switchboard.step plain.board commands ∧ plain.Keeps plain' := by
  induction commands generalizing file plain with
  | nil => exact ⟨plain, h, rfl, .refl plain⟩
  | cons command rest ih =>
      obtain ⟨middle, hmiddle, hboard, hkeeps⟩ := h.step hcodec command
      obtain ⟨last, hlast, hboards, hkept⟩ := ih hmiddle
      exact ⟨last, hlast, by rw [hboards, hboard]; rfl, hkeeps.trans hkept⟩

/-- What is shown of a file. -/
theorem Reads.config (h : useCases.Reads file plain) :
    ∃ config, Config.loadConfig useCases.codec.toConfigHost useCases.configPath file =
      .ok config ∧ Switchboard.ofConfig useCases.codec.truthy config = plain.board ∧
        config.project.name = plain.projectName := by
  obtain ⟨settings, hload, hplain, hswitches⟩ := h
  have hdumped := plain_eq_ok_iff.mp hplain
  refine ⟨settings.config, by rw [Config.loadConfig_eq, hload]; rfl, ?_, ?_⟩
  · rw [Switchboard.ofConfig, Config.Settings.board, hdumped.defaultAdapter_eq]
    exact congrArg (Switchboard.mk · _) (funext hswitches)
  · rw [hdumped.others]
    rfl

theorem mutationOf_board (command : AdapterCommand) (changed : Bool) :
    let mutation := useCases.mutationOf ((plain.turned command).map Json.toYaml).config command
      changed
    mutation.adapterId = command.adapterId ∧
      mutation.enabled = (plain.board.turn command).enabled command.adapterId ∧
      mutation.isDefault = decide ((plain.board.turn command).chosen = command.adapterId) ∧
      mutation.changed = changed :=
  ⟨rfl, (if_pos rfl).symm, rfl, rfl⟩

theorem Reads.outcome (hcodec : useCases.codec.Lawful) (h : useCases.Reads file plain)
    (command : AdapterCommand) :
    ((useCases.setEnabled command).exec file).1.isOk =
        (plain.board.accepts command && (command.disk.isOk || !plain.board.changes command)) ∧
      ∀ mutation, ((useCases.setEnabled command).exec file).1 = .ok mutation →
        mutation.adapterId = command.adapterId ∧
        mutation.enabled = (plain.board.turn command).enabled command.adapterId ∧
        mutation.isDefault = decide ((plain.board.turn command).chosen = command.adapterId) ∧
        mutation.changed = plain.board.changes command := by
  rw [exec_setEnabled hcodec h]
  by_cases hknown : command.adapterId ∉ adapterPriority
  · rw [if_pos hknown, accepts_eq_false_iff.mpr (.inl hknown)]
    exact ⟨rfl, nofun⟩
  · rw [if_neg hknown]
    by_cases hdisable : !command.enabled ∧ command.adapterId = plain.defaultAdapter
    · rw [if_pos hdisable, accepts_eq_false_iff.mpr (.inr hdisable)]
      exact ⟨rfl, nofun⟩
    · rw [if_neg hdisable, accepts_iff.mpr ⟨not_not.mp hknown, hdisable⟩]
      dsimp only
      cases hchanges : plain.board.changes command with
      | false =>
          rw [if_neg Bool.false_ne_true]
          refine ⟨by rw [Bool.not_false, Bool.or_true]; rfl, ?_⟩
          rintro mutation hmutation
          rw [← Except.ok.inj hmutation]
          exact mutationOf_board command false
      | true =>
          rw [if_pos rfl]
          cases hdisk : command.disk with
          | error error => exact ⟨rfl, nofun⟩
          | ok written =>
              refine ⟨rfl, ?_⟩
              rintro mutation hmutation
              rw [← Except.ok.inj hmutation]
              exact mutationOf_board command true

/-- Whatever commands are given to a project whose configuration can be read and
dumped, without a switch that is no finite number, its file shows the board that
follows them. A switch is turned by the commands that are accepted and written
alone, every other setting stays, the status tells the board, and the next
command ends as the board says. If the chosen adapter was enabled, it never is a
disabled one that is constructed. -/
theorem run_setEnabled (useCases : AdapterUseCases) (hcodec : useCases.codec.Lawful)
    {file : Config.ConfigBytes} {settings : Config.Settings YamlValue}
    {plain : Config.Settings Json}
    (hload : Config.loadSettings useCases.codec useCases.configPath file = .ok settings)
    (hplain : settings.plain useCases.codec = .ok plain) (hswitches : settings.SwitchesFinite)
    (commands : List AdapterCommand) :
    let after := useCases.fileAfter file commands
    let board := Library.run Switchboard.step plain.board commands
    (∃ plain', useCases.Reads after plain' ∧ plain'.board = board ∧ plain.Keeps plain') ∧
    (∃ statuses, useCases.status after = .ok statuses ∧
      statuses.map (fun status => (status.adapterId, status.enabled, status.isDefault)) =
        adapterPriority.map fun adapterId =>
          (adapterId, board.enabled adapterId, decide (adapterId = board.chosen))) ∧
    (∀ command,
      ((useCases.setEnabled command).exec after).1.isOk =
        (board.accepts command && (command.disk.isOk || !board.changes command)) ∧
      ∀ mutation, ((useCases.setEnabled command).exec after).1 = .ok mutation →
        mutation.adapterId = command.adapterId ∧
        mutation.enabled = (board.turn command).enabled command.adapterId ∧
        mutation.isDefault = decide ((board.turn command).chosen = command.adapterId) ∧
        mutation.changed = board.changes command) ∧
    (plain.board.enabled plain.board.chosen = true →
      ∃ config, Config.loadConfig useCases.codec.toConfigHost useCases.configPath after =
          .ok config ∧
        useCases.registry.createAdapterFromConfig useCases.codec.truthy config =
          useCases.registry.create board.chosen
            ((Dict.get? config.adapters board.chosen).getD [])) := by
  have hstart : useCases.Reads file plain :=
    ⟨settings, hload, hplain, (plain_eq_ok_iff.mp hplain).readsEnabled_eq hcodec hswitches⟩
  obtain ⟨last, hlast, hboard, hkeeps⟩ := hstart.run hcodec commands
  obtain ⟨config, hconfig, hshown, -⟩ := hlast.config
  rw [hboard] at hshown
  dsimp only
  refine ⟨⟨last, hlast, hboard, hkeeps⟩,
    ⟨adapterPriority.map (useCases.statusOf config), ?_, ?_⟩, ?_, ?_⟩
  · rw [status, hconfig]
    rfl
  · rw [← hshown, List.map_map]
    rfl
  · rw [← hboard]
    exact hlast.outcome hcodec
  · intro henabled
    have hchosen := Switchboard.run_enabled_chosen henabled commands
    rw [← hshown] at hchosen ⊢
    exact ⟨config, hconfig, if_pos hchosen⟩

/-- A configuration of the required field alone. -/
def demoText : String := "project:\n  name: demo\n"

def demoRaw : YamlMapping := [(.str "project", .map [(.str "name", .str "demo")])]

def demoSettings {α : Type} : Config.Settings α where
  schemaVersion := "0.1"
  projectName := "demo"
  rootPolicy := "project_only"
  projectExtra := []
  profile := .minimal
  defaultAdapter := "dummy"
  adapters := []
  securityProfile := "baseline"
  securityExtra := []
  hooksEnabled := false
  hooksExtra := []
  features := []
  extra := []

/-- `forge adapter enable codex --default`. -/
def enableCodex : AdapterCommand := ⟨"codex", true, true, .ok ()⟩

/-- The file that `enableCodex` writes. -/
def codexText : String :=
  "schema_version: '0.1'\nproject:\n  name: demo\n  root_policy: project_only\n" ++
  "profile: minimal\ndefault_adapter: codex\nadapters:\n  codex:\n" ++
  "    implementation: CodexAdapter\n    enabled: true\nsecurity:\n  profile: baseline\n" ++
  "hooks:\n  enabled: false\nfeatures: \x7b\x7d\n"

noncomputable def demoUseCases : AdapterUseCases where
  codec := Config.knowingCodec demoText demoRaw codexText
    (demoSettings.turned enableCodex).data
  registry := ⟨[("codex", fun _ => .ok [])]⟩
  configPath := ".forge/config.yaml"

theorem demoUseCases_lawful : demoUseCases.codec.Lawful :=
  Config.knowingCodec_lawful _ _ (by decide) (by decide +kernel) (by decide) (by decide +kernel)

theorem loadSettings_demo :
    Config.loadSettings demoUseCases.codec demoUseCases.configPath
      (.content (encodeUtf8 demoText)) = .ok demoSettings := by
  have hread : readText (encodeUtf8 demoText) = some demoText := by decide
  have hload : demoUseCases.codec.safeLoad demoText = .ok (.map demoRaw) := by
    unfold demoUseCases Config.knowingCodec
    dsimp only
    rw [if_pos rfl]
  rw [Config.loadSettings, Config.readYamlMapping, hread]
  dsimp only
  rw [hload]
  rfl

theorem run_setEnabled_codex :
    ∃ statuses,
      demoUseCases.status (demoUseCases.fileAfter (.content (encodeUtf8 demoText))
        [enableCodex]) = .ok statuses ∧
      statuses.map (fun status => (status.adapterId, status.enabled, status.isDefault)) =
        [("dummy", true, false), ("claude_code", false, false), ("claude_raw", false, false),
          ("claude_sdk", false, false), ("codex", true, true), ("openclaw", false, false),
          ("opencode", false, false), ("local_llm", false, false), ("human", false, false)] := by
  have hplain : demoSettings.plain demoUseCases.codec = .ok demoSettings := rfl
  obtain ⟨-, hstatus, -⟩ :=
    run_setEnabled demoUseCases demoUseCases_lawful loadSettings_demo hplain nofun [enableCodex]
  exact hstatus

end AdapterUseCases

end ForgeOS
