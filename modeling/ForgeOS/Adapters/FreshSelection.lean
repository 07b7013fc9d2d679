import ForgeOS.Adapters.Selection

/-!
The adapters of a project from its initialization on. What `initialize_project`
writes is read by the commands that enable and choose adapters.
-/

namespace ForgeOS

open Library

/-! ### The file that is written -/

section Files

variable {host : InitHost} {args : InitArgs}

theorem writeText_ok {entry : TreePath × String} {tree tree' : Tree}
    (h : (writeText host args entry).exec tree = (.ok (), tree')) :
    tree' entry.1 = some (.file entry.2) := by
  rw [writeText, Effect.exec_bind_ok _ (Effect.exec_get tree)] at h
  dsimp only at h
  split at h
  · cases h
  · split at h
    · cases h
    · cases h
    · cases h
    · cases h
      exact tree.set_self _ _

/-- The first of the files is as it was written. -/
theorem forM_writeText_ok {entry : TreePath × String} {rest : List (TreePath × String)}
    {tree tree' : Tree}
    (h : ((entry :: rest).forM (writeText host args)).exec tree = (.ok (), tree'))
    (hfresh : entry.1 ∉ rest.map Prod.fst) : tree' entry.1 = some (.file entry.2) := by
  rw [List.forM_eq_forM, List.forM_cons] at h
  obtain ⟨_, middle, hfirst, hrest⟩ := Effect.ok_of_exec_bind h
  have hkept := forM_writeText_other host args middle hfresh
  rw [List.forM_eq_forM, hrest] at hkept
  exact hkept.trans (writeText_ok hfirst)

/-- A project that has been initialized has its configuration on disk. -/
theorem initializeProject_config {tree tree' : Tree}
    (h : (initializeProject host args).exec tree = (.ok (), tree')) :
    ∃ config, buildConfig args = .ok config ∧
      tree' (under [".forge", "config.yaml"]) = some (.file (host.yamlDump (.obj config))) := by
  rcases initializeProject_cases host args tree with
    ⟨⟨error, herror⟩, -⟩ | ⟨config, state, hconfig, -, hexec⟩
  · cases h.symm.trans herror
  · rw [hexec] at h
    obtain ⟨_, made, -, hfiles⟩ := Effect.ok_of_exec_bind h
    exact ⟨config, hconfig, forM_writeText_ok hfiles (List.nodup_cons.mp scaffoldPaths_nodup).1⟩

end Files

/-! ### The settings that are written -/

/-- The board of a new project. -/
def Switchboard.initial (defaultAdapter : String) : Switchboard where
  enabled := fun adapterId => adapterId = defaultAdapter
  chosen := defaultAdapter

open Config.Settings

/-- The settings of a new project. -/
def initialSettings (args : InitArgs) (profile : ProfileName) : Config.Settings Json where
  schemaVersion := "0.1"
  projectName := args.projectName
  rootPolicy := "project_only"
  projectExtra := []
  profile
  defaultAdapter := args.defaultAdapter
  adapters := adapterPriority.map fun adapterId =>
    (adapterId, adapterEntry args.defaultAdapter args.adapterOptions adapterId)
  securityProfile := "baseline"
  securityExtra := []
  hooksEnabled := false
  hooksExtra := []
  features := [("daemon", .bool false), ("channels", .bool false), ("openclaw", .bool false),
    ("plugins", .bool false), ("health_monitor", .bool false)]
  extra := []

section Initial

variable {args : InitArgs} {profile : ProfileName}

theorem exists_profile {name : String} (h : name ∈ ["minimal", "standard", "expert"]) :
    ∃ profile, Config.ProfileName.value profile = name := by
  simp only [List.mem_cons, List.not_mem_nil, or_false] at h
  rcases h with rfl | rfl | rfl
  · exact ⟨.minimal, rfl⟩
  · exact ⟨.standard, rfl⟩
  · exact ⟨.expert, rfl⟩

/-- The configuration that is written is that of the initial settings. -/
theorem buildConfig_ok {config : JsonObject} (h : buildConfig args = .ok config) :
    (∃ profile, config = (initialSettings args profile).data) ∧
      args.defaultAdapter ∈ adapterPriority ∧ args.projectName ≠ "" := by
  unfold buildConfig at h
  split at h
  · cases h
  · rename_i hprofile
    split at h
    · cases h
    · rename_i hknown
      split at h
      · cases h
      · rename_i hname
        obtain rfl := Except.ok.inj h
        obtain ⟨profile, hvalue⟩ := exists_profile (not_not.mp hprofile)
        refine ⟨⟨profile, ?_⟩, not_not.mp hknown, hname⟩
        rw [← hvalue]
        rfl

theorem keys_initialSettings :
    (initialSettings args profile).adapters.map Prod.fst = adapterPriority := rfl

theorem mem_adapterEntry {adapterId : String} {entry : String × Json}
    (h : entry ∈ adapterEntry args.defaultAdapter args.adapterOptions adapterId) :
    (entry = ("enabled", .bool (adapterId = args.defaultAdapter)) ∨
      entry = ("implementation", .str (adapterClassName adapterId)) ∨
      entry = ("phase", .str (if adapterId = "dummy" then "05" else "05.5"))) ∨
    entry ∈ args.adapterOptions := by
  unfold adapterEntry at h
  dsimp only at h
  split at h
  · refine (Dict.mem_update h).imp_left fun hplaceholder => ?_
    simpa using hplaceholder
  · exact .inl (by simpa using h)

theorem initialSettings_valid (hknown : args.defaultAdapter ∈ adapterPriority)
    (hname : args.projectName ≠ "") : (initialSettings args profile).Valid where
  schemaVersion := show pyStrip "0.1" ≠ "" by decide
  projectName := hname
  defaultAdapter := by
    have hnames : ∀ adapterId ∈ adapterPriority, pyStrip adapterId ≠ "" := by decide
    exact hnames _ hknown
  adapters := by
    rw [keys_initialSettings]
    decide
  rows := by
    intro row hrow
    obtain ⟨adapterId, -, rfl⟩ := List.mem_map.mp hrow
    unfold adapterEntry
    dsimp only
    split
    · exact Dict.nodup_keys_update (by simp) _
    · simp
  features := by simp [initialSettings]
  projectExtra := nofun
  securityExtra := nofun
  hooksExtra := nofun
  extra := nofun

/-- Only the chosen adapter is enabled, as long as the options do not say
otherwise. -/
theorem board_initialSettings (hknown : args.defaultAdapter ∈ adapterPriority)
    (hkeys : (args.adapterOptions.map Prod.fst).Nodup)
    (hoptions : "enabled" ∉ args.adapterOptions.map Prod.fst) :
    (initialSettings args profile).board = .initial args.defaultAdapter := by
  have hentry (adapterId : String) : Dict.get?
      (adapterEntry args.defaultAdapter args.adapterOptions adapterId) "enabled" =
        some (.bool (adapterId = args.defaultAdapter)) := by
    unfold adapterEntry
    dsimp only
    split
    · rw [Dict.get?_update hkeys, Dict.get?_eq_none hoptions, Option.none_or]
      rfl
    · rfl
  refine congrArg (Switchboard.mk · _) (funext fun adapterId => ?_)
  have hnodup : ((initialSettings args profile).adapters.map Prod.fst).Nodup := by
    rw [keys_initialSettings]
    decide
  rw [isEnabled]
  by_cases hlisted : adapterId ∈ adapterPriority
  · rw [Dict.get?_of_mem hnodup (List.mem_map.mpr ⟨adapterId, hlisted, rfl⟩), Option.getD_some,
      hentry, Option.getD_some]
    rfl
  · have hdummy : adapterId ≠ "dummy" := fun hsame => hlisted (hsame ▸ by decide)
    have hdefault : adapterId ≠ args.defaultAdapter := fun hsame => hlisted (hsame ▸ hknown)
    have habsent : adapterId ∉ (initialSettings args profile).adapters.map Prod.fst := hlisted
    rw [Dict.get?_eq_none habsent, Option.getD_none, Dict.get?_nil,
      Option.getD_none, Json.truthy, decide_eq_false hdummy, decide_eq_false hdefault]

theorem dumped_initialSettings {codec : Config.ConfigCodec} (hcodec : codec.Lawful)
    (hoptions : ∀ entry ∈ args.adapterOptions, entry.2.allFinite = true) :
    (initialSettings args profile).Dumped codec := by
  have hnone : DumpedValues codec [] := nofun
  have hfeatures : ∀ entry ∈ (initialSettings args profile).features,
      entry.2.allFinite = true := by simp [initialSettings, Json.allFinite]
  refine ⟨hnone, ?_, hnone, hnone, dumpedValues_of_allFinite hcodec hfeatures, hnone⟩
  intro row hrow
  obtain ⟨adapterId, -, rfl⟩ := List.mem_map.mp hrow
  refine dumpedValues_of_allFinite hcodec fun entry hentry => ?_
  rcases mem_adapterEntry hentry with hplaceholder | hoption
  · rcases hplaceholder with rfl | rfl | rfl <;> rfl
  · exact hoptions entry hoption

section Texts

variable {yaml : YamlHost}

/-- The texts of an entry come back from a dump. -/
def EntryKept (yaml : YamlHost) (entry : String × Json) : Prop :=
  yaml.text entry.1 = entry.1 ∧ ∀ value ∈ entry.2.strings, yaml.text value = value

theorem entryKept_str {key text : String} (hkey : key.toList.all isPrintable = true)
    (htext : yaml.text text = text) : EntryKept yaml (key, .str text) :=
  ⟨yaml.text_printable key hkey, List.forall_mem_singleton.mpr htext⟩

theorem entryKept_bool {key : String} (hkey : key.toList.all isPrintable = true) (value : Bool) :
    EntryKept yaml (key, .bool value) :=
  ⟨yaml.text_printable key hkey, nofun⟩

theorem entryKept_obj {key : String} (hkey : key.toList.all isPrintable = true)
    {entries : JsonObject} (hentries : ∀ entry ∈ entries, EntryKept yaml entry) :
    EntryKept yaml (key, .obj entries) :=
  ⟨yaml.text_printable key hkey, Json.forall_mem_stringsOfEntries.mpr hentries⟩

theorem adapterEntry_kept {adapterId : String} (hlisted : adapterId ∈ adapterPriority)
    (hoptions : ∀ entry ∈ args.adapterOptions, EntryKept yaml entry) :
    ∀ entry ∈ adapterEntry args.defaultAdapter args.adapterOptions adapterId,
      EntryKept yaml entry := by
  intro entry hentry
  rcases mem_adapterEntry hentry with (rfl | rfl | rfl) | hoption
  · exact entryKept_bool (by decide) _
  · have hnames : ∀ adapterId ∈ adapterPriority,
        (adapterClassName adapterId).toList.all isPrintable = true := by decide
    exact entryKept_str (by decide) (yaml.text_printable _ (hnames adapterId hlisted))
  · refine entryKept_str (by decide) (yaml.text_printable _ ?_)
    split <;> decide
  · exact hoptions entry hoption

/-- The texts of the configuration come back from a dump, if those do that are
given. -/
theorem text_initialSettings (hknown : args.defaultAdapter ∈ adapterPriority)
    (hname : yaml.text args.projectName = args.projectName)
    (hoptions : ∀ value ∈ Json.stringsOfEntries args.adapterOptions, yaml.text value = value) :
    ∀ value ∈ Json.stringsOfEntries (initialSettings args profile).data,
      yaml.text value = value := by
  have hids : ∀ adapterId ∈ adapterPriority, adapterId.toList.all isPrintable = true := by decide
  have hrows : ∀ row ∈ (initialSettings args profile).adapters.map fun row =>
      (row.1, Json.obj row.2), EntryKept yaml row := by
    refine List.forall_mem_map.mpr (List.forall_mem_map.mpr fun adapterId hlisted => ?_)
    exact entryKept_obj (hids adapterId hlisted)
      (adapterEntry_kept hlisted (Json.forall_mem_stringsOfEntries.mp hoptions))
  have hconstant {key text : String} (hkey : key.toList.all isPrintable = true)
      (htext : text.toList.all isPrintable = true) : EntryKept yaml (key, .str text) :=
    entryKept_str hkey (yaml.text_printable text htext)
  have hversion : "0.1".toList.all isPrintable = true := by decide
  have hpolicy : "project_only".toList.all isPrintable = true := by decide
  have hprofile : (Config.ProfileName.value profile).toList.all isPrintable = true := by
    cases profile <;> decide
  have hsecurity : "baseline".toList.all isPrintable = true := by decide
  refine Json.forall_mem_stringsOfEntries.mpr (List.forall_mem_append.mpr ⟨?_, nofun⟩)
  refine List.forall_mem_cons.mpr ⟨hconstant (by decide) hversion, ?_⟩
  refine List.forall_mem_cons.mpr ⟨entryKept_obj (by decide) ?_, ?_⟩
  · exact List.forall_mem_cons.mpr ⟨entryKept_str (by decide) hname,
      List.forall_mem_singleton.mpr (hconstant (by decide) hpolicy)⟩
  refine List.forall_mem_cons.mpr ⟨hconstant (by decide) hprofile, ?_⟩
  refine List.forall_mem_cons.mpr ⟨hconstant (by decide) (hids _ hknown), ?_⟩
  refine List.forall_mem_cons.mpr ⟨entryKept_obj (by decide) hrows, ?_⟩
  refine List.forall_mem_cons.mpr ⟨entryKept_obj (by decide) ?_, ?_⟩
  · exact List.forall_mem_singleton.mpr (hconstant (by decide) hsecurity)
  refine List.forall_mem_cons.mpr ⟨entryKept_obj (by decide) ?_, ?_⟩
  · exact List.forall_mem_singleton.mpr (entryKept_bool (by decide) false)
  refine List.forall_mem_singleton.mpr (entryKept_obj (by decide) ?_)
  have hnames : ∀ name ∈ ["daemon", "channels", "openclaw", "plugins", "health_monitor"],
      name.toList.all isPrintable = true := by decide
  exact List.forall_mem_map.mpr fun name hlisted => entryKept_bool (hnames name hlisted) false

end Texts

end Initial

/-! ### From the initialization on -/

namespace AdapterUseCases

/-- However a project is initialized, with a name and options of the adapter that
a dump gives back and that do not switch it, and whatever commands follow, its
configuration is loaded. The switches are those that the commands leave of the
one that was chosen, and the chosen adapter is constructed, not refused as a
disabled one. -/
theorem run_setEnabled_initialized (useCases : AdapterUseCases) (hcodec : useCases.codec.Lawful)
    (host : InitHost) (yaml : YamlHost)
    (hread : ∀ data : JsonObject, (∀ value ∈ Json.stringsOfEntries data, yaml.text value = value) →
      useCases.codec.safeLoad (host.yamlDump (.obj data)) = .ok (.map (Json.toYamlEntries data)))
    (hlines : ∀ data : JsonObject, '\r' ∉ (host.yamlDump (.obj data)).toList)
    {args : InitArgs} (hname : yaml.text args.projectName = args.projectName)
    (htexts : ∀ value ∈ Json.stringsOfEntries args.adapterOptions, yaml.text value = value)
    (hfinite : ∀ entry ∈ args.adapterOptions, entry.2.allFinite = true)
    (hkeys : (args.adapterOptions.map Prod.fst).Nodup)
    (hoptions : "enabled" ∉ args.adapterOptions.map Prod.fst) {tree tree' : Tree}
    (hinit : (initializeProject host args).exec tree = (.ok (), tree'))
    (commands : List AdapterCommand) :
    ∃ text config, tree' (under [".forge", "config.yaml"]) = some (.file text) ∧
      Config.loadConfig useCases.codec.toConfigHost useCases.configPath
        (useCases.fileAfter (.content (encodeUtf8 text)) commands) = .ok config ∧
      config.project.name = args.projectName ∧
      Switchboard.ofConfig useCases.codec.truthy config =
        Library.run Switchboard.step (.initial args.defaultAdapter) commands ∧
      useCases.registry.createAdapterFromConfig useCases.codec.truthy config =
        useCases.registry.create config.defaultAdapter
          ((Dict.get? config.adapters config.defaultAdapter).getD []) := by
  obtain ⟨data, hdata, hfile⟩ := initializeProject_config hinit
  obtain ⟨⟨profile, rfl⟩, hknown, hnamed⟩ := buildConfig_ok hdata
  have hvalid : (initialSettings args profile).Valid := initialSettings_valid hknown hnamed
  have hread := hread (initialSettings args profile).data
    (text_initialSettings hknown hname htexts)
  have hstart : useCases.Reads (.content (encodeUtf8 (host.yamlDump
      (.obj (initialSettings args profile).data)))) (initialSettings args profile) :=
    ⟨_, loadSettings_text hvalid (hlines _) hread _,
      (dumped_initialSettings hcodec hfinite).plain_toYaml, readsEnabled_toYaml hcodec _⟩
  obtain ⟨last, hlast, hboard, hkeeps⟩ := hstart.run hcodec commands
  obtain ⟨config, hconfig, hshown, hproject⟩ := hlast.config
  rw [board_initialSettings hknown hkeys hoptions] at hboard
  refine ⟨_, config, hfile, hconfig, ?_, hshown.trans hboard, ?_⟩
  · rw [hproject, hkeeps.others]
    rfl
  · have henabled : (Switchboard.initial args.defaultAdapter).enabled args.defaultAdapter = true :=
      decide_eq_true rfl
    have hchosen := Switchboard.run_enabled_chosen henabled commands
    rw [← hboard, ← hshown] at hchosen
    exact if_pos hchosen

/-- `forge init` with Claude Code in a mode for its permissions. -/
def freshArgs : InitArgs where
  root := "demo"
  projectName := "démo"
  profile := "standard"
  defaultAdapter := "claude_code"
  adapterOptions := [("permission_mode", .str "plan")]

/-- The lines of the configuration that `forge init` writes. -/
def freshLines : List String :=
  ["schema_version: '0.1'", "project:", "  name: démo", "  root_policy: project_only",
    "profile: standard", "default_adapter: claude_code", "adapters:"] ++
  adapterPriority.flatMap (fun adapterId =>
    ["  " ++ adapterId ++ ":",
      if adapterId = "claude_code" then "    enabled: true" else "    enabled: false",
      "    implementation: " ++ adapterClassName adapterId,
      if adapterId = "dummy" then "    phase: '05'" else "    phase: '05.5'"] ++
      if adapterId = "claude_code" then ["    permission_mode: plan"] else []) ++
  ["security:", "  profile: baseline", "hooks:", "  enabled: false", "features:",
    "  daemon: false", "  channels: false", "  openclaw: false", "  plugins: false",
    "  health_monitor: false"]

def freshText : String :=
  String.ofList (freshLines.flatMap fun line => line.toList ++ ['\n'])

theorem freshText_toList :
    freshText.toList = freshLines.flatMap fun line => line.toList ++ ['\n'] :=
  String.toList_ofList

theorem head?_freshText : freshText.toList.head? = some 's' := by
  rw [freshText_toList]
  rfl

theorem no_return_freshText : '\r' ∉ freshText.toList := by
  have hlines : ∀ line ∈ freshLines, '\r' ∉ line.toList := by decide +kernel
  rw [freshText_toList, List.mem_flatMap]
  rintro ⟨line, hline, hmem⟩
  rcases List.mem_append.mp hmem with hin | hend
  · exact hlines line hline hin
  · exact absurd hend (by decide)

noncomputable def freshUseCases : AdapterUseCases where
  codec := Config.knowingCodec demoText demoRaw freshText (initialSettings freshArgs .standard).data
  registry := ⟨[("claude_code", fun _ => .ok []), ("codex", fun _ => .ok ["streaming"])]⟩
  configPath := ".forge/config.yaml"

theorem freshUseCases_lawful : freshUseCases.codec.Lawful := by
  have hhead : freshText.toList.head? ≠ some '~' := by
    rw [head?_freshText]
    decide
  have hother : freshText ≠ demoText := by
    intro hsame
    have hfirst := head?_freshText
    rw [hsame] at hfirst
    exact absurd hfirst (by decide)
  exact Config.knowingCodec_lawful demoRaw _ (by decide) hhead hother no_return_freshText

/-- The machine writes YAML as the use cases do. -/
noncomputable def freshHost : InitHost where
  uuid4 := "00000000-0000-4000-8000-000000000000"
  now := "2026-01-01T00:00:00Z"
  yamlDump := fun value =>
    freshUseCases.codec.safeDump ((objectAt [("data", value)] "data").getD [])
  jsonDump := fun _ => ""
  outcome := fun _ => .done

theorem freshHost_initializes :
    ((initializeProject freshHost freshArgs).exec fun _ => none).1 = .ok () := by
  decide +kernel

/-- Codex is chosen; then it is not disabled, for it is the default, nor is Claude
Code, for the disk is full. -/
def freshCommands : List AdapterCommand :=
  [enableCodex, ⟨"codex", false, false, .ok ()⟩,
    ⟨"claude_code", false, false, .error "No space left on device"⟩]

theorem run_setEnabled_initialized_fresh :
    ∃ text config,
      Config.loadConfig freshUseCases.codec.toConfigHost freshUseCases.configPath
        (freshUseCases.fileAfter (.content (encodeUtf8 text)) freshCommands) = .ok config ∧
      config.project.name = "démo" ∧ config.defaultAdapter = "codex" ∧
      (adapterPriority.filter (Switchboard.ofConfig freshUseCases.codec.truthy config).enabled) =
        ["claude_code", "codex"] ∧
      freshUseCases.registry.createAdapterFromConfig freshUseCases.codec.truthy config =
        .ok (.adapter ["streaming"]) := by
  have hlawful := freshUseCases_lawful
  have hinit : (initializeProject freshHost freshArgs).exec (fun _ => none) =
      (.ok (), ((initializeProject freshHost freshArgs).exec fun _ => none).2) := by
    rw [← freshHost_initializes]
  obtain ⟨text, config, -, hconfig, hname, hboard, hcreated⟩ :=
    run_setEnabled_initialized freshUseCases hlawful freshHost .folding
      (fun data _ => hlawful.safeLoad_safeDump data) (fun data => hlawful.no_return data)
      (by decide) (by decide) (by decide) (by decide) (by decide) hinit freshCommands
  have hdefault : config.defaultAdapter = "codex" := congrArg Switchboard.chosen hboard
  refine ⟨text, config, hconfig, hname, hdefault, ?_, ?_⟩
  · rw [hboard]
    decide
  · rw [hcreated, hdefault]
    rfl

end AdapterUseCases

end ForgeOS
