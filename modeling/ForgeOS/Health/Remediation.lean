import ForgeOS.Library.FirstFree
import ForgeOS.Project.AuditIdentities
import ForgeOS.Project.Initialize
import ForgeOS.Text
import Mathlib.Data.List.AList

/-!
`forge doctor --fix`: the repair of an invalid configuration. What stands in the
file is moved out of the way before anything is written, so that it is kept
whatever becomes of the writing, and of the repairs after it.
-/

namespace ForgeOS

open Library

/-- The files of `.forge` by their names. -/
abbrev ForgeFiles := AList fun _ : String => List UInt8

inductive RebuildError where
  /-- The search for the name of a backup has not come to an end. -/
  | searching
  | config (error : InitError)
  /-- An `OSError` at a file. -/
  | os (name : String)
deriving DecidableEq, Repr

/-- What a rebuild takes from Python's library. -/
structure RebuildHost where
  /-- `yaml.safe_dump(data, sort_keys=False)`. -/
  yamlDump : Json → String
  /-- `json.dumps(data, sort_keys=False)`. -/
  jsonDump : Json → String

/-- A call of `rebuild_config`: the root, the clock, and how writing to each
file ends. -/
structure Rebuild where
  /-- `str(root / ".forge")` -/
  forgePath : String
  /-- `root.name` -/
  rootName : String
  millis : Int
  timestamp : String
  outcome : String → TreeOutcome

def configName : String := "config.yaml"

def auditLogName : String := "security-audit.jsonl"

/-- The names of a backup, in the order in which they are tried. -/
def backupName : Nat → String
  | 0 => configName ++ ".bak"
  | suffix + 1 => configName ++ ".bak." ++ (suffix + 1).repr

/-- `config_path.replace(backup)`, if there is a configuration. -/
def ForgeFiles.moveConfig (files : ForgeFiles) (backup : String) : ForgeFiles :=
  match files.lookup configName with
  | some content => (files.erase configName).insert backup content
  | none => files

namespace Rebuild

def write (call : Rebuild) (name : String) (kept : List UInt8) (text : String) :
    Effect ForgeFiles RebuildError Unit :=
  match call.outcome name with
  | .done => modify fun files => files.insert name (kept ++ encodeUtf8 text)
  | .refused => throw (.os name)
  | .torn part => do
      modify fun files => files.insert name (kept ++ encodeUtf8 part)
      throw (.os name)

/-- The entry that `_audit_config_rewrite` logs. -/
def auditEntry (call : Rebuild) : SecurityAuditEntry :=
  AuditRequest.entry ⟨call.millis, call.timestamp, false⟩
    (.configRewrite s!"{call.forgePath}/{configName}")

def auditConfigRewrite (host : RebuildHost) (call : Rebuild) :
    Effect ForgeFiles RebuildError Unit := do
  let logged := ((← get).lookup auditLogName).getD []
  call.write auditLogName logged (host.jsonDump (.obj call.auditEntry.modelDump) ++ "\n")

/-- What `rebuild_config` does when the configuration has been moved. -/
def rewrite (host : RebuildHost) (call : Rebuild) (backup : String) :
    Effect ForgeFiles RebuildError (Bool × String) := do
  let config ← Effect.ofExcept ((buildConfig
    { root := call.forgePath, projectName := call.rootName }).mapError .config)
  call.write configName [] (host.yamlDump (.obj config))
  call.auditConfigRewrite host
  return (true, s!"rebuilt {call.forgePath}/{configName} from defaults " ++
    s!"(backup at {call.forgePath}/{backup})")

/-- `rebuild_config`. The search for a backup has as many turns as there is
fuel. -/
def rebuildConfig (host : RebuildHost) (call : Rebuild) (fuel : Nat) :
    Effect ForgeFiles RebuildError (Bool × String) := do
  let files ← get
  match firstFree (fun name => decide (name ∈ files)) backupName fuel 0 with
  | none => throw .searching
  | some suffix =>
      modify fun files => files.moveConfig (backupName suffix)
      call.rewrite host (backupName suffix)

/-- The call as it ends: with as much fuel as there can be need of. -/
def result (host : RebuildHost) (files : ForgeFiles) (call : Rebuild) :
    Except RebuildError (Bool × String) × ForgeFiles :=
  (call.rebuildConfig host (files.keys.length + 1)).exec files

def after (host : RebuildHost) (files : ForgeFiles) (call : Rebuild) : ForgeFiles :=
  (call.result host files).2

def afterAll (host : RebuildHost) (files : ForgeFiles) (calls : List Rebuild) : ForgeFiles :=
  run (fun files call => call.after host files) files calls

/-- The call comes to an end: its search does, and more fuel changes nothing. -/
def Ends (host : RebuildHost) (files : ForgeFiles) (call : Rebuild) : Prop :=
  (call.result host files).1 ≠ .error .searching ∧ ∀ fuel, files.keys.length < fuel →
    (call.rebuildConfig host fuel).exec files = call.result host files

end Rebuild

/-- A new file has what stood in the configuration, and but for the
configuration and the audit log nothing else has changed. -/
structure BackedUp (files files' : ForgeFiles) (backup : String) : Prop where
  apart : backup ≠ configName ∧ backup ≠ auditLogName
  new : files.lookup backup = none
  held : files'.lookup backup = files.lookup configName
  others : ∀ name, name ≠ configName → name ≠ auditLogName → name ≠ backup →
    files'.lookup name = files.lookup name

/-! ### The names of backups -/

theorem backupName_injective : Function.Injective backupName := by
  have hlonger (suffix : Nat) : backupName 0 ≠ backupName (suffix + 1) := by
    intro h
    have hlength := congrArg String.length h
    simp only [backupName, String.length_append] at hlength
    have hdot : ".bak".length + 1 = ".bak.".length := rfl
    omega
  intro a b h
  cases a with
  | zero =>
      cases b with
      | zero => rfl
      | succ b => exact absurd h (hlonger b)
  | succ a =>
      cases b with
      | zero => exact absurd h.symm (hlonger a)
      | succ b => exact nat_repr_injective (String.append_right_inj _ |>.mp h)

theorem backupName_apart (n : Nat) : backupName n ≠ configName ∧ backupName n ≠ auditLogName := by
  obtain ⟨rest, hrest⟩ : ∃ rest, (backupName n).toList = configName.toList ++ '.' :: rest := by
    cases n with
    | zero => exact ⟨_, String.toList_append⟩
    | succ n => exact ⟨"bak.".toList ++ (n + 1).repr.toList, by
        rw [backupName, String.toList_append, String.toList_append, List.append_assoc]
        rfl⟩
  constructor
  · intro h
    rw [h] at hrest
    exact absurd (congrArg List.length hrest) (by simp)
  · intro h
    rw [h] at hrest
    have hhead : some 's' = some 'c' := congrArg List.head? hrest
    exact absurd hhead (by decide)

/-! ### One call -/

namespace ForgeFiles

variable {files : ForgeFiles} {backup : String}

theorem lookup_moveConfig_self (hnew : files.lookup backup = none) :
    (files.moveConfig backup).lookup backup = files.lookup configName := by
  unfold moveConfig
  cases hconfig : files.lookup configName with
  | none => exact hnew
  | some content => exact AList.lookup_insert _

theorem lookup_moveConfig_of_ne {name : String} (hconfig : name ≠ configName)
    (hbackup : name ≠ backup) : (files.moveConfig backup).lookup name = files.lookup name := by
  unfold moveConfig
  cases files.lookup configName with
  | none => rfl
  | some content =>
      dsimp only
      rw [AList.lookup_insert_ne hbackup, AList.lookup_erase_ne hconfig]

end ForgeFiles

namespace Rebuild

variable {host : RebuildHost} {files : ForgeFiles} {call : Rebuild}

/-- All files but the configuration and the audit log are the same. -/
def SameOthers (files files' : ForgeFiles) : Prop :=
  ∀ name, name ≠ configName → name ≠ auditLogName → files'.lookup name = files.lookup name

theorem SameOthers.refl (files : ForgeFiles) : SameOthers files files := fun _ _ _ => rfl

theorem SameOthers.trans (files files' files'' : ForgeFiles) (h : SameOthers files files')
    (h' : SameOthers files' files'') : SameOthers files files'' :=
  fun name hconfig haudit => (h' name hconfig haudit).trans (h name hconfig haudit)

theorem sameOthers_insert {name : String} (hname : name = configName ∨ name = auditLogName)
    (content : List UInt8) (files : ForgeFiles) : SameOthers files (files.insert name content) := by
  intro other hconfig haudit
  refine AList.lookup_insert_ne ?_
  rcases hname with rfl | rfl
  · exact hconfig
  · exact haudit

theorem keeps_write (call : Rebuild) {name : String}
    (hname : name = configName ∨ name = auditLogName) (kept : List UInt8) (text : String) :
    Effect.Keeps (· ≠ .searching) SameOthers (call.write name kept text) := by
  unfold write
  cases call.outcome name with
  | done => exact Effect.keeps_modify fun files => sameOthers_insert hname _ files
  | refused => exact Effect.keeps_throw SameOthers.refl nofun
  | torn part =>
      refine Effect.keeps_bind SameOthers.trans ?_ fun _ => ?_
      · exact Effect.keeps_modify fun files => sameOthers_insert hname _ files
      · exact Effect.keeps_throw SameOthers.refl nofun

theorem keeps_rewrite (call : Rebuild) (backup : String) :
    Effect.Keeps (· ≠ .searching) SameOthers (call.rewrite host backup) := by
  have hbuilt : ∀ error, (buildConfig { root := call.forgePath, projectName := call.rootName
      }).mapError RebuildError.config = .error error → error ≠ .searching := by
    intro error hbuild
    cases hconfig : buildConfig { root := call.forgePath, projectName := call.rootName } with
    | error refused =>
        rw [hconfig] at hbuild
        cases hbuild
        exact nofun
    | ok config =>
        rw [hconfig] at hbuild
        cases hbuild
  have haudited : Effect.Keeps (· ≠ .searching) SameOthers (call.auditConfigRewrite host) :=
    Effect.keeps_bind SameOthers.trans (Effect.keeps_get SameOthers.refl)
      fun _ => call.keeps_write (.inr rfl) _ _
  refine Effect.keeps_bind SameOthers.trans (Effect.keeps_ofExcept SameOthers.refl hbuilt) ?_
  intro config
  refine Effect.keeps_bind SameOthers.trans (call.keeps_write (.inl rfl) _ _) fun _ => ?_
  exact Effect.keeps_bind SameOthers.trans haudited fun _ => Effect.keeps_pure SameOthers.refl _

/-- A call that finds a name moves the configuration there and writes a new
one. -/
theorem exec_rebuildConfig {fuel suffix : Nat}
    (hfound : firstFree (fun name => decide (name ∈ files)) backupName fuel 0 = some suffix) :
    (call.rebuildConfig host fuel).exec files =
      (call.rewrite host (backupName suffix)).exec (files.moveConfig (backupName suffix)) := by
  rw [rebuildConfig, Effect.exec_bind, Effect.exec_get]
  dsimp only
  rw [hfound]
  rfl

/-- A name is found, and the same one with more fuel. -/
theorem exists_backup (files : ForgeFiles) : ∃ suffix, files.lookup (backupName suffix) = none ∧
    ∀ fuel, files.keys.length < fuel →
      firstFree (fun name => decide (name ∈ files)) backupName fuel 0 = some suffix := by
  have hkeys : ∀ name, decide (name ∈ files) = true → name ∈ files.keys :=
    fun name hname => AList.mem_keys.mp (of_decide_eq_true hname)
  obtain ⟨suffix, hfound⟩ :=
    exists_firstFree backupName_injective hkeys (Nat.lt_succ_self files.keys.length) 0
  refine ⟨suffix, ?_, fun fuel hfuel => firstFree_of_le hfound hfuel⟩
  obtain ⟨-, -, hfree, -⟩ := firstFree_eq_some_iff.mp hfound
  exact AList.lookup_eq_none.mpr (of_decide_eq_false hfree)

theorem ends (host : RebuildHost) (files : ForgeFiles) (call : Rebuild) :
    call.Ends host files := by
  obtain ⟨suffix, -, hfound⟩ := exists_backup files
  have hresult : call.result host files =
      (call.rewrite host (backupName suffix)).exec (files.moveConfig (backupName suffix)) :=
    exec_rebuildConfig (hfound _ (Nat.lt_succ_self _))
  constructor
  · rw [hresult]
    exact fun hraised => (call.keeps_rewrite _ _).1 _ hraised rfl
  · intro fuel hfuel
    rw [hresult, exec_rebuildConfig (hfound fuel hfuel)]

theorem backedUp (host : RebuildHost) (files : ForgeFiles) (call : Rebuild) :
    ∃ backup, BackedUp files (call.after host files) backup := by
  obtain ⟨suffix, hnew, hfound⟩ := exists_backup files
  obtain ⟨hconfig, haudit⟩ := backupName_apart suffix
  refine ⟨backupName suffix, ⟨hconfig, haudit⟩, hnew, ?_, ?_⟩
  · rw [after, result, exec_rebuildConfig (hfound _ (Nat.lt_succ_self _)),
      (call.keeps_rewrite _ _).2 _ hconfig haudit, ForgeFiles.lookup_moveConfig_self hnew]
  · intro name hnameConfig hnameAudit hnameBackup
    rw [after, result, exec_rebuildConfig (hfound _ (Nat.lt_succ_self _)),
      (call.keeps_rewrite _ _).2 _ hnameConfig hnameAudit,
      ForgeFiles.lookup_moveConfig_of_ne hnameConfig hnameBackup]

/-! ### Repeated calls -/

/-- Calls keep every file but the configuration and the audit log. -/
theorem lookup_afterAll (host : RebuildHost) (calls : List Rebuild) {files : ForgeFiles}
    {name : String} {content : List UInt8} (hconfig : name ≠ configName)
    (haudit : name ≠ auditLogName) (hname : files.lookup name = some content) :
    (afterAll host files calls).lookup name = some content := by
  refine run_invariant (I := fun files : ForgeFiles => files.lookup name = some content) hname ?_
  intro found call _ hheld
  obtain ⟨backup, hbackup⟩ := call.backedUp host found
  have hne : name ≠ backup := by
    rintro rfl
    cases hheld.symm.trans hbackup.new
  rw [hbackup.others name hconfig haudit hne, hheld]

/-- Any call of a run ends, and backs up the configuration it finds under a new
name, where it still is at the end of the run. No call before or after it, and no
name that is taken already, makes a difference. -/
theorem losesNothing (host : RebuildHost) (files : ForgeFiles) (earlier : List Rebuild)
    (call : Rebuild) (later : List Rebuild) :
    call.Ends host (afterAll host files earlier) ∧
      ∃ backup, BackedUp (afterAll host files earlier) (afterAll host files (earlier ++ [call]))
          backup ∧
        ∀ content, (afterAll host files earlier).lookup configName = some content →
          (afterAll host files (earlier ++ call :: later)).lookup backup = some content := by
  obtain ⟨backup, hbackup⟩ := call.backedUp host (afterAll host files earlier)
  have hsnoc : afterAll host files (earlier ++ [call]) =
      call.after host (afterAll host files earlier) := run_snoc _ _ _ _
  refine ⟨call.ends host _, backup, hsnoc ▸ hbackup, fun content hcontent => ?_⟩
  have hheld : (call.after host (afterAll host files earlier)).lookup backup = some content := by
    rw [hbackup.held, hcontent]
  have hend := lookup_afterAll host later hbackup.apart.1 hbackup.apart.2 hheld
  have hrest : afterAll host files (earlier ++ call :: later) =
      afterAll host (call.after host (afterAll host files earlier)) later := run_append _ _ _ _
  rw [hrest, hend]

end Rebuild

end ForgeOS
