import ForgeOS.Extensions.Store
import Mathlib.Data.List.Induction

/-!
Installing and removing extensions. An install passes the gates for conflicts,
permissions and signatures in this order, and nothing is recorded before it has
passed all of them; what the index holds therefore tells of its installs.
-/

namespace ForgeOS

open Library

namespace Installer

open ExtensionStore

/-- What is found at the source of an extension. -/
inductive ManifestSource where
  | missing
  | invalidYaml (complaint : String)
  /-- Bytes that cannot be read as text. -/
  | unreadable (error : HostError)
  /-- A mapping with a key that is no string. -/
  | oddKeys
  | yaml (value : Json)

/-- `load_manifest(source)`. `invalid` is what pydantic says of a manifest that
it refuses. -/
def loadManifest (path invalid : String) : ManifestSource → Except ExtensionError ExtensionManifest
  | .missing => .error (.manifest s!"No extension manifest found at {path}")
  | .invalidYaml complaint => .error (.manifest s!"Invalid YAML in {path}: {complaint}")
  | .unreadable error => .error (.host error)
  | .oddKeys => .error (.host ⟨"keywords must be strings"⟩)
  | .yaml value =>
      match value.or (.obj []) with
      | .obj raw =>
          match ExtensionManifest.validate raw with
          | some manifest => .ok manifest
          | none => .error (.manifest s!"Invalid extension manifest {path}: {invalid}")
      | _ => .error (.manifest s!"Manifest must be a mapping: {path}")

def detectConflicts (manifest : ExtensionManifest) (installed : List InstalledExtension) :
    List String :=
  (installed.filter fun existing => existing.manifest.name = manifest.name).map fun existing =>
    s!"extension '{manifest.name}' already installed (version {existing.manifest.version})"

def extensionActor : JsonObject := [("type", .str "extension"), ("id", .str "forge-plug")]

/-- Run an operation on the audit log. -/
def onAudit {α : Type} (effect : Effect SecurityAuditLog HostError α) : StoreEffect α :=
  (effect.within PlugState.audit fun audit state => { state with audit }).mapError .host

/-- `validate_permissions(manifest, enforcer)`. There is a moment for each
permission. -/
def validatePermissions (profile : SecurityProfile) (moments : Nat → AuditMoment)
    (manifest : ExtensionManifest) : List String → StoreEffect Unit
  | [] => return
  | permission :: rest => do
      let decision ← onAudit (profile.validateAction (moments 0) extensionActor
        "install_extension" (.str manifest.name) (some permission))
      if decision ≠ .allowed then
        throw (.permission (s!"extension '{manifest.name}' requires capability '{permission}' " ++
          s!"not allowed by the security profile (decision={decision.value})"))
      validatePermissions profile (fun n => moments (n + 1)) manifest rest

/-- `verify_signature(source, manifest)`: nothing can be verified yet. -/
def verifySignature (_source : ManifestSource) (_manifest : ExtensionManifest) : Bool := false

def auditUnsigned (moment : AuditMoment) (hasLog : Bool) (manifest : ExtensionManifest) :
    StoreEffect Unit :=
  if hasLog then
    onAudit (SecurityAuditLog.log moment {
      auditId := s!"EXT-UNSIGNED-{manifest.name}-{manifest.version}"
      timestamp := moment.timestamp
      actor := extensionActor
      action := "ExtensionUnsignedInstalled"
      target := .str manifest.name
      capability := some "extension_install"
      decision := .warned
      reason := some "Unsigned extension installed with allow_unsigned" })
  else return

/-- The arguments of a call of `install_extension`, with what the host does to
it. -/
structure InstallCall where
  path : String
  source : ManifestSource
  invalid : String := ""
  profile : SecurityProfile
  allowUnsigned : Bool := false
  hasAuditLog : Bool := false
  /-- Reading the index for conflicts. -/
  listing : StoreMoment
  decisions : Nat → AuditMoment
  /-- `source.resolve()`. -/
  resolved : Except HostError String
  installedAt : String
  recording : StoreMoment
  auditing : AuditMoment

def InstallCall.manifest? (call : InstallCall) : Except ExtensionError ExtensionManifest :=
  loadManifest call.path call.invalid call.source

def installExtension (call : InstallCall) : StoreEffect InstalledExtension := do
  let manifest ← Effect.ofExcept (call.manifest?)
  let conflicts := detectConflicts manifest (← listInstalled call.listing)
  if conflicts ≠ [] then
    throw (.conflict ("; ".intercalate conflicts))
  validatePermissions call.profile call.decisions manifest manifest.permissions
  let verified := verifySignature call.source manifest
  if !verified && !call.allowUnsigned then
    throw (.signature (s!"extension '{manifest.name}' is not verified; " ++
      "pass allow_unsigned to install it"))
  let sourcePath ← Effect.ofExcept (call.resolved.mapError .host)
  let installed : InstalledExtension := {
    manifest
    sourcePath
    installedAt := call.installedAt
    signatureVerified := verified }
  record call.recording installed
  if !verified then
    auditUnsigned call.auditing call.hasAuditLog manifest
  return installed

/-- A call on the installer. -/
inductive PlugCall where
  | install (call : InstallCall)
  | remove (name : String) (moment : StoreMoment)

/-- A call, whether it returns or raises. -/
def step (state : PlugState) : PlugCall → PlugState
  | .install call => ((installExtension call).exec state).2
  | .remove name moment => ((remove moment name).exec state).2

/-! ### What is recorded -/

/-- An operation that leaves the index alone. -/
def KeepsIndex {α : Type} (effect : StoreEffect α) : Prop :=
  ∀ state, (effect.exec state).2.index = state.index

section KeepsIndex

variable {α β : Type}

theorem keepsIndex_pure (a : α) : KeepsIndex (pure a : StoreEffect α) := fun _ => rfl

theorem keepsIndex_throw (error : ExtensionError) :
    KeepsIndex (throw error : StoreEffect α) := fun _ => rfl

theorem keepsIndex_ofExcept (result : Except ExtensionError α) :
    KeepsIndex (Effect.ofExcept result) := fun _ => rfl

theorem keepsIndex_onAudit (effect : Effect SecurityAuditLog HostError α) :
    KeepsIndex (onAudit effect) := fun _ => rfl

theorem holds_congr {state state' : PlugState} (hindex : state'.index = state.index)
    {extensions : List InstalledExtension} : state'.Holds extensions ↔ state.Holds extensions := by
  rw [PlugState.Holds, PlugState.Holds, hindex]

/-- A sequence stops with the index as it was, or goes on with it. -/
theorem exec_bind_keepsIndex {effect : StoreEffect α} (h : KeepsIndex effect)
    (next : α → StoreEffect β) (state : PlugState) :
    ((effect >>= next).exec state).2.index = state.index ∨
      ∃ a state', effect.exec state = (.ok a, state') ∧ state'.index = state.index ∧
        (effect >>= next).exec state = (next a).exec state' := by
  have hindex := h state
  rw [Effect.exec_bind]
  rcases hrun : effect.exec state with ⟨error | a, state'⟩
  · rw [hrun] at hindex
    exact .inl hindex
  · rw [hrun] at hindex
    exact .inr ⟨a, state', rfl, hindex, rfl⟩

/-- What comes last and leaves the index alone does not matter to it. -/
theorem index_exec_bind (effect : StoreEffect α) {next : α → StoreEffect β}
    (hnext : ∀ a, KeepsIndex (next a)) (state : PlugState) :
    ((effect >>= next).exec state).2.index = (effect.exec state).2.index := by
  rw [Effect.exec_bind]
  rcases effect.exec state with ⟨error | a, state'⟩
  · rfl
  · exact hnext a state'

theorem KeepsIndex.bind {effect : StoreEffect α} (h : KeepsIndex effect)
    {next : α → StoreEffect β} (hnext : ∀ a, KeepsIndex (next a)) :
    KeepsIndex (effect >>= next) := by
  intro state
  rcases exec_bind_keepsIndex h next state with hstop | ⟨a, state', -, hindex, hexec⟩
  · exact hstop
  · rw [hexec, hnext a state', hindex]

end KeepsIndex

theorem keepsIndex_validatePermissions (profile : SecurityProfile) (moments : Nat → AuditMoment)
    (manifest : ExtensionManifest) (permissions : List String) :
    KeepsIndex (validatePermissions profile moments manifest permissions) := by
  induction permissions generalizing moments with
  | nil => exact keepsIndex_pure ()
  | cons permission rest ih =>
      apply (keepsIndex_onAudit _).bind
      intro decision
      dsimp only
      split
      · exact (keepsIndex_throw _).bind fun _ => ih _
      · exact ih _

theorem decision_of_onAudit {profile : SecurityProfile} {moment : AuditMoment}
    {actor : JsonObject} {action : String} {target : Json} {capability : Option String}
    {state state' : PlugState} {decision : SecurityDecision}
    (h : (onAudit (profile.validateAction moment actor action target capability)).exec state =
      (.ok decision, state')) : decision = profile.decisionFor capability := by
  rw [onAudit, Effect.exec_mapError, Effect.exec_within] at h
  rcases hrun : (profile.validateAction moment actor action target capability).exec state.audit
    with ⟨error | made, audit⟩
  · rw [hrun] at h
    cases h
  · rw [hrun] at h
    cases h
    exact profile.decision_of_validateAction hrun

theorem allowed_of_validatePermissions {profile : SecurityProfile} {moments : Nat → AuditMoment}
    {manifest : ExtensionManifest} {permissions : List String} {state state' : PlugState}
    (h : (validatePermissions profile moments manifest permissions).exec state = (.ok (), state')) :
    ∀ permission ∈ permissions, profile.decisionFor (some permission) = .allowed := by
  induction permissions generalizing moments state with
  | nil => exact List.forall_mem_nil _
  | cons permission rest ih =>
      obtain ⟨decision, middle, hdecision, hrest⟩ := Effect.ok_of_exec_bind h
      have hvalue := decision_of_onAudit hdecision
      dsimp only at hrest
      split at hrest
      · obtain ⟨_, _, hthrow, -⟩ := Effect.ok_of_exec_bind hrest
        cases hthrow
      · rename_i hallowed
        rw [not_not] at hallowed
        rw [List.forall_mem_cons]
        exact ⟨hvalue ▸ hallowed, ih hrest⟩

theorem keepsIndex_auditUnsigned (moment : AuditMoment) (hasLog : Bool)
    (manifest : ExtensionManifest) : KeepsIndex (auditUnsigned moment hasLog manifest) := by
  unfold auditUnsigned
  split
  · exact keepsIndex_onAudit _
  · exact keepsIndex_pure ()

/-- The call has let this extension pass every gate. -/
structure InstallCall.Admits (call : InstallCall) (ext : InstalledExtension) : Prop where
  manifest : call.manifest? = .ok ext.manifest
  allowed : ∀ permission ∈ ext.manifest.permissions,
    call.profile.decisionFor (some permission) = .allowed
  unsigned : call.allowUnsigned = true

theorem fresh_of_detectConflicts {manifest : ExtensionManifest}
    {installed : List InstalledExtension} (h : detectConflicts manifest installed = []) :
    ∀ other ∈ installed, other.manifest.name ≠ manifest.name := by
  rw [detectConflicts, List.map_eq_nil_iff, List.filter_eq_nil_iff] at h
  intro other hother hname
  exact h other hother (decide_eq_true hname)

/-- An install leaves the index alone, or adds an extension of a new name that
has passed the gates. -/
theorem exec_installExtension (call : InstallCall) {state : PlugState}
    {extensions : List InstalledExtension} (h : state.Holds extensions) :
    ((installExtension call).exec state).2.index = state.index ∨
      ∃ ext, call.Admits ext ∧ (∀ other ∈ extensions, other.manifest.name ≠ ext.manifest.name) ∧
        ((installExtension call).exec state).2.Holds (extensions ++ [ext]) := by
  unfold installExtension
  cases hmanifest : call.manifest? with
  | error error => exact .inl rfl
  | ok manifest =>
      rw [Effect.exec_bind_ok _ (Effect.exec_ofExcept _ state)]
      rcases exec_listInstalled_bind call.listing h _ with hstop | hexec
      · exact .inl (congrArg PlugState.index hstop)
      rw [hexec]
      dsimp only
      split
      · exact .inl rfl
      rename_i hconflicts
      rw [not_not] at hconflicts
      have hfresh := fresh_of_detectConflicts hconflicts
      -- The permissions: the log may have grown behind them.
      rcases exec_bind_keepsIndex (keepsIndex_validatePermissions call.profile call.decisions
        manifest manifest.permissions) _ state with hstop | ⟨_, state', hallowed, hindex, hexec⟩
      · exact .inl hstop
      rw [hexec, ← hindex]
      split
      · exact .inl rfl
      rename_i hunsigned
      have hunsigned : call.allowUnsigned = true := by simpa [verifySignature] using hunsigned
      rcases exec_bind_keepsIndex (keepsIndex_ofExcept (call.resolved.mapError .host)) _ state'
        with hstop | ⟨sourcePath, state'', -, hindex', hexec⟩
      · exact .inl hstop
      rw [hexec, ← hindex']
      have hstate : state''.Holds extensions :=
        (holds_congr hindex').mpr ((holds_congr hindex).mpr h)
      let ext : InstalledExtension :=
        { manifest, sourcePath, installedAt := call.installedAt, signatureVerified := false }
      have hlast : ∀ recorded : Unit, KeepsIndex (do
          auditUnsigned call.auditing call.hasAuditLog manifest
          return ext) :=
        fun _ => (keepsIndex_auditUnsigned _ _ _).bind fun _ => keepsIndex_pure _
      have hrecord := index_exec_bind (record call.recording ext) hlast state''
      rcases exec_record call.recording ext hstate with hsame | hrecorded
      · exact .inl (hrecord.trans (congrArg PlugState.index hsame))
      · refine .inr ⟨ext, ⟨hmanifest, allowed_of_validatePermissions hallowed, hunsigned⟩,
          hfresh, ?_⟩
        rw [List.filter_eq_self.mpr fun other hother =>
          decide_eq_true (hfresh other hother)] at hrecorded
        exact (holds_congr hrecord).mpr hrecorded

/-! ### Runs -/

/-- A call of the run has let the extension pass and added it to the index. -/
def Recorded (audit : SecurityAuditLog) (calls : List PlugCall) (ext : InstalledExtension) : Prop :=
  ∃ before call after earlier, calls = before ++ .install call :: after ∧ call.Admits ext ∧
    (run step ⟨none, audit⟩ before).Holds earlier ∧
    (run step ⟨none, audit⟩ (before ++ [.install call])).Holds (earlier ++ [ext])

theorem Recorded.snoc {audit : SecurityAuditLog} {calls : List PlugCall}
    {ext : InstalledExtension} (h : Recorded audit calls ext) (last : PlugCall) :
    Recorded audit (calls ++ [last]) ext := by
  obtain ⟨before, call, after, earlier, rfl, hrest⟩ := h
  exact ⟨before, call, after ++ [last], earlier, by simp, hrest⟩

/-- What one call makes of an index of distinct names. -/
theorem step_holds {state : PlugState} {extensions : List InstalledExtension}
    (h : state.Holds extensions) (call : PlugCall) :
    ∃ extensions', (step state call).Holds extensions' ∧
      (extensions'.Sublist extensions ∨
        ∃ install ext, call = .install install ∧ install.Admits ext ∧
          (∀ other ∈ extensions, other.manifest.name ≠ ext.manifest.name) ∧
          extensions' = extensions ++ [ext]) := by
  cases call with
  | install install =>
      rcases exec_installExtension install h with hsame | ⟨ext, hadmits, hfresh, hholds⟩
      · exact ⟨extensions, (holds_congr hsame).mpr h, .inl (List.Sublist.refl _)⟩
      · exact ⟨_, hholds, .inr ⟨install, ext, rfl, hadmits, hfresh, rfl⟩⟩
  | remove name moment =>
      rcases exec_remove moment name h with hsame | hholds
      · exact ⟨extensions, by rwa [step, hsame], .inl (List.Sublist.refl _)⟩
      · exact ⟨_, hholds, .inl List.filter_sublist⟩

/-- After any calls the index has distinct names, and each of its extensions was
recorded by an install that its permissions and its missing signature had
passed. -/
theorem index_safe (audit : SecurityAuditLog) (calls : List PlugCall) :
    ∃ extensions, (run step ⟨none, audit⟩ calls).Holds extensions ∧
      (extensions.map fun ext => ext.manifest.name).Nodup ∧
      ∀ ext ∈ extensions, Recorded audit calls ext := by
  induction calls using List.reverseRecOn with
  | nil => exact ⟨[], .inl ⟨rfl, rfl⟩, List.nodup_nil, List.forall_mem_nil _⟩
  | append_singleton calls call ih =>
      obtain ⟨extensions, hholds, hnodup, hrecorded⟩ := ih
      obtain ⟨extensions', hholds', hcases⟩ := step_holds hholds call
      refine ⟨extensions', by rwa [run_snoc], ?_⟩
      rcases hcases with hsub | ⟨install, ext, rfl, hadmits, hfresh, rfl⟩
      · exact ⟨hnodup.sublist (hsub.map _),
          fun ext hext => (hrecorded ext (hsub.subset hext)).snoc call⟩
      · constructor
        · rw [List.map_append, List.nodup_append]
          refine ⟨hnodup, by simp, ?_⟩
          intro name hname other hother heq
          obtain ⟨old, hold, rfl⟩ := List.mem_map.mp hname
          obtain rfl := List.mem_singleton.mp hother
          exact hfresh old hold heq
        · intro other hother
          rcases List.mem_append.mp hother with hold | hnew
          · exact (hrecorded other hold).snoc _
          · obtain rfl := List.mem_singleton.mp hnew
            exact ⟨calls, install, [], extensions, rfl, hadmits, hholds, by rwa [run_snoc]⟩

end Installer

end ForgeOS
