import ForgeOS.Extensions.Installer
import Mathlib.Data.List.Forall2

/-!
What an install leaves behind where it raises. The index is written before the
unsigned install is entered in the audit log, and neither is undone: a call that
raises after the index has been replaced keeps its extension, and the log may
have no entry for it.
-/

namespace ForgeOS

open Library

def StoreMoment.read (moment : StoreMoment) (index : Option (List Json)) :
    Except ExtensionError (List InstalledExtension) :=
  match moment.unreadable, index with
  | some error, _ => .error (.host error)
  | none, none => .ok []
  | none, some raw =>
      match raw.mapM (InstalledExtension.modelValidate moment.now) with
      | some installed => .ok installed
      | none => .error .invalidIndex

namespace ExtensionStore

theorem exec_listInstalled_eq (moment : StoreMoment) (state : PlugState) :
    (listInstalled moment).exec state = (moment.read state.index, state) := by
  unfold listInstalled StoreMoment.read
  cases moment.unreadable with
  | some error => rfl
  | none =>
      rw [Effect.exec_bind_ok _ (Effect.exec_get state)]
      cases state.index with
      | none => rfl
      | some raw =>
          dsimp only
          cases raw.mapM (InstalledExtension.modelValidate moment.now) with
          | none => rfl
          | some installed => rfl

end ExtensionStore

namespace Installer

open ExtensionStore

/-- The permissions are all allowed, and each decision that is to be logged can
be. -/
structure PermissionsPass (profile : SecurityProfile) (moments : Nat → AuditMoment)
    (permissions : List String) : Prop where
  allowed : ∀ permission ∈ permissions, profile.decisionFor (some permission) = .allowed
  logged : profile.auditEnabled = true → ∀ n < permissions.length, (moments n).raises = false

/-- The call passes every gate, and comes to record this extension next to
those that are installed. -/
structure InstallCall.Passes (call : InstallCall) (index : Option (List Json))
    (installed : List InstalledExtension) (ext : InstalledExtension) : Prop where
  manifest : call.manifest? = .ok ext.manifest
  unconflicted : ∃ listed, call.listing.read index = .ok listed ∧
    detectConflicts ext.manifest listed = []
  permissions : PermissionsPass call.profile call.decisions ext.manifest.permissions
  unsigned : call.allowUnsigned = true
  resolved : call.resolved = .ok ext.sourcePath
  recorded : call.recording.read index = .ok installed
  installedAt : ext.installedAt = call.installedAt
  unverified : ext.signatureVerified = false
  schemaVersion : ext.schemaVersion = "0.1.0"

/-- What is left of an install that has passed the gates. -/
def commitInstall (call : InstallCall) (extensions : List InstalledExtension)
    (ext : InstalledExtension) : StoreEffect InstalledExtension := do
  write call.recording.write extensions
  auditUnsigned call.auditing call.hasAuditLog ext.manifest
  return ext

/-- A call that raises leaves the index as it was. -/
def AllOrNothing (state : PlugState) (call : InstallCall) : Prop :=
  ∀ error state', (installExtension call).exec state = (.error error, state') →
    state'.index = state.index

/-- The log tells of the unsigned install of an extension. -/
def Audited (audit : SecurityAuditLog) (ext : InstalledExtension) : Prop :=
  ∃ entry ∈ audit, entry.action = "ExtensionUnsignedInstalled" ∧
    entry.target = .str ext.manifest.name ∧
    entry.auditId = s!"EXT-UNSIGNED-{ext.manifest.name}-{ext.manifest.version}"

/-- The log tells of each installed extension without a verified signature. -/
def AllAudited (state : PlugState) : Prop :=
  ∀ extensions, state.Holds extensions → ∀ ext ∈ extensions, ext.signatureVerified = false →
    Audited state.audit ext

/-- What follows the gates raises nothing once the index has been replaced. -/
def InstallCall.Finishes (call : InstallCall) : Prop :=
  match call.recording.write with
  | .written => call.hasAuditLog = true → call.auditing.raises = false
  | .lost _ => True
  | .interrupted _ => False

/-- The install is entered in the log, if the index is replaced at all. -/
def InstallCall.Audits (call : InstallCall) : Prop :=
  match call.recording.write with
  | .written => call.hasAuditLog = true ∧ call.auditing.raises = false
  | .lost _ => True
  | .interrupted _ => False

/-- The call audits what it records, or the log tells of it already. -/
def KeepsAudited (state : PlugState) : PlugCall → Prop
  | .install call => ∀ installed ext, call.Passes state.index installed ext →
      call.Audits ∨ Audited state.audit ext
  | .remove _ _ => True

/-! ### The gates -/

/-- The entries that checking permissions makes are not about installs. -/
def OfChecks (checks : SecurityAuditLog) : Prop :=
  ∀ entry ∈ checks, entry.action = "install_extension"

theorem exec_onAudit {α : Type} (effect : Effect SecurityAuditLog HostError α)
    (state : PlugState) : (onAudit effect).exec state =
      ((effect.exec state.audit).1.mapError .host,
        { state with audit := (effect.exec state.audit).2 }) := rfl

theorem exec_log (moment : AuditMoment) (entry : SecurityAuditEntry) (log : SecurityAuditLog) :
    (SecurityAuditLog.log moment entry).exec log =
      if moment.raises = true then (.error ⟨"security-audit.jsonl"⟩, log)
      else (.ok (), log ++ [entry]) := by
  unfold SecurityAuditLog.log
  split <;> rfl

/-- A decision is logged, or raises and is not. -/
theorem exec_validateAction (profile : SecurityProfile) (moment : AuditMoment)
    (actor : JsonObject) (action : String) (target : Json) (capability : Option String)
    (log : SecurityAuditLog) :
    ∃ checks, (profile.validateAction moment actor action target capability).exec log =
        (if profile.auditEnabled = true ∧ moment.raises = true then
          (.error ⟨"security-audit.jsonl"⟩, log)
        else (.ok (profile.decisionFor capability), log ++ checks)) ∧
      ∀ entry ∈ checks, entry.action = action := by
  unfold SecurityProfile.validateAction
  cases haudit : profile.auditEnabled with
  | false => exact ⟨[], by simp, by simp⟩
  | true =>
      cases hraises : moment.raises with
      | true =>
          refine ⟨[], ?_, by simp⟩
          simp only [exec_log, hraises, Effect.exec_bind, and_self, if_true]
      | false =>
          refine ⟨[?entry], ?_, ?_⟩
          rotate_left
          · simp only [exec_log, hraises, Effect.exec_bind, Bool.false_eq_true, and_false,
              if_false, if_true, Effect.exec_pure]
            rfl
          · simp

theorem permissionsPass_nil (profile : SecurityProfile) (moments : Nat → AuditMoment) :
    PermissionsPass profile moments [] := ⟨by simp, by simp⟩

/-- The first permission is allowed and logged, and the others pass at the
moments after its own. -/
theorem permissionsPass_cons {profile : SecurityProfile} {moments : Nat → AuditMoment}
    {permission : String} {rest : List String} :
    PermissionsPass profile moments (permission :: rest) ↔
      ¬(profile.auditEnabled = true ∧ (moments 0).raises = true) ∧
        profile.decisionFor (some permission) = .allowed ∧
          PermissionsPass profile (fun n => moments (n + 1)) rest := by
  constructor
  · rintro ⟨hallowed, hlogged⟩
    rw [List.forall_mem_cons] at hallowed
    refine ⟨?_, hallowed.1, hallowed.2, ?_⟩
    · rintro ⟨haudit, hraises⟩
      rw [hlogged haudit 0 (by simp)] at hraises
      cases hraises
    · intro haudit n hn
      exact hlogged haudit (n + 1) (by simpa using hn)
  · rintro ⟨hfirst, hallowed, hrest⟩
    refine ⟨List.forall_mem_cons.mpr ⟨hallowed, hrest.allowed⟩, ?_⟩
    intro haudit n hn
    cases n with
    | zero =>
        rw [not_and] at hfirst
        exact eq_false_of_ne_true (hfirst haudit)
    | succ n => exact hrest.logged haudit n (by simpa using hn)

/-- Checking the permissions enters only checks in the log, and returns exactly
if they all pass. -/
theorem exec_validatePermissions (profile : SecurityProfile) (moments : Nat → AuditMoment)
    (manifest : ExtensionManifest) (permissions : List String) (state : PlugState) :
    ∃ checks result, OfChecks checks ∧
      (validatePermissions profile moments manifest permissions).exec state =
        (result, { state with audit := state.audit ++ checks }) ∧
      (result = .ok () ↔ PermissionsPass profile moments permissions) := by
  induction permissions generalizing moments state with
  | nil =>
      exact ⟨[], .ok (), by simp [OfChecks], by simp [validatePermissions],
        iff_of_true rfl (permissionsPass_nil profile moments)⟩
  | cons permission rest ih =>
      obtain ⟨checks, hdecision, hchecks⟩ := exec_validateAction profile (moments 0)
        extensionActor "install_extension" (.str manifest.name) (some permission) state.audit
      rw [permissionsPass_cons, validatePermissions, Effect.exec_bind, exec_onAudit, hdecision]
      by_cases hfails : profile.auditEnabled = true ∧ (moments 0).raises = true
      · rw [if_pos hfails]
        exact ⟨[], .error (.host ⟨"security-audit.jsonl"⟩), by simp [OfChecks],
          by simp [Except.mapError], iff_of_false nofun fun h => h.1 hfails⟩
      · rw [if_neg hfails]
        simp only [Except.mapError]
        by_cases hallowed : profile.decisionFor (some permission) = .allowed
        · obtain ⟨later, result, hlater, hrest, hresult⟩ := ih (fun n => moments (n + 1))
            { state with audit := state.audit ++ checks }
          refine ⟨checks ++ later, result, ?_, ?_, ?_⟩
          · intro entry hentry
            exact (List.mem_append.mp hentry).elim (hchecks entry) (hlater entry)
          · rw [hallowed, if_neg (by simp)]
            simpa [List.append_assoc] using hrest
          · rw [hresult]
            exact ⟨fun h => ⟨hfails, hallowed, h⟩, fun h => h.2.2⟩
        · rw [if_pos hallowed]
          exact ⟨checks, .error _, hchecks, rfl, iff_of_false nofun fun h => hallowed h.2.1⟩

/-- What is left of an install once its permissions have passed. -/
def settleInstall (call : InstallCall) (manifest : ExtensionManifest) :
    StoreEffect InstalledExtension := do
  if !call.allowUnsigned then
    throw (.signature (s!"extension '{manifest.name}' is not verified; " ++
      "pass allow_unsigned to install it"))
  let sourcePath ← Effect.ofExcept (call.resolved.mapError .host)
  let installed : InstalledExtension :=
    { manifest, sourcePath, installedAt := call.installedAt, signatureVerified := false }
  record call.recording installed
  auditUnsigned call.auditing call.hasAuditLog manifest
  return installed

theorem installExtension_eq (call : InstallCall) : installExtension call = (do
    let manifest ← Effect.ofExcept (call.manifest?)
    let conflicts := detectConflicts manifest (← listInstalled call.listing)
    if conflicts ≠ [] then
      throw (.conflict ("; ".intercalate conflicts))
    validatePermissions call.profile call.decisions manifest manifest.permissions
    settleInstall call manifest) := rfl

/-- It raises before the index is written, or writes it. -/
theorem settleInstall_cases (call : InstallCall) (manifest : ExtensionManifest)
    (state : PlugState) :
    (∃ error, (settleInstall call manifest).exec state = (.error error, state) ∧
      ¬∃ sourcePath installed, call.allowUnsigned = true ∧ call.resolved = .ok sourcePath ∧
        call.recording.read state.index = .ok installed) ∨
      ∃ installed ext, call.allowUnsigned = true ∧ call.resolved = .ok ext.sourcePath ∧
        call.recording.read state.index = .ok installed ∧
        ext = { manifest, sourcePath := ext.sourcePath, installedAt := call.installedAt } ∧
        (settleInstall call manifest).exec state =
          (commitInstall call (installed.filter (fun other =>
            other.manifest.name ≠ ext.manifest.name) ++ [ext]) ext).exec state := by
  unfold settleInstall
  cases hunsigned : call.allowUnsigned with
  | false => exact .inl ⟨_, rfl, nofun⟩
  | true =>
      simp only [Bool.not_true, Bool.false_eq_true, if_false]
      cases hresolved : call.resolved with
      | error error => exact .inl ⟨.host error, rfl, nofun⟩
      | ok sourcePath =>
          let ext : InstalledExtension :=
            { manifest, sourcePath, installedAt := call.installedAt, signatureVerified := false }
          have hread := exec_listInstalled_eq call.recording state
          simp only [Except.mapError]
          rw [Effect.exec_bind_ok _ (Effect.exec_ofExcept (.ok sourcePath) state)]
          cases hrecording : call.recording.read state.index with
          | error error =>
              rw [hrecording] at hread
              exact .inl ⟨error, Effect.exec_bind_error _ (Effect.exec_bind_error _ hread), nofun⟩
          | ok installed =>
              rw [hrecording] at hread
              refine .inr ⟨installed, ext, trivial, rfl, rfl, rfl, ?_⟩
              change (record call.recording ext >>= _).exec _ = _
              rw [Effect.exec_bind, record, Effect.exec_bind_ok _ hread, commitInstall,
                Effect.exec_bind]

/-- An install that does not pass its gates raises, and at most its checks have
been entered in the log; otherwise it goes on to write the index. -/
theorem installExtension_cases (call : InstallCall) (state : PlugState) :
    ∃ checks, OfChecks checks ∧
      ((∃ error, (installExtension call).exec state =
            (.error error, { state with audit := state.audit ++ checks })) ∧
          (∀ installed ext, ¬ call.Passes state.index installed ext) ∨
        ∃ installed ext, call.Passes state.index installed ext ∧
          (installExtension call).exec state =
            (commitInstall call (installed.filter (fun other =>
              other.manifest.name ≠ ext.manifest.name) ++ [ext]) ext).exec
                { state with audit := state.audit ++ checks }) := by
  have hempty : OfChecks [] := List.forall_mem_nil _
  have hkept : { state with audit := state.audit ++ [] } = state := by rw [List.append_nil]
  rw [installExtension_eq]
  cases hmanifest : call.manifest? with
  | error error =>
      refine ⟨[], hempty, .inl ⟨⟨error, by rw [hkept]; rfl⟩, ?_⟩⟩
      intro installed ext hpasses
      cases hpasses.manifest.symm.trans hmanifest
  | ok manifest =>
      have hsame {installed : List InstalledExtension} {ext : InstalledExtension}
          (hpasses : call.Passes state.index installed ext) : ext.manifest = manifest :=
        Except.ok.inj (hpasses.manifest.symm.trans hmanifest)
      rw [Effect.exec_bind_ok _ (Effect.exec_ofExcept _ state)]
      cases hlisting : call.listing.read state.index with
      | error error =>
          refine ⟨[], hempty, .inl ⟨⟨error, ?_⟩, ?_⟩⟩
          · rw [hkept, Effect.exec_bind, exec_listInstalled_eq, hlisting]
          · intro installed ext hpasses
            obtain ⟨listed, hlisted, -⟩ := hpasses.unconflicted
            cases hlisted.symm.trans hlisting
      | ok listed =>
          rw [Effect.exec_bind_ok _ ((exec_listInstalled_eq _ _).trans (by rw [hlisting]))]
          by_cases hconflicts : detectConflicts manifest listed = []
          · -- From the permissions on the log may have grown.
            obtain ⟨checks, result, hchecks, hvalidate, hresult⟩ := exec_validatePermissions
              call.profile call.decisions manifest manifest.permissions state
            simp only [hconflicts, ne_eq, not_true_eq_false, if_false]
            refine ⟨checks, hchecks, ?_⟩
            cases result with
            | error error =>
                refine .inl ⟨⟨error, Effect.exec_bind_error _ hvalidate⟩, ?_⟩
                intro installed ext hpasses
                cases hresult.mpr (hsame hpasses ▸ hpasses.permissions)
            | ok _ =>
                rw [Effect.exec_bind_ok _ hvalidate]
                rcases settleInstall_cases call manifest
                    { state with audit := state.audit ++ checks } with
                  ⟨error, hexec, hnone⟩ |
                    ⟨installed, ext, hunsigned, hresolved, hread, hext, hexec⟩
                · refine .inl ⟨⟨error, hexec⟩, ?_⟩
                  intro installed ext hpasses
                  exact hnone ⟨ext.sourcePath, installed, hpasses.unsigned, hpasses.resolved,
                    hpasses.recorded⟩
                · refine .inr ⟨installed, ext, ?_, hexec⟩
                  rw [hext]
                  exact ⟨hmanifest, ⟨listed, hlisting, hconflicts⟩, hresult.mp rfl, hunsigned,
                    hresolved, hread, rfl, rfl, rfl⟩
          · refine ⟨[], hempty, .inl
              ⟨⟨.conflict ("; ".intercalate (detectConflicts manifest listed)), ?_⟩, ?_⟩⟩
            · rw [hkept, if_pos hconflicts]
              rfl
            · intro installed ext hpasses
              obtain ⟨other, hother, hnone⟩ := hpasses.unconflicted
              obtain rfl := Except.ok.inj (hlisting.symm.trans hother)
              exact hconflicts (hsame hpasses ▸ hnone)

/-! ### What is left behind -/

/-- The entry that tells of the unsigned install of an extension. -/
def unsignedEntry (moment : AuditMoment) (manifest : ExtensionManifest) : SecurityAuditEntry where
  auditId := s!"EXT-UNSIGNED-{manifest.name}-{manifest.version}"
  timestamp := moment.timestamp
  actor := extensionActor
  action := "ExtensionUnsignedInstalled"
  target := .str manifest.name
  capability := some "extension_install"
  decision := .warned
  reason := some "Unsigned extension installed with allow_unsigned"

section Commit

variable {call : InstallCall} (extensions : List InstalledExtension) (ext : InstalledExtension)
  (state : PlugState)

theorem exec_commitInstall_lost {error : HostError} (h : call.recording.write = .lost error) :
    (commitInstall call extensions ext).exec state = (.error (.host error), state) := by
  rw [commitInstall, h]
  rfl

theorem exec_commitInstall_interrupted {error : HostError}
    (h : call.recording.write = .interrupted error) :
    (commitInstall call extensions ext).exec state =
      (.error (.host error),
        { state with index := some (extensions.map InstalledExtension.modelDump) }) := by
  rw [commitInstall, h]
  rfl

/-- A written index is followed by the entry in the log, which may raise. -/
theorem exec_commitInstall_written (h : call.recording.write = .written) :
    (commitInstall call extensions ext).exec state =
      let index := some (extensions.map InstalledExtension.modelDump)
      if call.hasAuditLog = false then (.ok ext, { state with index })
      else if call.auditing.raises = true then
        (.error (.host ⟨"security-audit.jsonl"⟩), { state with index })
      else (.ok ext, ⟨index, state.audit ++ [unsignedEntry call.auditing ext.manifest]⟩) := by
  rw [commitInstall, h, auditUnsigned]
  cases call.hasAuditLog with
  | false => rfl
  | true =>
      have hwrite : (write .written extensions).exec state =
          (.ok (), { state with index := some (extensions.map InstalledExtension.modelDump) }) :=
        rfl
      rw [if_pos rfl, if_neg (by simp), Effect.exec_bind_ok _ hwrite, Effect.exec_bind,
        exec_onAudit, exec_log]
      cases call.auditing.raises with
      | false => rfl
      | true => rfl

end Commit

/-- The time an entry is read at does not show in its manifest. -/
theorem manifest_modelValidate (now now' : String) (item : Json) :
    (InstalledExtension.modelValidate now item).map InstalledExtension.manifest =
      (InstalledExtension.modelValidate now' item).map InstalledExtension.manifest := by
  cases item with
  | obj raw =>
      simp only [InstalledExtension.modelValidate, Option.bind_eq_bind, Option.map_bind]
      congr 1
      funext schemaVersion
      dsimp only [Function.comp_apply]
      split
      · simp only [Option.map_bind]
        congr 1
        funext manifest
        dsimp only [Function.comp_apply]
        simp only [Option.map_bind]
        congr 1
        funext sourcePath
        unfold strFieldOr
        cases Dict.get? raw "installed_at" with
        | some value => rfl
        | none => cases boolField raw "signature_verified" <;> rfl
      · rfl
  | _ => rfl

theorem forall₂_of_mapM {α β : Type} {f : α → Option β} {items : List α} {results : List β}
    (h : items.mapM f = some results) :
    List.Forall₂ (fun item result => f item = some result) items results := by
  induction items generalizing results with
  | nil =>
      cases h
      exact .nil
  | cons item rest ih =>
      rw [List.mapM_cons] at h
      obtain ⟨result, hresult, hrest⟩ := Option.bind_eq_some_iff.mp h
      obtain ⟨later, hlater, hresults⟩ := Option.bind_eq_some_iff.mp hrest
      cases hresults
      exact .cons hresult (ih hlater)

/-- An index that is read is absent, or its entries are validated. -/
theorem read_eq_ok {moment : StoreMoment} {index : Option (List Json)}
    {installed : List InstalledExtension} (h : moment.read index = .ok installed) :
    index = none ∧ installed = [] ∨ ∃ raw, index = some raw ∧
      List.Forall₂ (fun item ext => InstalledExtension.modelValidate moment.now item = some ext) raw
        installed := by
  unfold StoreMoment.read at h
  split at h
  · cases h
  · exact .inl ⟨rfl, (Except.ok.inj h).symm⟩
  · rename_i raw _
    refine .inr ⟨raw, rfl, ?_⟩
    split at h
    · rename_i hread
      exact Except.ok.inj h ▸ forall₂_of_mapM hread
    · cases h

theorem manifests_read {moment moment' : StoreMoment} {index : Option (List Json)}
    {installed installed' : List InstalledExtension} (h : moment.read index = .ok installed)
    (h' : moment'.read index = .ok installed') :
    installed.map InstalledExtension.manifest = installed'.map InstalledExtension.manifest := by
  rcases read_eq_ok h with ⟨rfl, rfl⟩ | ⟨raw, rfl, hread⟩ <;>
    rcases read_eq_ok h' with ⟨hnone, rfl⟩ | ⟨raw', hsome, hread'⟩
  · rfl
  · cases hsome
  · cases hnone
  · obtain rfl := Option.some.inj hsome
    clear h h' hsome
    induction hread generalizing installed' with
    | nil =>
        cases hread'
        rfl
    | @cons item ext rest exts hitem hrest ih =>
        cases hread' with
        | @cons _ ext' _ exts' hitem' hrest' =>
            have hsame := manifest_modelValidate moment.now moment'.now item
            rw [hitem, hitem'] at hsame
            rw [List.map_cons, List.map_cons, ih hrest', Option.some.inj hsame]

/-- A call that passes the gates records an extension of a new name. -/
theorem InstallCall.Passes.fresh {call : InstallCall} {index : Option (List Json)}
    {installed : List InstalledExtension} {ext : InstalledExtension}
    (h : call.Passes index installed ext) :
    installed.filter (fun other => other.manifest.name ≠ ext.manifest.name) = installed := by
  obtain ⟨listed, hlisted, hnone⟩ := h.unconflicted
  rw [List.filter_eq_self]
  intro other hother
  have hmanifest : other.manifest ∈ listed.map InstalledExtension.manifest :=
    manifests_read h.recorded hlisted ▸ List.mem_map_of_mem hother
  obtain ⟨same, hsame, hequal⟩ := List.mem_map.mp hmanifest
  exact decide_eq_true (hequal ▸ fresh_of_detectConflicts hnone same hsame)

/-- So the index it writes is not the one that was there. -/
theorem InstallCall.Passes.changes {call : InstallCall} {index : Option (List Json)}
    {installed : List InstalledExtension} {ext : InstalledExtension}
    (h : call.Passes index installed ext) :
    some ((installed ++ [ext]).map InstalledExtension.modelDump) ≠ index := by
  rcases read_eq_ok h.recorded with ⟨rfl, -⟩ | ⟨raw, rfl, hread⟩
  · simp
  · intro hsame
    have hlength := congrArg List.length (Option.some.inj hsame)
    rw [List.length_map, List.length_append, hread.length_eq, List.length_singleton] at hlength
    omega

/-- A call leaves the index as it was where it raises, exactly if nothing raises
after it has replaced the index. -/
theorem allOrNothing_iff (state : PlugState) (call : InstallCall) :
    AllOrNothing state call ↔
      ∀ installed ext, call.Passes state.index installed ext → call.Finishes := by
  obtain ⟨checks, -, ⟨⟨error, hexec⟩, hnone⟩ | ⟨installed, ext, hpasses, hexec⟩⟩ :=
    installExtension_cases call state
  · refine iff_of_true ?_ fun installed ext hpasses => absurd hpasses (hnone installed ext)
    intro other state' hraised
    rw [hexec] at hraised
    cases hraised
    rfl
  · rw [hpasses.fresh] at hexec
    have hall (h : call.Finishes) : ∀ installed ext, call.Passes state.index installed ext →
        call.Finishes := fun _ _ _ => h
    rw [show (∀ installed ext, call.Passes state.index installed ext → call.Finishes) ↔
      call.Finishes from ⟨fun h => h installed ext hpasses, hall⟩]
    unfold AllOrNothing InstallCall.Finishes
    rw [hexec]
    cases hwrite : call.recording.write with
    | lost error =>
        rw [exec_commitInstall_lost _ _ _ hwrite]
        refine iff_of_true ?_ trivial
        intro other state' hraised
        cases hraised
        rfl
    | interrupted error =>
        rw [exec_commitInstall_interrupted _ _ _ hwrite]
        refine iff_of_false (fun h => ?_) id
        exact hpasses.changes (h _ _ rfl)
    | written =>
        rw [exec_commitInstall_written _ _ _ hwrite]
        cases call.hasAuditLog with
        | false => exact iff_of_true nofun nofun
        | true =>
            cases call.auditing.raises with
            | false => exact iff_of_true nofun fun _ => rfl
            | true => exact iff_of_false (fun h => hpasses.changes (h _ _ rfl)) (by simp)

/-! ### Runs -/

theorem holds_unique {state : PlugState} {extensions extensions' : List InstalledExtension}
    (h : state.Holds extensions) (h' : state.Holds extensions') : extensions = extensions' := by
  rcases h with ⟨hnone, rfl⟩ | hsome <;> rcases h' with ⟨hnone', rfl⟩ | hsome'
  · rfl
  · cases hnone.symm.trans hsome'
  · cases hnone'.symm.trans hsome
  · have hdump := Option.some.inj (hsome.symm.trans hsome')
    have hread := mapM_modelValidate_modelDump "" extensions
    rw [hdump, mapM_modelValidate_modelDump] at hread
    exact (Option.some.inj hread).symm

theorem read_of_holds {moment : StoreMoment} {state : PlugState}
    {extensions installed : List InstalledExtension} (h : state.Holds extensions)
    (hread : moment.read state.index = .ok installed) : installed = extensions := by
  have hexec := exec_listInstalled moment h
  rw [exec_listInstalled_eq, hread] at hexec
  cases hunreadable : moment.unreadable with
  | some error =>
      rw [hunreadable] at hexec
      cases (Prod.mk.inj hexec).1
  | none =>
      rw [hunreadable] at hexec
      exact Except.ok.inj (Prod.mk.inj hexec).1

/-- Removing an extension enters nothing in the log. -/
theorem audit_exec_remove (moment : StoreMoment) (name : String) (state : PlugState) :
    ((remove moment name).exec state).2.audit = state.audit := by
  rw [remove, Effect.exec_bind, exec_listInstalled_eq]
  cases moment.read state.index with
  | error error => rfl
  | ok installed =>
      dsimp only
      split
      · rfl
      · rw [Effect.exec_bind_pure_snd]
        unfold write
        cases moment.write <;> rfl

section Audit

variable {audit : SecurityAuditLog} {ext : InstalledExtension}

theorem Audited.append (h : Audited audit ext) (later : SecurityAuditLog) :
    Audited (audit ++ later) ext := by
  obtain ⟨entry, hentry, hrest⟩ := h
  exact ⟨entry, List.mem_append_left _ hentry, hrest⟩

theorem audited_append_checks {checks : SecurityAuditLog} (hchecks : OfChecks checks) :
    Audited (audit ++ checks) ext ↔ Audited audit ext := by
  constructor
  · rintro ⟨entry, hentry, haction, hrest⟩
    rcases List.mem_append.mp hentry with hold | hnew
    · exact ⟨entry, hold, haction, hrest⟩
    · rw [hchecks entry hnew] at haction
      exact absurd haction (by decide)
  · exact fun h => h.append checks

theorem audited_unsignedEntry (moment : AuditMoment) :
    Audited (audit ++ [unsignedEntry moment ext.manifest]) ext :=
  ⟨unsignedEntry moment ext.manifest, by simp, rfl, rfl, rfl⟩

end Audit

/-- Once an extension has been added to an audited index, the index is audited
exactly if the log tells of the extension. -/
theorem allAudited_snoc {state state' : PlugState} {extensions : List InstalledExtension}
    {ext : InstalledExtension} (haudited : AllAudited state) (hholds : state.Holds extensions)
    (hunverified : ext.signatureVerified = false)
    (hlog : ∃ later, state'.audit = state.audit ++ later)
    (hindex : state'.index = some ((extensions ++ [ext]).map InstalledExtension.modelDump)) :
    AllAudited state' ↔ Audited state'.audit ext := by
  have hholds' : state'.Holds (extensions ++ [ext]) := .inr hindex
  constructor
  · intro h
    exact h _ hholds' ext (by simp) hunverified
  · intro h others hothers other hother hsigned
    obtain rfl := holds_unique hholds' hothers
    rcases List.mem_append.mp hother with hold | hnew
    · obtain ⟨later, hlater⟩ := hlog
      rw [hlater]
      exact (haudited extensions hholds other hold hsigned).append later
    · rwa [List.mem_singleton.mp hnew]

/-- With its index as it was, a log that has grown still tells of all. -/
theorem AllAudited.grow {state state' : PlugState} (h : AllAudited state)
    (hindex : state'.index = state.index) {later : SecurityAuditLog}
    (hlog : state'.audit = state.audit ++ later) : AllAudited state' := by
  intro extensions hholds ext hext hsigned
  rw [hlog]
  exact (h extensions ((holds_congr hindex).mp hholds) ext hext hsigned).append later

/-- An install keeps the index audited exactly if it audits what it records. -/
theorem install_allAudited {state : PlugState} {extensions : List InstalledExtension}
    (hholds : state.Holds extensions) (haudited : AllAudited state) (call : InstallCall) :
    AllAudited ((installExtension call).exec state).2 ↔ KeepsAudited state (.install call) := by
  obtain ⟨checks, hchecks, ⟨⟨error, hexec⟩, hnone⟩ | ⟨installed, ext, hpasses, hexec⟩⟩ :=
    installExtension_cases call state
  · rw [hexec]
    exact iff_of_true (haudited.grow rfl rfl)
      fun installed ext hpasses => absurd hpasses (hnone installed ext)
  · -- what passes the gates is told from the others by its manifest alone
    have hkeeps : KeepsAudited state (.install call) ↔
        call.Audits ∨ Audited (state.audit ++ checks) ext := by
      rw [audited_append_checks hchecks]
      refine ⟨fun h => h installed ext hpasses, ?_⟩
      intro h installed' ext' hpasses'
      have hsame := Except.ok.inj (hpasses.manifest.symm.trans hpasses'.manifest)
      unfold Audited at h ⊢
      rwa [← hsame]
    rw [hkeeps, hexec, hpasses.fresh, read_of_holds hholds hpasses.recorded]
    unfold InstallCall.Audits
    cases hwrite : call.recording.write with
    | lost error =>
        rw [exec_commitInstall_lost _ _ _ hwrite]
        exact iff_of_true (haudited.grow rfl rfl) (.inl trivial)
    | interrupted error =>
        rw [exec_commitInstall_interrupted _ _ _ hwrite,
          allAudited_snoc haudited hholds hpasses.unverified ⟨checks, rfl⟩ rfl]
        simp
    | written =>
        have hrecorded (later : SecurityAuditLog) :
            AllAudited ⟨some ((extensions ++ [ext]).map InstalledExtension.modelDump),
                state.audit ++ checks ++ later⟩ ↔ Audited (state.audit ++ checks ++ later) ext :=
          allAudited_snoc haudited hholds hpasses.unverified ⟨checks ++ later, by simp⟩ rfl
        rw [exec_commitInstall_written _ _ _ hwrite]
        cases call.hasAuditLog with
        | false => simpa using hrecorded []
        | true =>
            cases call.auditing.raises with
            | true => simpa using hrecorded []
            | false =>
                refine iff_of_true ((hrecorded _).mpr (audited_unsignedEntry call.auditing)) ?_
                exact .inl ⟨rfl, rfl⟩

/-- A call keeps the index audited exactly if it audits what it records. -/
theorem step_allAudited {state : PlugState} (hholds : ∃ extensions, state.Holds extensions)
    (haudited : AllAudited state) (call : PlugCall) :
    AllAudited (step state call) ↔ KeepsAudited state call := by
  obtain ⟨extensions, hholds⟩ := hholds
  cases call with
  | install call => exact install_allAudited hholds haudited call
  | remove name moment =>
      refine iff_of_true ?_ trivial
      have hlog := audit_exec_remove moment name state
      rcases exec_remove moment name hholds with hsame | hholds'
      · rw [step, hsame]
        exact haudited
      · intro others hothers ext hext hsigned
        obtain rfl := holds_unique hholds' hothers
        rw [step, hlog]
        exact haudited extensions hholds ext (List.mem_of_mem_filter hext) hsigned

/-- A call that raises leaves the index as it was exactly if nothing raises once
the index has been replaced; and along any calls the log tells of each installed
extension exactly if every install that replaces the index can enter it in the
log, or finds it there. -/
theorem install_atomic_audited_iff (state : PlugState) (call : InstallCall)
    (audit : SecurityAuditLog) (calls : List PlugCall) :
    (AllOrNothing state call ↔
      ∀ installed ext, call.Passes state.index installed ext → call.Finishes) ∧
    ((∀ before after, calls = before ++ after → AllAudited (run step ⟨none, audit⟩ before)) ↔
      ∀ before call after, calls = before ++ call :: after →
        KeepsAudited (run step ⟨none, audit⟩ before) call) := by
  refine ⟨allOrNothing_iff state call, ?_⟩
  apply run_throughout_iff step (K := fun state => ∃ extensions, state.Holds extensions)
  · rintro state call - ⟨extensions, hholds⟩
    obtain ⟨extensions', hholds', -⟩ := step_holds hholds call
    exact ⟨extensions', hholds'⟩
  · intro state call _ hholds haudited
    exact step_allAudited hholds haudited call
  · exact ⟨[], .inl ⟨rfl, rfl⟩⟩
  · rintro extensions (⟨-, rfl⟩ | hsome)
    · exact List.forall_mem_nil _
    · cases hsome

theorem pyStrip_lint : pyStrip "lint" ≠ "" := by decide

theorem pyStrip_version : pyStrip "1.0" ≠ "" := by decide

def lintManifest : ExtensionManifest where
  schemaVersion := "0.1.0"
  name := "lint"
  version := "1.0"
  extensionPoint := .stageAgent
  entryPoint := "lint:Agent"
  description := ""
  permissions := []
  signed := false
  forgeMinVersion := none
  name_nonempty := pyStrip_lint
  version_nonempty := pyStrip_version

/-- An install whose entry in the log cannot be written. -/
def fullDiskInstall : InstallCall where
  path := "extension.yaml"
  source := .yaml (.obj lintManifest.modelDump)
  profile := {}
  allowUnsigned := true
  hasAuditLog := true
  listing := { now := "" }
  decisions := fun _ => ⟨0, "", false⟩
  resolved := .ok "/lint"
  installedAt := "2025-01-01T00:00:00Z"
  recording := { now := "" }
  auditing := ⟨0, "", true⟩

/-- It raises, with the extension installed and nothing in the log. -/
theorem install_fullDisk : ¬AllOrNothing {} fullDiskInstall ∧
    ¬AllAudited (run step {} [.install fullDiskInstall]) := by
  have hmanifest : fullDiskInstall.manifest? = .ok lintManifest := by
    have hmapping : (Json.obj lintManifest.modelDump).or (.obj []) =
        .obj lintManifest.modelDump := rfl
    change loadManifest "extension.yaml" "" (.yaml (.obj lintManifest.modelDump)) = _
    simp only [loadManifest, hmapping, ExtensionManifest.validate_modelDump]
  have hexec : (installExtension fullDiskInstall).exec {} =
      (.error (.host ⟨"security-audit.jsonl"⟩), ⟨some [InstalledExtension.modelDump {
        manifest := lintManifest
        sourcePath := "/lint"
        installedAt := "2025-01-01T00:00:00Z" }], []⟩) := by
    rw [installExtension_eq, hmanifest]
    rfl
  constructor
  · intro h
    cases h _ _ hexec
  · intro h
    change AllAudited ((installExtension fullDiskInstall).exec {}).2 at h
    rw [hexec] at h
    obtain ⟨entry, hentry, -⟩ := h [_] (.inr rfl) _ (List.mem_singleton_self _) rfl
    cases hentry

end Installer

end ForgeOS
