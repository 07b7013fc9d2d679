import ForgeOS.Extensions.Atomicity
import ForgeOS.Library.Numerals
import ForgeOS.Tracing.Tracer

/-!
The identities of audited decisions. An entry is named by the millisecond in
which it is made, or by the extension that it is about, and the tracer takes
entries of one name for one trace.
-/

namespace ForgeOS

open Library

namespace SecurityAuditEntry

def modelDump (entry : SecurityAuditEntry) : JsonObject := [
  ("schema_version", .str "0.1.0"),
  ("audit_id", .str entry.auditId),
  ("timestamp", .str entry.timestamp),
  ("actor", .obj entry.actor),
  ("action", .str entry.action),
  ("target", entry.target),
  ("capability", .optional entry.capability),
  ("decision", .str entry.decision.value),
  ("approval", .null),
  ("reason", .optional entry.reason),
  ("redactions", .arr [])]

def span (entry : SecurityAuditEntry) : Span :=
  auditSpan entry.modelDump entry.auditId
    (if entry.action = "" then "security-audit" else entry.action) entry.timestamp

end SecurityAuditEntry

/-- The clock, at each of the calls that read it. It does not go back, and gives
every entry a timestamp. -/
structure AuditClock where
  moment : Nat → AuditMoment
  forward : ∀ m n, m ≤ n → (moment m).millis ≤ (moment n).millis
  stamped : ∀ n, (moment n).timestamp ≠ ""

def configRewriteAction : String := "doctor_autofix_config_rewrite"

/-- The kinds of ids that are written to the log. -/
inductive AuditKind where
  | decision
  | timeout
  | unsigned
deriving DecidableEq, Repr

/-- How the ids of one kind begin. -/
def AuditKind.start : AuditKind → String
  | .decision => "AUD-"
  | .timeout => "AUD-TO-"
  | .unsigned => "EXT-UNSIGNED-"

/-- A call that audits a decision: `validate_action`, what `run_command` does
when the command times out, the rewriting of an invalid configuration, or the
install of an unsigned extension. -/
inductive AuditRequest where
  | validate (profile : SecurityProfile) (actor : JsonObject) (action : String) (target : Json)
      (capability : Option String)
  | timedOut (profile : SecurityProfile) (actor : JsonObject) (command : Json) (seconds : Int)
  | configRewrite (configPath : String)
  | unsigned (manifest : ExtensionManifest)

namespace AuditRequest

/-- The last two write to the log whatever the profile says. -/
def audited : AuditRequest → Bool
  | .validate profile _ _ _ _ => profile.auditEnabled
  | .timedOut profile _ _ _ => profile.auditEnabled
  | .configRewrite _ => true
  | .unsigned _ => true

def kind : AuditRequest → AuditKind
  | .validate .. => .decision
  | .timedOut .. => .timeout
  | .configRewrite _ => .decision
  | .unsigned _ => .unsigned

/-- What an id says behind its beginning. -/
def label (millis : Int) : AuditRequest → String
  | .unsigned manifest => s!"{manifest.name}-{manifest.version}"
  | _ => toString millis

/-- The entry of a call at some moment. -/
def entry (moment : AuditMoment) : AuditRequest → SecurityAuditEntry
  | .validate profile actor action target capability => {
      auditId := s!"AUD-{moment.millis}"
      timestamp := moment.timestamp
      actor
      action
      target
      capability
      decision := profile.decisionFor capability
      reason := some s!"Policy {(profile.policyFor capability).value} applied" }
  | .timedOut _ actor command seconds => {
      auditId := s!"AUD-TO-{moment.millis}"
      timestamp := moment.timestamp
      actor
      action := "execute_command_timeout"
      target := command
      capability := some "shell"
      decision := .failed
      reason := some s!"Command timed out after {seconds}s" }
  | .configRewrite configPath => {
      auditId := s!"AUD-{moment.millis}"
      timestamp := moment.timestamp
      actor := [("type", .str "doctor_autofix")]
      action := configRewriteAction
      target := .str configPath
      capability := none
      decision := .allowed
      reason := some "rebuilt invalid config.yaml from defaults" }
  | .unsigned manifest => Installer.unsignedEntry moment manifest

/-- The call. The error that a command has timed out is raised behind it. -/
def perform (moment : AuditMoment) : AuditRequest → Effect SecurityAuditLog HostError Unit
  | .validate profile actor action target capability => do
      let _ ← profile.validateAction moment actor action target capability
  | .timedOut profile actor command seconds =>
      if profile.auditEnabled then
        SecurityAuditLog.log moment (entry moment (.timedOut profile actor command seconds))
      else return
  | .configRewrite configPath =>
      SecurityAuditLog.log moment (entry moment (.configRewrite configPath))
  | .unsigned manifest => SecurityAuditLog.log moment (entry moment (.unsigned manifest))

end AuditRequest

namespace AuditClock

variable (clock : AuditClock)

/-- The log behind some calls, of which the first is the `n`-th to read the
clock. -/
def logFrom (n : Nat) (log : SecurityAuditLog) : List AuditRequest → SecurityAuditLog
  | [] => log
  | request :: rest =>
      logFrom (n + 1) ((request.perform (clock.moment n)).exec log).2 rest

/-- The call is audited, and its entry is written. -/
def isRecorded (call : AuditRequest × Nat) : Bool :=
  call.1.audited && !(clock.moment call.2).raises

/-- The calls that are recorded, each with its reading of the clock. -/
def recordedFrom (n : Nat) (requests : List AuditRequest) : List (AuditRequest × Nat) :=
  (requests.zipIdx n).filter clock.isRecorded

def entryOf (call : AuditRequest × Nat) : SecurityAuditEntry :=
  call.1.entry (clock.moment call.2)

def millisOf (call : AuditRequest × Nat) : Int := (clock.moment call.2).millis

/-- The recorded calls of one kind. -/
def recordedAs (kind : AuditKind) (n : Nat) (requests : List AuditRequest) :
    List (AuditRequest × Nat) :=
  (clock.recordedFrom n requests).filter fun call => call.1.kind = kind

/-- Of the recorded decisions, and of the timeouts, no two in succession fall
into one millisecond, and no two of the installs are of one name and version. -/
structure Spaced (n : Nat) (requests : List AuditRequest) : Prop where
  timed : ∀ kind, kind ≠ .unsigned →
    ((clock.recordedAs kind n requests).map clock.millisOf).IsChain (· ≠ ·)
  named : ((clock.recordedAs .unsigned n requests).map fun call =>
    call.1.label (clock.millisOf call)).Nodup

end AuditClock

/-- The ids of a log are distinct, and the spans of its entries are each the only
one of their trace. -/
def Identified (host : TraceHost) (log : SecurityAuditLog) : Prop :=
  (log.map SecurityAuditEntry.auditId).Nodup ∧
    ∃ spans, auditSpansFromEntries host (log.map fun entry => .obj entry.modelDump) = .ok spans ∧
      ∀ entry ∈ log, (TraceIndex.ofSpans spans).spansFor entry.auditId = [entry.span]

namespace AuditClock

variable (clock : AuditClock)

/-! ### What is recorded -/

/-- A decision that is audited is made if its entry is written. -/
theorem exec_validateAction (profile : SecurityProfile) (moment : AuditMoment)
    (actor : JsonObject) (action : String) (target : Json) (capability : Option String)
    (log : SecurityAuditLog) :
    (profile.validateAction moment actor action target capability).exec log =
      if profile.auditEnabled = true then
        if moment.raises = true then (.error ⟨"security-audit.jsonl"⟩, log)
        else (.ok (profile.decisionFor capability),
          log ++ [AuditRequest.entry moment (.validate profile actor action target capability)])
      else (.ok (profile.decisionFor capability), log) := by
  unfold SecurityProfile.validateAction
  cases haudit : profile.auditEnabled with
  | false => rfl
  | true =>
      cases hraises : moment.raises with
      | true => simp only [Installer.exec_log, hraises, Effect.exec_bind, if_true]
      | false =>
          simp only [Installer.exec_log, hraises, Effect.exec_bind, Bool.false_eq_true, if_false,
            if_true]
          rfl

theorem exec_perform (moment : AuditMoment) (request : AuditRequest) (log : SecurityAuditLog) :
    ((request.perform moment).exec log).2 =
      if request.audited && !moment.raises then log ++ [request.entry moment] else log := by
  cases request with
  | validate profile actor action target capability =>
      change (((profile.validateAction moment actor action target capability) >>=
        fun _ => pure ()).exec log).2 = _
      rw [Effect.exec_bind, exec_validateAction, AuditRequest.audited]
      cases profile.auditEnabled with
      | false => rfl
      | true => cases moment.raises <;> rfl
  | timedOut profile actor command seconds =>
      rw [AuditRequest.perform, AuditRequest.audited]
      cases profile.auditEnabled with
      | false => rfl
      | true =>
          rw [if_pos rfl, Installer.exec_log]
          cases moment.raises <;> rfl
  | configRewrite configPath =>
      rw [AuditRequest.perform, Installer.exec_log]
      cases moment.raises <;> rfl
  | unsigned manifest =>
      rw [AuditRequest.perform, Installer.exec_log]
      cases moment.raises <;> rfl

theorem recordedFrom_cons (n : Nat) (request : AuditRequest) (rest : List AuditRequest) :
    clock.recordedFrom n (request :: rest) =
      if clock.isRecorded (request, n) then (request, n) :: clock.recordedFrom (n + 1) rest
      else clock.recordedFrom (n + 1) rest := by
  rw [recordedFrom, List.zipIdx_cons, List.filter_cons]
  rfl

/-- A log grows by the entries of the recorded calls. -/
theorem logFrom_eq (n : Nat) (log : SecurityAuditLog) (requests : List AuditRequest) :
    clock.logFrom n log requests = log ++ (clock.recordedFrom n requests).map clock.entryOf := by
  induction requests generalizing n log with
  | nil => exact (List.append_nil log).symm
  | cons request rest ih =>
      rw [logFrom, ih, exec_perform, recordedFrom_cons, isRecorded]
      dsimp only
      split
      · rw [List.map_cons, List.append_assoc]
        rfl
      · rfl

/-- The recorded calls read the clock one after the other. -/
theorem millis_recordedFrom (n : Nat) (requests : List AuditRequest) :
    (clock.recordedFrom n requests).Pairwise fun a b => clock.millisOf a ≤ clock.millisOf b := by
  have hindices : (requests.zipIdx n).Pairwise fun a b => a.2 < b.2 := by
    rw [← List.pairwise_map (f := Prod.snd) (R := (· < ·)), List.zipIdx_map_snd]
    exact List.pairwise_lt_range'
  exact (hindices.imp fun h => clock.forward _ _ h.le).filter _

/-! ### Ids -/

theorem auditId_entryOf (call : AuditRequest × Nat) :
    (clock.entryOf call).auditId = call.1.kind.start ++ call.1.label (clock.millisOf call) := by
  obtain ⟨request, n⟩ := call
  cases request with
  | unsigned manifest =>
      change "EXT-UNSIGNED-" ++ manifest.name ++ "-" ++ manifest.version =
        "EXT-UNSIGNED-" ++ (manifest.name ++ "-" ++ manifest.version)
      simp only [String.append_assoc]
  | _ => rfl

theorem label_of_kind {request : AuditRequest} (h : request.kind ≠ .unsigned) (millis : Int) :
    request.label millis = toString millis := by
  cases request with
  | unsigned manifest => exact absurd rfl h
  | _ => rfl

/-- A text of digits is not one that begins with a `T`. -/
theorem start_append_ne (a b : Int) : "AUD-" ++ toString a ≠ "AUD-TO-" ++ toString b := by
  intro h
  have hchars := congrArg String.toList h
  rw [String.toList_append, String.toList_append] at hchars
  have hrest : (toString a).toList = 'T' :: 'O' :: '-' :: (toString b).toList :=
    (List.append_right_inj "AUD-".toList).mp hchars
  rcases isDigit_of_mem_int (a := a) (c := 'T') (by rw [hrest]; simp) with h | h
  · cases h
  · cases h

/-- No other id begins like that of an unsigned install. -/
theorem start_append_ne_unsigned {kind : AuditKind} (hkind : kind ≠ .unsigned)
    (label other : String) :
    kind.start ++ label ≠ AuditKind.unsigned.start ++ other := by
  intro h
  have hchars := congrArg String.toList h
  rw [String.toList_append, String.toList_append] at hchars
  cases kind with
  | unsigned => exact hkind rfl
  | _ => cases hchars

/-- Two ids are one just if they are of one kind and say the same. -/
theorem auditId_entryOf_eq_iff (first second : AuditRequest × Nat) :
    (clock.entryOf first).auditId = (clock.entryOf second).auditId ↔
      first.1.kind = second.1.kind ∧
        first.1.label (clock.millisOf first) = second.1.label (clock.millisOf second) := by
  rw [auditId_entryOf, auditId_entryOf]
  by_cases hsame : first.1.kind = second.1.kind
  · rw [hsame, String.append_right_inj, and_iff_right rfl]
  · refine iff_of_false ?_ fun h => hsame h.1
    by_cases hfirst : first.1.kind = .unsigned
    · rw [hfirst] at hsame ⊢
      exact (start_append_ne_unsigned (Ne.symm hsame) _ _).symm
    · by_cases hsecond : second.1.kind = .unsigned
      · rw [hsecond]
        exact start_append_ne_unsigned hfirst _ _
      · rw [label_of_kind hfirst, label_of_kind hsecond]
        generalize first.1.kind = kind at hsame hfirst ⊢
        generalize second.1.kind = kind' at hsame hsecond ⊢
        cases kind <;> cases kind' <;>
          first
          | exact absurd rfl hsame
          | exact absurd rfl hfirst
          | exact absurd rfl hsecond
          | exact start_append_ne _ _
          | exact (start_append_ne _ _).symm

/-- In a list that does not fall, elements are distinct if neighbours are. -/
theorem isChain_ne_iff_nodup {α : Type} [LinearOrder α] {values : List α}
    (hsorted : values.Pairwise (· ≤ ·)) : values.IsChain (· ≠ ·) ↔ values.Nodup := by
  refine ⟨fun hchain => ?_, List.Pairwise.isChain⟩
  induction values with
  | nil => exact List.nodup_nil
  | cons first rest ih =>
      obtain ⟨hfirst, hrest⟩ := List.pairwise_cons.mp hsorted
      refine List.nodup_cons.mpr ⟨fun hmem => ?_, ih hrest hchain.tail⟩
      cases rest with
      | nil => cases hmem
      | cons second others =>
          have hne : first ≠ second := (List.isChain_cons_cons.mp hchain).1
          have hsecond : second ≤ first := by
            rcases List.mem_cons.mp hmem with rfl | hother
            · exact absurd rfl hne
            · exact (List.pairwise_cons.mp hrest).1 first hother
          exact hne (le_antisymm (hfirst second List.mem_cons_self) hsecond)

/-- The ids of the recorded calls are distinct exactly if the calls are spaced. -/
theorem nodup_ids_iff (n : Nat) (requests : List AuditRequest) :
    (((clock.recordedFrom n requests).map clock.entryOf).map SecurityAuditEntry.auditId).Nodup ↔
      clock.Spaced n requests := by
  let labelOf (call : AuditRequest × Nat) := call.1.label (clock.millisOf call)
  have hids : (((clock.recordedFrom n requests).map clock.entryOf).map
        SecurityAuditEntry.auditId).Nodup ↔
      (clock.recordedFrom n requests).Pairwise fun a b =>
        a.1.kind = b.1.kind → labelOf a ≠ labelOf b := by
    rw [List.map_map, List.Nodup, List.pairwise_map]
    simp only [Function.comp_apply, ne_eq, auditId_entryOf_eq_iff, not_and, labelOf]
  have hkind (kind : AuditKind) : ((clock.recordedAs kind n requests).map labelOf).Nodup ↔
      (clock.recordedFrom n requests).Pairwise fun a b =>
        a.1.kind = kind → b.1.kind = kind → labelOf a ≠ labelOf b := by
    rw [recordedAs, List.Nodup, List.pairwise_map, List.pairwise_filter]
    simp only [decide_eq_true_eq]
  have htimed {kind : AuditKind} (h : kind ≠ .unsigned) :
      ((clock.recordedAs kind n requests).map clock.millisOf).IsChain (· ≠ ·) ↔
        ((clock.recordedAs kind n requests).map labelOf).Nodup := by
    have hsorted : (clock.recordedAs kind n requests).Pairwise fun a b =>
        clock.millisOf a ≤ clock.millisOf b := (clock.millis_recordedFrom n requests).filter _
    have hlabels : (clock.recordedAs kind n requests).map labelOf =
        ((clock.recordedAs kind n requests).map clock.millisOf).map toString := by
      rw [List.map_map]
      refine List.map_congr_left fun call hcall => label_of_kind ?_ _
      rwa [of_decide_eq_true (List.mem_filter.mp hcall).2]
    rw [isChain_ne_iff_nodup (List.pairwise_map.mpr hsorted), hlabels,
      List.nodup_map_iff int_toString_injective]
  rw [hids]
  constructor
  · intro h
    have hall (kind : AuditKind) : ((clock.recordedAs kind n requests).map labelOf).Nodup :=
      (hkind kind).mpr (h.imp fun hne ha hb => hne (ha.trans hb.symm))
    exact ⟨fun kind hne => (htimed hne).mpr (hall kind), hall .unsigned⟩
  · intro h
    have hall (kind : AuditKind) : ((clock.recordedAs kind n requests).map labelOf).Nodup := by
      by_cases hne : kind = .unsigned
      · exact hne ▸ h.named
      · exact (htimed hne).mp (h.timed kind hne)
    have hpairs (kind : AuditKind) := (hkind kind).mp (hall kind)
    simp only [List.pairwise_iff_forall_sublist] at hpairs ⊢
    exact fun {a b} hsublist hsame => hpairs b.1.kind hsublist hsame rfl

/-! ### Traces -/

theorem readEntry_modelDump (host : TraceHost) {entry : SecurityAuditEntry}
    (hid : entry.auditId ≠ "") (htimestamp : entry.timestamp ≠ "") :
    readEntry host (.obj entry.modelDump) = .ok (some entry.span) := by
  have htrace : auditTrace? entry.modelDump = some entry.auditId := by
    change (if (decide (entry.auditId ≠ "") && decide (entry.timestamp ≠ "")) = true then
      some entry.auditId else none) = some entry.auditId
    simp [hid, htimestamp]
  have hname : auditName host entry.modelDump =
      .ok (if entry.action = "" then "security-audit" else entry.action) := by
    change (if decide (entry.action ≠ "") = true then Except.ok entry.action
      else .ok "security-audit") = _
    by_cases haction : entry.action = ""
    · simp [haction]
    · simp [haction]
  rw [readEntry, htrace]
  dsimp only
  rw [hname]
  rfl

/-- The entry of an id is the only one if ids are distinct. -/
theorem filter_auditId {log : SecurityAuditLog}
    (hnodup : (log.map SecurityAuditEntry.auditId).Nodup) {entry : SecurityAuditEntry}
    (hentry : entry ∈ log) : (log.filter fun other => other.auditId = entry.auditId) = [entry] := by
  obtain ⟨before, after, rfl⟩ := List.append_of_mem hentry
  rw [List.map_append, List.map_cons, List.nodup_middle, List.nodup_cons,
    ← List.map_append] at hnodup
  have hnone (others : SecurityAuditLog) (hothers : ∀ other ∈ others, other ∈ before ++ after) :
      (others.filter fun other => other.auditId = entry.auditId) = [] := by
    rw [List.filter_eq_nil_iff]
    intro other hother hsame
    exact hnodup.1 (List.mem_map.mpr ⟨other, hothers other hother, of_decide_eq_true hsame⟩)
  rw [List.filter_append, List.filter_cons, hnone before fun _ => List.mem_append_left _,
    hnone after fun _ => List.mem_append_right _]
  simp

/-- Entries that can form spans are identified exactly if their ids are distinct. -/
theorem identified_iff_nodup (host : TraceHost) {log : SecurityAuditLog}
    (hlog : ∀ entry ∈ log, entry.auditId ≠ "" ∧ entry.timestamp ≠ "") :
    Identified host log ↔ (log.map SecurityAuditEntry.auditId).Nodup := by
  refine ⟨And.left, fun hnodup => ⟨hnodup, log.map SecurityAuditEntry.span, ?_, ?_⟩⟩
  · have hread : (log.map fun entry => Json.obj entry.modelDump).mapM (readEntry host) =
        .ok (log.map fun entry => some entry.span) := by
      rw [List.mapM_map]
      exact mapM_eq_ok_of_forall fun entry hentry =>
        readEntry_modelDump host (hlog entry hentry).1 (hlog entry hentry).2
    rw [auditSpansFromEntries, hread]
    change Except.ok ((log.map fun entry => some entry.span).filterMap id) = _
    rw [List.filterMap_map]
    exact congrArg Except.ok (congrFun List.filterMap_eq_map log)
  · intro entry hentry
    rw [TraceIndex.spansFor_ofSpans, List.filter_map]
    have hfilter := filter_auditId hnodup hentry
    change (List.map _ (log.filter fun other => other.auditId = entry.auditId)).insertionSort _ = _
    rw [hfilter]
    rfl

/-- The recorded calls of a run are identified exactly if they are spaced. -/
theorem identified_logFrom_iff (host : TraceHost) (requests : List AuditRequest) :
    Identified host (clock.logFrom 0 [] requests) ↔ clock.Spaced 0 requests := by
  rw [logFrom_eq, List.nil_append, identified_iff_nodup, nodup_ids_iff]
  intro entry hentry
  obtain ⟨⟨request, n⟩, -, rfl⟩ := List.mem_map.mp hentry
  constructor
  · rw [auditId_entryOf]
    have hstart (kind : AuditKind) : kind.start ≠ "" := by cases kind <;> decide
    exact fun h => hstart _ (String.append_eq_empty_iff.mp h).1
  · cases request <;> exact clock.stamped n

/-! ### Permissions -/

/-- The calls that `validate_permissions` makes: up to the first one that raises
or does not allow. -/
def permissionRequests (profile : SecurityProfile) (manifest : ExtensionManifest) (n : Nat) :
    List String → List AuditRequest
  | [] => []
  | permission :: rest =>
      .validate profile Installer.extensionActor "install_extension" (.str manifest.name)
          (some permission) ::
        if (profile.auditEnabled && (clock.moment n).raises) ||
            profile.decisionFor (some permission) ≠ .allowed then []
        else permissionRequests profile manifest (n + 1) rest

/-- The check of the first permission raises, or denies, or lets the others be
checked. -/
theorem audit_validatePermissions_cons (profile : SecurityProfile) (moments : Nat → AuditMoment)
    (manifest : ExtensionManifest) (permission : String) (rest : List String) (state : PlugState) :
    let log := (((AuditRequest.validate profile Installer.extensionActor "install_extension"
      (.str manifest.name) (some permission)).perform (moments 0)).exec state.audit).2
    ((Installer.validatePermissions profile moments manifest (permission :: rest)).exec
        state).2.audit =
      if (profile.auditEnabled && (moments 0).raises) ||
          profile.decisionFor (some permission) ≠ .allowed then log
      else ((Installer.validatePermissions profile (fun i => moments (i + 1)) manifest rest).exec
        { state with audit := log }).2.audit := by
  dsimp only
  rw [exec_perform, Installer.validatePermissions, Effect.exec_bind, Installer.exec_onAudit,
    exec_validateAction, AuditRequest.audited]
  cases haudit : profile.auditEnabled with
  | false =>
      by_cases hallowed : profile.decisionFor (some permission) = .allowed
      · simp [Except.mapError, hallowed]
      · simp [Except.mapError, hallowed]
  | true =>
      cases hraises : (moments 0).raises with
      | true => simp [Except.mapError]
      | false =>
          by_cases hallowed : profile.decisionFor (some permission) = .allowed
          · simp [Except.mapError, hallowed]
          · simp [Except.mapError, hallowed]

/-- The log behind the check of some permissions is that of its calls. -/
theorem audit_validatePermissions (profile : SecurityProfile) (manifest : ExtensionManifest)
    (n : Nat) (permissions : List String) (state : PlugState) :
    ((Installer.validatePermissions profile (fun i => clock.moment (n + i)) manifest
        permissions).exec state).2.audit =
      clock.logFrom n state.audit (clock.permissionRequests profile manifest n permissions) := by
  induction permissions generalizing n state with
  | nil => rfl
  | cons permission rest ih =>
      have hshift : (fun i => clock.moment (n + (i + 1))) = fun i => clock.moment (n + 1 + i) := by
        funext i
        rw [Nat.add_right_comm, Nat.add_assoc]
      rw [audit_validatePermissions_cons, permissionRequests, logFrom, hshift, Nat.add_zero]
      split
      · rfl
      · rw [ih]

/-- The decisions of a check of permissions are identified exactly if its calls
are spaced. -/
theorem identified_validatePermissions_iff (host : TraceHost) (profile : SecurityProfile)
    (manifest : ExtensionManifest) (permissions : List String) (index : Option (List Json)) :
    Identified host ((Installer.validatePermissions profile clock.moment manifest
        permissions).exec ⟨index, []⟩).2.audit ↔
      clock.Spaced 0 (clock.permissionRequests profile manifest 0 permissions) := by
  have haudit := clock.audit_validatePermissions profile manifest 0 permissions ⟨index, []⟩
  simp only [Nat.zero_add] at haudit
  rw [haudit, identified_logFrom_iff]

/-- The audited decisions of a run are identified exactly if no two in succession
of one kind fall into one millisecond and no two installs are of one name and
version; and so are those of a check of permissions. -/
theorem audit_identities_iff (host : TraceHost) (clock : AuditClock) :
    (∀ requests, Identified host (clock.logFrom 0 [] requests) ↔ clock.Spaced 0 requests) ∧
      ∀ (profile : SecurityProfile) (manifest : ExtensionManifest) (permissions : List String)
        (index : Option (List Json)),
        Identified host ((Installer.validatePermissions profile clock.moment manifest
            permissions).exec ⟨index, []⟩).2.audit ↔
          clock.Spaced 0 (clock.permissionRequests profile manifest 0 permissions) :=
  ⟨clock.identified_logFrom_iff host, clock.identified_validatePermissions_iff host⟩

/-- A clock that stands still. -/
def still : AuditClock where
  moment := fun _ => ⟨1767225600000, "2026-01-01T00:00:00", false⟩
  forward := fun _ _ _ => le_rfl
  stamped := fun _ => by decide

/-- An extension with two permissions, -/
def demoManifest : ExtensionManifest where
  schemaVersion := "0.1.0"
  name := "lint"
  version := "1.0.0"
  extensionPoint := .stageAgent
  entryPoint := "lint:run"
  description := ""
  permissions := ["shell", "network"]
  signed := false
  forgeMinVersion := none
  name_nonempty := by decide +kernel
  version_nonempty := by decide +kernel

/-- of a project that allows everything. -/
def demoProfile : SecurityProfile := { defaultPolicy := .allow }

/-- Two permissions that are checked in one millisecond have one id. -/
theorem not_audit_identities :
    ¬ ∀ (host : TraceHost) (clock : AuditClock) (profile : SecurityProfile)
        (manifest : ExtensionManifest),
      Identified host ((Installer.validatePermissions profile clock.moment manifest
        manifest.permissions).exec ⟨none, []⟩).2.audit := by
  intro h
  have hspaced := ((still.identified_validatePermissions_iff emptyPayloads demoProfile demoManifest
    demoManifest.permissions none).mp (h emptyPayloads still demoProfile demoManifest)).timed
      .decision (by decide)
  revert hspaced
  decide +kernel

end AuditClock

end ForgeOS
