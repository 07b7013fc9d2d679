import ForgeOS.Channels.Identity
import ForgeOS.Project.AuditIdentities

/-!
What a sender of a channel may do. Reading and feedback are open to everybody;
anything else takes an identity that the operator has confirmed and a rule of
the security profile that allows it, and leaves an entry in the audit log.
-/

namespace ForgeOS

open Library

/-- What `authorize_channel_action` raises. -/
inductive ChannelDenial where
  /-- `UnboundSenderError` -/
  | unboundSender (message : String)
  /-- `ChannelPermissionError` -/
  | permission (message : String)
  /-- An error of the audit log. -/
  | host (error : HostError)
deriving DecidableEq, Repr

def unboundAllowed : List String := ["status", "feedback"]

def authorizeChannelAction (profile : SecurityProfile) (moment : AuditMoment) (action : String)
    (identity : Option ChannelIdentity) : Effect SecurityAuditLog ChannelDenial Unit :=
  if action ∈ unboundAllowed then return
  else
    match identity.filter ChannelIdentity.bound with
    | none => throw (.unboundSender s!"sender must bind a Forge identity before action '{action}'")
    | some identity => do
        let decision ← (profile.validateAction moment
          [("type", .str "channel"), ("id", .str identity.sender)] s!"channel_{action}" .null
          (some action)).mapError .host
        if decision ≠ .allowed then
          throw (.permission
            s!"channel action '{action}' not allowed by the security profile")

/-- The identities and the audit log of a project. -/
structure ChannelWorld where
  identities : ChannelIdentities := []
  audit : SecurityAuditLog := []

/-- A request for an action, with what the host does to its audit entry. -/
structure ActionRequest where
  channelId : String
  sender : String
  action : String
  moment : AuditMoment

inductive ChannelCall where
  | pairing (call : ChannelIdentityStore.PairingCall)
  | request (request : ActionRequest)

theorem decisionFor_eq_allowed {profile : SecurityProfile} {capability : Option String} :
    profile.decisionFor capability = .allowed ↔ profile.policyFor capability = .allow := by
  unfold SecurityProfile.decisionFor
  cases profile.policyFor capability <;> simp

namespace ChannelPolicy

variable (profile : SecurityProfile)

/-- Authorize the action of a request, of the identity that is stored. -/
def authorize (request : ActionRequest) (world : ChannelWorld) :
    Except ChannelDenial Unit × SecurityAuditLog :=
  (authorizeChannelAction profile request.moment request.action
    (ChannelIdentityStore.get world.identities request.channelId request.sender)).exec world.audit

/-- A call, whether it returns or raises. -/
def step (world : ChannelWorld) : ChannelCall → ChannelWorld
  | .pairing call => { world with identities := ChannelIdentityStore.step world.identities call }
  | .request request => { world with audit := (authorize profile request world).2 }

/-- The pairings among some calls. -/
def pairings (calls : List ChannelCall) : List ChannelIdentityStore.PairingCall :=
  calls.filterMap fun
    | .pairing call => some call
    | .request _ => none

def entry (request : ActionRequest) : SecurityAuditEntry :=
  AuditRequest.entry request.moment (.validate profile
    [("type", .str "channel"), ("id", .str request.sender)] s!"channel_{request.action}" .null
    (some request.action))

/-- A request that is decided by the profile: for an action that is not open to
everybody, by a sender whose last code has been confirmed. -/
def Decided (calls : List ChannelCall) (request : ActionRequest) : Prop :=
  request.action ∉ unboundAllowed ∧
    ChannelIdentityStore.Confirmed (pairings calls) request.channelId request.sender

/-- Requests do not touch the identities. -/
theorem identities_run (calls : List ChannelCall) :
    (run (step profile) {} calls).identities =
      run ChannelIdentityStore.step [] (pairings calls) := by
  induction calls using List.reverseRecOn with
  | nil => rfl
  | append_singleton calls call ih =>
      rw [run_snoc, pairings, filterMap_snoc, ← pairings]
      cases call with
      | pairing call =>
          rw [Option.toList_some, run_snoc, ← ih]
          rfl
      | request request =>
          rw [Option.toList_none, List.append_nil, ← ih]
          rfl

/-- The identity that a request is judged by is bound just if its sender has been
confirmed. -/
theorem filter_get_run (calls : List ChannelCall) (channelId sender : String) :
    ((ChannelIdentityStore.get (run (step profile) {} calls).identities channelId sender).filter
        ChannelIdentity.bound).isSome = true ↔
      ChannelIdentityStore.Confirmed (pairings calls) channelId sender := by
  rw [identities_run, ← (ChannelIdentityStore.paired_run (pairings calls)).bound]
  unfold ChannelIdentityStore.isBound
  cases ChannelIdentityStore.get _ channelId sender with
  | none => simp
  | some identity => cases hbound : identity.bound <;> simp [Option.filter, hbound]

theorem exec_authorizeChannelAction_of_open {request : ActionRequest}
    (h : request.action ∈ unboundAllowed) (identity : Option ChannelIdentity)
    (log : SecurityAuditLog) :
    (authorizeChannelAction profile request.moment request.action identity).exec log =
      (.ok (), log) := by
  rw [authorizeChannelAction, if_pos h]
  rfl

theorem authorize_of_not_decided {calls : List ChannelCall} {request : ActionRequest}
    (h : ¬ Decided calls request) :
    ((authorize profile request (run (step profile) {} calls)).1.isOk = true ↔
      request.action ∈ unboundAllowed) ∧
    (authorize profile request (run (step profile) {} calls)).2 =
      (run (step profile) {} calls).audit := by
  unfold authorize
  by_cases hopen : request.action ∈ unboundAllowed
  · rw [exec_authorizeChannelAction_of_open profile hopen]
    exact ⟨iff_of_true rfl hopen, rfl⟩
  · have hunbound := mt (filter_get_run profile calls request.channelId request.sender).mp
      fun hconfirmed => h ⟨hopen, hconfirmed⟩
    rw [Option.not_isSome_iff_eq_none] at hunbound
    rw [authorizeChannelAction, if_neg hopen, hunbound]
    exact ⟨iff_of_false nofun hopen, rfl⟩

/-- A decided request goes by the profile, and only once its entry is written
where one is due. -/
theorem authorize_of_decided {calls : List ChannelCall} {request : ActionRequest}
    (h : Decided calls request) :
    ((authorize profile request (run (step profile) {} calls)).1.isOk = true ↔
      profile.policyFor (some request.action) = .allow ∧
        (profile.auditEnabled = true → request.moment.raises = false)) ∧
    (authorize profile request (run (step profile) {} calls)).2 =
      (run (step profile) {} calls).audit ++
        if profile.auditEnabled && !request.moment.raises then [entry profile request] else [] := by
  obtain ⟨hprivileged, hconfirmed⟩ := h
  obtain ⟨identity, hidentity⟩ := Option.isSome_iff_exists.mp
    ((filter_get_run profile calls request.channelId request.sender).mpr hconfirmed)
  have hkey := ChannelIdentityStore.key_of_get (Option.eq_some_of_filter_eq_some hidentity)
  have hsender : identity.sender = request.sender := (Prod.mk.inj hkey).2
  unfold authorize
  rw [authorizeChannelAction, if_neg hprivileged, hidentity]
  dsimp only
  rw [hsender, Effect.exec_bind, Effect.exec_mapError, AuditClock.exec_validateAction]
  by_cases hallowed : profile.policyFor (some request.action) = .allow
  · have hdecision := decisionFor_eq_allowed.mpr hallowed
    cases profile.auditEnabled with
    | false => simp [hallowed, hdecision, Except.mapError, Except.isOk, Except.toBool]
    | true =>
        cases request.moment.raises with
        | false =>
            simp [hallowed, hdecision, Except.mapError, Except.isOk, Except.toBool, entry]
        | true => simp [Except.mapError, Except.isOk, Except.toBool]
  · have hdecision := mt decisionFor_eq_allowed.mp hallowed
    cases profile.auditEnabled with
    | false => simp [hallowed, hdecision, Except.mapError, Except.isOk, Except.toBool]
    | true =>
        cases request.moment.raises with
        | false =>
            simp [hallowed, hdecision, Except.mapError, Except.isOk, Except.toBool, entry]
        | true => simp [Except.mapError, Except.isOk, Except.toBool]

instance (calls : List ChannelCall) (request : ActionRequest) : Decidable (Decided calls request) :=
  haveI : Decidable (ChannelIdentityStore.Confirmed (pairings calls) request.channelId
      request.sender) :=
    decidable_of_iff _ ((ChannelIdentityStore.paired_run (pairings calls)).bound _ _)
  inferInstanceAs (Decidable (_ ∧ _))

/-- The entry that a call is to leave behind others. -/
def audited (before : List ChannelCall) : ChannelCall → List SecurityAuditEntry
  | .pairing _ => []
  | .request request =>
      if Decided before request ∧ profile.auditEnabled = true ∧ request.moment.raises = false then
        [entry profile request]
      else []

/-- The entries that some calls are to leave, in their order. -/
def trail (calls : List ChannelCall) : List SecurityAuditEntry :=
  collect (fun before call => before ++ [call]) (audited profile) [] calls

theorem run_concat (calls : List ChannelCall) :
    run (fun before call => before ++ [call]) [] calls = calls := by
  induction calls using List.reverseRecOn with
  | nil => rfl
  | append_singleton calls call ih => rw [run_snoc, ih]

theorem audit_run (calls : List ChannelCall) :
    (run (step profile) {} calls).audit = trail profile calls := by
  induction calls using List.reverseRecOn with
  | nil => rfl
  | append_singleton calls call ih =>
      rw [trail, collect_snoc, run_concat, ← trail, ← ih, run_snoc]
      cases call with
      | pairing call => exact (List.append_nil _).symm
      | request request =>
          rw [step, audited]
          by_cases hdecided : Decided calls request
          · rw [(authorize_of_decided profile hdecided).2]
            simp only [hdecided, true_and, Bool.and_eq_true, Bool.not_eq_true']
          · rw [(authorize_of_not_decided profile hdecided).2, if_neg fun h => hdecided h.1,
              List.append_nil]

/-- After any calls an action is authorized just if it is open to everybody, or
its sender has been confirmed by the code issued to it last, the first rule for
the action allows it, and its audit entry is written where one is due; and the
audit log has an entry for each decision that was made, and no other. -/
theorem authorized_iff (calls : List ChannelCall) :
    (∀ request, (authorize profile request (run (step profile) {} calls)).1.isOk = true ↔
      request.action ∈ unboundAllowed ∨
        ChannelIdentityStore.Confirmed (pairings calls) request.channelId request.sender ∧
          profile.policyFor (some request.action) = .allow ∧
            (profile.auditEnabled = true → request.moment.raises = false)) ∧
    (run (step profile) {} calls).audit = trail profile calls := by
  refine ⟨fun request => ?_, audit_run profile calls⟩
  by_cases hdecided : Decided calls request
  · rw [(authorize_of_decided profile hdecided).1, or_iff_right hdecided.1,
      and_iff_right hdecided.2]
  · rw [(authorize_of_not_decided profile hdecided).1]
    refine (or_iff_left_of_imp fun h => ?_).symm
    by_contra hopen
    exact hdecided ⟨hopen, h.1⟩

end ChannelPolicy

end ForgeOS
