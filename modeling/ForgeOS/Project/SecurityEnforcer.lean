import ForgeOS.Json
import ForgeOS.Library.Effect

/-!
The security profile of a project, and the enforcer that decides actions by it.
Every decision goes to the audit log while the profile says so; a log that
cannot be written makes the decision raise.
-/

namespace ForgeOS

open Library

inductive SecurityPolicy where
  | allow
  | deny
  | prompt
deriving DecidableEq, Repr

def SecurityPolicy.value : SecurityPolicy → String
  | .allow => "allow"
  | .deny => "deny"
  | .prompt => "prompt"

inductive SecurityDecision where
  | allowed
  | denied
  | warned
  | failed
deriving DecidableEq, Repr

def SecurityDecision.value : SecurityDecision → String
  | .allowed => "allowed"
  | .denied => "denied"
  | .warned => "warned"
  | .failed => "failed"

/-- Rule for a specific tool or system capability. -/
structure CapabilityRule where
  capability : String
  policy : SecurityPolicy
deriving DecidableEq, Repr

structure SecurityProfile where
  defaultPolicy : SecurityPolicy := .deny
  capabilities : List CapabilityRule := []
  auditEnabled : Bool := true
deriving DecidableEq, Repr

/-- A single entry in the security audit log. -/
structure SecurityAuditEntry where
  auditId : String
  timestamp : String
  actor : JsonObject
  action : String
  target : Json
  capability : Option String
  decision : SecurityDecision
  reason : Option String

/-- The entries of `security-audit.jsonl`. -/
abbrev SecurityAuditLog := List SecurityAuditEntry

/-- What the host does to one entry of the log: the clock it is made by, and
whether writing it raises. -/
structure AuditMoment where
  millis : Int
  timestamp : String
  raises : Bool

/-- An error of the operating system, or of reading what is no index. -/
structure HostError where
  message : String
deriving DecidableEq, Repr

def SecurityAuditLog.log (moment : AuditMoment) (entry : SecurityAuditEntry) :
    Effect SecurityAuditLog HostError Unit :=
  if moment.raises then throw ⟨"security-audit.jsonl"⟩ else modify (· ++ [entry])

namespace SecurityProfile

variable (profile : SecurityProfile)

/-- The policy of the first rule for a capability, or the default one. -/
def policyFor (capability : Option String) : SecurityPolicy :=
  match profile.capabilities.find? fun rule => some rule.capability = capability with
  | some rule => rule.policy
  | none => profile.defaultPolicy

/-- The decision of `validate_action`. -/
def decisionFor (capability : Option String) : SecurityDecision :=
  match profile.policyFor capability with
  | .allow => .allowed
  | .prompt => .warned
  | .deny => .denied

def validateAction (moment : AuditMoment) (actor : JsonObject) (action : String) (target : Json)
    (capability : Option String) : Effect SecurityAuditLog HostError SecurityDecision := do
  let decision := profile.decisionFor capability
  if profile.auditEnabled then
    SecurityAuditLog.log moment {
      auditId := s!"AUD-{moment.millis}"
      timestamp := moment.timestamp
      actor
      action
      target
      capability
      decision
      reason := some s!"Policy {(profile.policyFor capability).value} applied" }
  return decision

/-- A decision that is made is the one of the profile. -/
theorem decision_of_validateAction {moment : AuditMoment} {actor : JsonObject} {action : String}
    {target : Json} {capability : Option String} {log log' : SecurityAuditLog}
    {decision : SecurityDecision}
    (h : (profile.validateAction moment actor action target capability).exec log =
      (.ok decision, log')) : decision = profile.decisionFor capability := by
  unfold validateAction at h
  split at h
  · obtain ⟨_, _, -, hreturn⟩ := Effect.ok_of_exec_bind h
    exact (Except.ok.inj (Prod.mk.inj hreturn).1).symm
  · exact (Except.ok.inj (Prod.mk.inj h).1).symm

end SecurityProfile

end ForgeOS
