import ForgeOS.Json
import ForgeOS.Library.Effect

/-!
Agent personas, the handles that adapters return for their runs, and the
contracts their outputs are checked against.
-/

namespace ForgeOS

open Library

/-- A normalized artifact produced by an agent run. -/
structure OutputArtifact where
  path : String
  kind : String
  description : Option String
deriving DecidableEq, Repr

/-- The persona definition supplied to kernel adapters. -/
structure AgentDefinition where
  id : String
  name : String
  role : String
  prompt : String
  defaultTools : List String
deriving DecidableEq, Repr

/-- The handle `spawn_agent` returns. -/
structure AgentHandle where
  handleId : String
  provider : String
  personaId : String
  status : String
  outputs : List OutputArtifact
  metadata : JsonObject

/-! ### Output contracts -/

inductive ContractRequirementType where
  | fileExists
deriving DecidableEq, Repr

/-- One deterministic output requirement. -/
structure ContractRequirement where
  id : String
  type : ContractRequirementType
  path : String
  description : Option String
  blocking : Bool
deriving DecidableEq, Repr

structure OutputContract where
  id : String
  stageId : String
  personaId : String
  requiredOutputs : List ContractRequirement
deriving DecidableEq, Repr

structure ContractCheck where
  requirementId : String
  passed : Bool
  blocking : Bool
  summary : String
deriving DecidableEq, Repr

structure ContractValidationResult where
  contractId : String
  stageId : String
  passed : Bool
  checks : List ContractCheck
deriving DecidableEq, Repr

def ContractRequirement.isMet (onDisk : String → Except PyError Bool)
    (requirement : ContractRequirement) : Except PyError Bool :=
  match requirement.type with
  | .fileExists => onDisk requirement.path

def ContractRequirement.check (onDisk : String → Except PyError Bool)
    (requirement : ContractRequirement) : Except PyError ContractCheck :=
  (requirement.isMet onDisk).map fun passed => {
    requirementId := requirement.id
    passed := passed
    blocking := requirement.blocking
    summary :=
      if passed then s!"Required output exists: {requirement.path}"
      else s!"Required output is missing: {requirement.path}" }

/-- `validate_contract`; `onDisk` tells whether a path exists under the project
root, or what `exists` raises of it: an `OSError` where a name is too long. -/
def validateContract (onDisk : String → Except PyError Bool) (contract : OutputContract) :
    Except PyError ContractValidationResult :=
  (contract.requiredOutputs.mapM (ContractRequirement.check onDisk)).map fun checks =>
    { contractId := contract.id
      stageId := contract.stageId
      passed := (checks.filter fun check => check.blocking && !check.passed).isEmpty
      checks := checks }

def OutputContract.MissesOutput (onDisk : String → Except PyError Bool)
    (contract : OutputContract) : Prop :=
  ∃ requirement ∈ contract.requiredOutputs,
    requirement.blocking = true ∧ onDisk requirement.path = .ok false

/-- What is raised of the first required path that cannot be looked up. -/
def OutputContract.lookError (onDisk : String → Except PyError Bool)
    (contract : OutputContract) : Option PyError :=
  contract.requiredOutputs.findSome? fun requirement => errorOf (onDisk requirement.path)

theorem ContractRequirement.check_eq (onDisk : String → Except PyError Bool)
    (requirement : ContractRequirement) : ∃ summary : Bool → String,
      requirement.check onDisk = (onDisk requirement.path).map fun passed =>
        ⟨requirement.id, passed, requirement.blocking, summary passed⟩ :=
  ⟨_, rfl⟩

private theorem checks_cases (onDisk : String → Except PyError Bool)
    (requirements : List ContractRequirement) :
    (∃ error, (requirements.findSome? fun requirement =>
        errorOf (onDisk requirement.path)) = some error ∧
      requirements.mapM (ContractRequirement.check onDisk) = .error error) ∨
    ((requirements.findSome? fun requirement => errorOf (onDisk requirement.path)) = none ∧
      ∃ checks, requirements.mapM (ContractRequirement.check onDisk) = .ok checks ∧
        ((∃ check ∈ checks, check.blocking = true ∧ check.passed = false) ↔
          ∃ requirement ∈ requirements,
            requirement.blocking = true ∧ onDisk requirement.path = .ok false)) := by
  induction requirements with
  | nil => exact Or.inr ⟨rfl, [], rfl, by simp⟩
  | cons requirement rest ih =>
      obtain ⟨summary, hcheck⟩ := requirement.check_eq onDisk
      rw [List.findSome?_cons, List.mapM_cons, hcheck]
      cases hlook : onDisk requirement.path with
      | error error => exact Or.inl ⟨error, rfl, rfl⟩
      | ok passed =>
          rcases ih with ⟨error, hfirst, hrest⟩ | ⟨hfirst, checks, hrest, hmisses⟩
          · exact Or.inl ⟨error, hfirst, by rw [hrest]; rfl⟩
          · refine Or.inr ⟨hfirst, _, by rw [hrest]; rfl, ?_⟩
            simp only [List.exists_mem_cons_iff, hlook, hmisses, Except.ok.injEq]

/-- A contract is checked when every path can be looked up, and passes exactly
when every blocking output is there. -/
theorem validateContract_cases (onDisk : String → Except PyError Bool)
    (contract : OutputContract) :
    (∃ error, contract.lookError onDisk = some error ∧
      validateContract onDisk contract = .error error) ∨
    (contract.lookError onDisk = none ∧
      ∃ validation, validateContract onDisk contract = .ok validation ∧
        (validation.passed = true ↔ ¬contract.MissesOutput onDisk)) := by
  unfold validateContract
  rcases checks_cases onDisk contract.requiredOutputs with
    ⟨error, hfirst, hchecks⟩ | ⟨hfirst, checks, hchecks, hmisses⟩
  · exact Or.inl ⟨error, hfirst, by rw [hchecks]; rfl⟩
  · refine Or.inr ⟨hfirst, _, by rw [hchecks]; rfl, ?_⟩
    rw [OutputContract.MissesOutput, ← hmisses]
    simp only [List.isEmpty_iff, List.filter_eq_nil_iff, Bool.and_eq_true, Bool.not_eq_true',
      not_exists, not_and]

end ForgeOS
