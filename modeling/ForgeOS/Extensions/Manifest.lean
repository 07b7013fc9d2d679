import ForgeOS.Fields

/-!
The manifest an extension ships, and the record the index keeps of an installed
one. Both are pydantic models: they are made from a mapping that is checked,
and dumped to one that passes the check again.
-/

namespace ForgeOS

open Library

/-! ### Manifests -/

/-- The four published extension points. -/
inductive ExtensionPoint where
  | kernelAdapter
  | stageAgent
  | gateCriteria
  | profilePack
deriving DecidableEq, Repr

def ExtensionPoint.value : ExtensionPoint → String
  | .kernelAdapter => "kernel_adapter"
  | .stageAgent => "stage_agent"
  | .gateCriteria => "gate_criteria"
  | .profilePack => "profile_pack"

def ExtensionPoint.ofValue? (value : String) : Option ExtensionPoint :=
  [kernelAdapter, stageAgent, gateCriteria, profilePack].find? (·.value = value)

/-- Declarative manifest an extension ships in its `extension.yaml`. -/
structure ExtensionManifest where
  schemaVersion : String
  name : String
  version : String
  extensionPoint : ExtensionPoint
  entryPoint : String
  description : String
  permissions : List String
  signed : Bool
  forgeMinVersion : Option String
  name_nonempty : pyStrip name ≠ ""
  version_nonempty : pyStrip version ≠ ""

/-- `ExtensionManifest(**raw)`; none is a `ValidationError`. -/
def ExtensionManifest.validate (raw : JsonObject) : Option ExtensionManifest := do
  let schemaVersion ← strFieldOr raw "schema_version" "0.1.0"
  let name ← strField raw "name"
  let version ← strField raw "version"
  let extensionPoint ← (strField raw "extension_point").bind ExtensionPoint.ofValue?
  let entryPoint ← strField raw "entry_point"
  let description ← strFieldOr raw "description" ""
  let permissions ← strListField raw "permissions"
  let signed ← boolField raw "signed"
  let forgeMinVersion ← optionalStrField raw "forge_min_version"
  if hname : pyStrip name ≠ "" then
    if hversion : pyStrip version ≠ "" then
      some ⟨schemaVersion, name, version, extensionPoint, entryPoint, description, permissions,
        signed, forgeMinVersion, hname, hversion⟩
    else none
  else none

def ExtensionManifest.modelDump (manifest : ExtensionManifest) : JsonObject := [
  ("schema_version", .str manifest.schemaVersion),
  ("name", .str manifest.name),
  ("version", .str manifest.version),
  ("extension_point", .str manifest.extensionPoint.value),
  ("entry_point", .str manifest.entryPoint),
  ("description", .str manifest.description),
  ("permissions", .arr (manifest.permissions.map .str)),
  ("signed", .bool manifest.signed),
  ("forge_min_version", .optional manifest.forgeMinVersion)]

/-- A manifest plus install bookkeeping, persisted in the local index. -/
structure InstalledExtension where
  schemaVersion : String := "0.1.0"
  manifest : ExtensionManifest
  sourcePath : String
  installedAt : String
  signatureVerified : Bool := false

/-- `InstalledExtension.model_validate(item)`. An entry without its time of
installation gets the present one. -/
def InstalledExtension.modelValidate (now : String) (item : Json) : Option InstalledExtension := do
  let .obj raw := item | none
  let schemaVersion ← strFieldOr raw "schema_version" "0.1.0"
  let some (.obj rawManifest) := Dict.get? raw "manifest" | none
  let manifest ← ExtensionManifest.validate rawManifest
  let sourcePath ← strField raw "source_path"
  let installedAt ← strFieldOr raw "installed_at" now
  let signatureVerified ← boolField raw "signature_verified"
  return { schemaVersion, manifest, sourcePath, installedAt, signatureVerified }

def InstalledExtension.modelDump (extension : InstalledExtension) : Json := .obj [
  ("schema_version", .str extension.schemaVersion),
  ("manifest", .obj extension.manifest.modelDump),
  ("source_path", .str extension.sourcePath),
  ("installed_at", .str extension.installedAt),
  ("signature_verified", .bool extension.signatureVerified)]

/-! ### Dumping and reading back -/

theorem ExtensionPoint.ofValue?_value (point : ExtensionPoint) :
    ofValue? point.value = some point := by
  cases point <;> decide

/-- A manifest passes its own check. -/
theorem ExtensionManifest.validate_modelDump (manifest : ExtensionManifest) :
    validate manifest.modelDump = some manifest := by
  have hpermissions : strListField manifest.modelDump "permissions" = some manifest.permissions :=
    mapM_str?_map manifest.permissions
  have hminimum : optionalStrField manifest.modelDump "forge_min_version" =
      some manifest.forgeMinVersion := optionalStrField_optional rfl
  have hpoint : (strField manifest.modelDump "extension_point").bind ExtensionPoint.ofValue? =
      some manifest.extensionPoint := ExtensionPoint.ofValue?_value _
  have hname : strField manifest.modelDump "name" = some manifest.name := rfl
  have hversion : strField manifest.modelDump "version" = some manifest.version := rfl
  have hschema : strFieldOr manifest.modelDump "schema_version" "0.1.0" =
      some manifest.schemaVersion := rfl
  have hentry : strField manifest.modelDump "entry_point" = some manifest.entryPoint := rfl
  have hdescription : strFieldOr manifest.modelDump "description" "" =
      some manifest.description := rfl
  have hsigned : boolField manifest.modelDump "signed" = some manifest.signed := rfl
  simp only [validate, hpermissions, hminimum, hpoint, hname, hversion, hschema, hentry,
    hdescription, hsigned, Option.bind_eq_bind, Option.bind_some, dif_pos manifest.name_nonempty,
    dif_pos manifest.version_nonempty]

theorem InstalledExtension.modelValidate_modelDump (now : String)
    (extension : InstalledExtension) :
    modelValidate now extension.modelDump = some extension := by
  change (do
    let manifest ← ExtensionManifest.validate extension.manifest.modelDump
    some { extension with manifest }) = some extension
  rw [ExtensionManifest.validate_modelDump]
  rfl

end ForgeOS
