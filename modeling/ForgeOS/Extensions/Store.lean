import ForgeOS.Extensions.Manifest
import ForgeOS.Project.SecurityEnforcer

/-!
The index of installed extensions, `.forge/extensions/installed.json`. It is
read as a whole and replaced as a whole: a write that fails before the
replacement leaves the index as it was.
-/

namespace ForgeOS

open Library

/-- What installing reads and writes: the entries of the index, unless there is
none, and the security audit log. -/
structure PlugState where
  index : Option (List Json) := none
  audit : SecurityAuditLog := []

inductive ExtensionError where
  /-- `ManifestError` -/
  | manifest (message : String)
  /-- `ExtensionConflictError` -/
  | conflict (message : String)
  /-- `ExtensionPermissionError` -/
  | permission (message : String)
  /-- `ExtensionSignatureError` -/
  | signature (message : String)
  /-- A `ValidationError` of an entry of the index. -/
  | invalidIndex
  | host (error : HostError)
deriving DecidableEq, Repr

/-- How writing the index goes. Something may be raised also after the file has
been replaced, as when the process is interrupted. -/
inductive IndexWrite where
  | written
  | lost (error : HostError)
  | interrupted (error : HostError)
deriving DecidableEq, Repr

/-- What the host does to one operation on the store: the time it reads the
index at, whether that raises, and how writing the index goes. -/
structure StoreMoment where
  now : String
  unreadable : Option HostError := none
  write : IndexWrite := .written

namespace ExtensionStore

abbrev StoreEffect := Effect PlugState ExtensionError

def listInstalled (moment : StoreMoment) : StoreEffect (List InstalledExtension) := do
  match moment.unreadable with
  | some error => throw (.host error)
  | none =>
      match (← get).index with
      | none => return []
      | some raw =>
          match raw.mapM (InstalledExtension.modelValidate moment.now) with
          | some installed => return installed
          | none => throw .invalidIndex

def write (outcome : IndexWrite) (extensions : List InstalledExtension) : StoreEffect Unit := do
  let replace : StoreEffect Unit :=
    modify fun state => { state with index := some (extensions.map InstalledExtension.modelDump) }
  match outcome with
  | .written => replace
  | .lost error => throw (.host error)
  | .interrupted error =>
      replace
      throw (.host error)

/-- `record(extension)`: insert or replace by name. -/
def record (moment : StoreMoment) (extension : InstalledExtension) : StoreEffect Unit := do
  let installed ← listInstalled moment
  let kept := installed.filter fun ext => ext.manifest.name ≠ extension.manifest.name
  write moment.write (kept ++ [extension])

/-- `remove(name)`: whether one was removed. -/
def remove (moment : StoreMoment) (name : String) : StoreEffect Bool := do
  let installed ← listInstalled moment
  let remaining := installed.filter fun ext => ext.manifest.name ≠ name
  if remaining.length = installed.length then return false
  else
    write moment.write remaining
    return true

end ExtensionStore

/-! ### What an index holds -/

/-- The index holds exactly these extensions. -/
def PlugState.Holds (state : PlugState) (extensions : List InstalledExtension) : Prop :=
  (state.index = none ∧ extensions = []) ∨
    state.index = some (extensions.map InstalledExtension.modelDump)

theorem mapM_modelValidate_modelDump (now : String) (extensions : List InstalledExtension) :
    (extensions.map InstalledExtension.modelDump).mapM (InstalledExtension.modelValidate now) =
      some extensions := by
  induction extensions with
  | nil => rfl
  | cons extension rest ih =>
      rw [List.map_cons, List.mapM_cons, InstalledExtension.modelValidate_modelDump, ih]
      rfl

namespace ExtensionStore

/-- Reading an index changes nothing, and gives what it holds. -/
theorem exec_listInstalled (moment : StoreMoment) {state : PlugState}
    {extensions : List InstalledExtension} (h : state.Holds extensions) :
    (listInstalled moment).exec state =
      (match moment.unreadable with
        | some error => .error (.host error)
        | none => .ok extensions, state) := by
  unfold listInstalled
  cases moment.unreadable with
  | some error => rfl
  | none =>
      rw [Effect.exec_bind_ok _ (Effect.exec_get state)]
      rcases h with ⟨hnone, rfl⟩ | hsome
      · simp only [hnone, Effect.exec_pure]
      · simp only [hsome, mapM_modelValidate_modelDump, Effect.exec_pure]

/-- Writing either leaves the state as it was or puts the extensions in the
index. -/
theorem exec_write (outcome : IndexWrite) (extensions : List InstalledExtension)
    (state : PlugState) :
    ((write outcome extensions).exec state).2 = state ∨
      (((write outcome extensions).exec state).2.Holds extensions ∧
        ((write outcome extensions).exec state).2.audit = state.audit) := by
  cases outcome with
  | written => exact .inr ⟨.inr rfl, rfl⟩
  | lost error => exact .inl rfl
  | interrupted error => exact .inr ⟨.inr rfl, rfl⟩

/-- An operation that reads the index and goes on. -/
theorem exec_listInstalled_bind {α : Type} (moment : StoreMoment) {state : PlugState}
    {extensions : List InstalledExtension} (h : state.Holds extensions)
    (next : List InstalledExtension → StoreEffect α) :
    ((listInstalled moment >>= next).exec state).2 = state ∨
      (listInstalled moment >>= next).exec state = (next extensions).exec state := by
  rw [Effect.exec_bind, exec_listInstalled moment h]
  cases moment.unreadable with
  | some error => exact .inl rfl
  | none => exact .inr rfl

theorem exec_record (moment : StoreMoment) (extension : InstalledExtension) {state : PlugState}
    {extensions : List InstalledExtension} (h : state.Holds extensions) :
    ((record moment extension).exec state).2 = state ∨
      ((record moment extension).exec state).2.Holds
        (extensions.filter (fun ext => ext.manifest.name ≠ extension.manifest.name) ++
          [extension]) := by
  rcases exec_listInstalled_bind moment h fun installed => write moment.write
    (installed.filter (fun ext => ext.manifest.name ≠ extension.manifest.name) ++ [extension])
    with hsame | hnext
  · exact .inl hsame
  · rw [record, hnext]
    exact (exec_write moment.write _ state).imp id And.left

theorem exec_remove (moment : StoreMoment) (name : String) {state : PlugState}
    {extensions : List InstalledExtension} (h : state.Holds extensions) :
    ((remove moment name).exec state).2 = state ∨
      ((remove moment name).exec state).2.Holds
        (extensions.filter fun ext => ext.manifest.name ≠ name) := by
  rcases exec_listInstalled_bind moment h fun installed =>
      let remaining := installed.filter fun ext => ext.manifest.name ≠ name
      if remaining.length = installed.length then (return false : StoreEffect Bool)
      else do
        write moment.write remaining
        return true
    with hsame | hnext
  · exact .inl hsame
  · rw [remove, hnext]
    dsimp only
    split
    · exact .inl rfl
    · rw [Effect.exec_bind_pure_snd]
      exact (exec_write moment.write _ state).imp id And.left

end ExtensionStore

end ForgeOS
