import ForgeOS.Json
import ForgeOS.Library.Effect
import ForgeOS.Library.Retention

/-!
`DaemonStateStore`, which keeps the daemon's state in one file: the runs of its
tasks and the newest alerts. Every operation loads the file, changes the state
and saves it again.
-/

namespace ForgeOS

open Library

inductive AlertSeverity where
  | info
  | warning
  | critical
deriving DecidableEq, Repr

/-- What `json.dumps` makes of a value of any type. -/
inductive Dumped where
  | json (value : JsonObject)
  /-- `Object of type … is not JSON serializable` -/
  | refused

structure DaemonAlert where
  alertId : String
  createdAt : String
  source : String
  severity : AlertSeverity
  message : String
  metadata : Dumped := .json []

/-- What consecutive duplicates agree in. -/
def DaemonAlert.key (alert : DaemonAlert) : String × AlertSeverity × String :=
  (alert.source, alert.severity, alert.message)

structure DaemonTaskState where
  lastRunAt : Option String := none
  lastStatus : Option String := none
  runs : Int := 0
  failures : Int := 0
  lastError : Option String := none

structure DaemonState where
  schemaVersion : String := "0.1"
  daemonId : String
  pid : Int
  projectRoot : String
  startedAt : String
  lastHeartbeat : Option String := none
  tasks : Dict String DaemonTaskState := []
  alerts : List DaemonAlert := []

/-- What an operation on the state raises. -/
inductive DaemonFault where
  /-- `Corrupt daemon state file: …` -/
  | corrupt
  /-- `No daemon state at …; cannot … . Is the daemon running?` -/
  | noState (action : String)
  /-- The `TypeError` of `json.dumps`. -/
  | notSerializable
deriving DecidableEq, Repr

/-- `state.json`, if it exists, with what was last dumped to it. -/
abbrev StateFile := Option DaemonState

/-- `Literal["ok", "error"] | None`, the type of `last_status`. -/
def DaemonTaskState.validates (task : DaemonTaskState) : Bool :=
  task.lastStatus ∈ [none, some "ok", some "error"]

def Dumped.isJson : Dumped → Bool
  | .json _ => true
  | .refused => false

namespace DaemonStateStore

def maxAlerts : Nat := 100

abbrev StateEffect := Effect StateFile DaemonFault

/-- The persisted daemon state, or nothing when no state file exists. -/
def load (file : StateFile) : Except DaemonFault (Option DaemonState) :=
  match file with
  | none => .ok none
  | some state =>
      if state.tasks.all fun entry => entry.2.validates then .ok (some state)
      else .error .corrupt

/-- Persist a state. Dumping it comes before the file is touched. -/
def save (state : DaemonState) : StateEffect Unit :=
  if state.alerts.all fun alert => alert.metadata.isJson then modify fun _ => some state
  else throw .notSerializable

def loadRequired (action : String) : StateEffect DaemonState := do
  match ← Effect.ofExcept (load (← get)) with
  | none => throw (.noState action)
  | some state => return state

/-- Append an alert, keeping only the most recent ones; one that repeats the
last alert is suppressed. -/
def addAlert (alert : DaemonAlert) : StateEffect DaemonState := do
  let state ← loadRequired "add an alert"
  if state.alerts.getLast?.map DaemonAlert.key = some alert.key then return state
  else
    let state := { state with alerts := (state.alerts ++ [alert]).rtake maxAlerts }
    save state
    return state

/-- The task's counters after a run of it. -/
def ran (now status : String) (error : Option String) (task : DaemonTaskState) :
    DaemonTaskState where
  lastRunAt := some now
  lastStatus := some status
  runs := task.runs + 1
  failures := if status = "error" then task.failures + 1 else task.failures
  lastError := if status = "error" then error else task.lastError

/-- Update the run counters of a task after a scheduler run. -/
def recordTaskRun (now name status : String) (error : Option String) : StateEffect Unit := do
  let state ← loadRequired s!"record a run of task `{name}`"
  let task := (state.tasks.get? name).getD {}
  save { state with tasks := state.tasks.set name (ran now status error task) }

inductive StateCall where
  | addAlert (alert : DaemonAlert)
  | recordTaskRun (now name status : String) (error : Option String)

/-- The file a call leaves behind, whether it returns or raises. -/
def perform (file : StateFile) : StateCall → StateFile
  | .addAlert alert => ((addAlert alert).exec file).2
  | .recordTaskRun now name status error => ((recordTaskRun now name status error).exec file).2

/-- The alert a call submits. -/
def StateCall.submitted : StateCall → List DaemonAlert
  | .addAlert alert => [alert]
  | .recordTaskRun .. => []

def alerts (file : StateFile) : List DaemonAlert := (file.map DaemonState.alerts).getD []

/-- The file but for its alerts. -/
def withoutAlerts (file : StateFile) : StateFile :=
  file.map fun state => { state with alerts := [] }

def Readable (file : StateFile) : Prop := ∃ state, load file = .ok (some state)

/-- What is in the file has been dumped. -/
def Clean (file : StateFile) : Prop := ∀ alert ∈ alerts file, alert.metadata.isJson = true

theorem eq_of_load {file : StateFile} {state : DaemonState} (h : load file = .ok (some state)) :
    file = some state := by
  cases file with
  | none => cases h
  | some stored =>
      unfold load at h
      dsimp only at h
      split at h
      · exact Except.ok.inj h
      · cases h

theorem exec_loadRequired_of_ok {file : StateFile} {state : DaemonState}
    (h : load file = .ok (some state)) (action : String) :
    (loadRequired action).exec file = (.ok state, file) := by
  unfold loadRequired
  rw [Effect.exec_bind, Effect.exec_get]
  dsimp only
  rw [h, Effect.exec_bind, Effect.exec_ofExcept]
  rfl

theorem exec_loadRequired_of_not_readable {file : StateFile} (h : ¬ Readable file)
    (action : String) : ∃ fault, (loadRequired action).exec file = (.error fault, file) := by
  unfold loadRequired
  rw [Effect.exec_bind, Effect.exec_get]
  dsimp only
  rw [Effect.exec_bind, Effect.exec_ofExcept]
  cases hload : load file with
  | error fault => exact ⟨fault, rfl⟩
  | ok found =>
      cases found with
      | none => exact ⟨.noState action, rfl⟩
      | some state => exact absurd ⟨state, hload⟩ h

/-! ### Adding an alert -/

theorem perform_of_not_readable {file : StateFile} (h : ¬ Readable file) (call : StateCall) :
    perform file call = file := by
  cases call with
  | addAlert alert =>
      obtain ⟨fault, hload⟩ := exec_loadRequired_of_not_readable h "add an alert"
      change ((addAlert alert).exec file).2 = file
      unfold addAlert
      rw [Effect.exec_bind_error _ hload]
  | recordTaskRun now name status error =>
      obtain ⟨fault, hload⟩ :=
        exec_loadRequired_of_not_readable h s!"record a run of task `{name}`"
      change ((recordTaskRun now name status error).exec file).2 = file
      unfold recordTaskRun
      rw [Effect.exec_bind_error _ hload]

/-- The state that is saved with an alert. -/
def appended (state : DaemonState) (alert : DaemonAlert) : DaemonState :=
  { state with alerts := (state.alerts ++ [alert]).rtake maxAlerts }

theorem exec_save (state : DaemonState) (file : StateFile) :
    ((save state).exec file).2 =
      if state.alerts.all fun alert => alert.metadata.isJson then some state else file := by
  unfold save
  split <;> rfl

theorem perform_addAlert_of_load {file : StateFile} {state : DaemonState}
    (h : load file = .ok (some state)) (alert : DaemonAlert) :
    perform file (.addAlert alert) =
      if state.alerts.getLast?.map DaemonAlert.key = some alert.key then file
      else if (appended state alert).alerts.all fun alert => alert.metadata.isJson then
        some (appended state alert)
      else file := by
  change ((addAlert alert).exec file).2 = _
  unfold addAlert
  rw [Effect.exec_bind_ok _ (exec_loadRequired_of_ok h _)]
  split
  · rfl
  · rw [Effect.exec_bind_pure_snd]
    exact exec_save _ file

/-- An alert leaves every other field as it was. -/
theorem withoutAlerts_addAlert (file : StateFile) (alert : DaemonAlert) :
    withoutAlerts (perform file (.addAlert alert)) = withoutAlerts file := by
  by_cases hreadable : Readable file
  · obtain ⟨state, hload⟩ := hreadable
    rw [perform_addAlert_of_load hload, eq_of_load hload]
    split
    · rfl
    · split
      · rfl
      · rfl
  · rw [perform_of_not_readable hreadable]

theorem mem_of_mem_rtake {α : Type} {n : Nat} {xs : List α} {x : α} (h : x ∈ xs.rtake n) :
    x ∈ xs := List.mem_of_mem_drop h

theorem all_appended {state : DaemonState} (hclean : Clean (some state)) (alert : DaemonAlert) :
    (appended state alert).alerts.all (fun alert => alert.metadata.isJson) =
      alert.metadata.isJson := by
  rw [Bool.eq_iff_iff, List.all_eq_true]
  constructor
  · intro hall
    apply hall
    change alert ∈ (state.alerts ++ [alert]).rtake (99 + 1)
    rw [List.rtake_concat_succ]
    simp
  · intro halert other hother
    rcases List.mem_append.mp (mem_of_mem_rtake hother) with hold | hnew
    · exact hclean other hold
    · rw [List.mem_singleton.mp hnew]
      exact halert

/-- An alert is entered in the log when the file can be read and the alert
dumped. -/
theorem alerts_addAlert {file : StateFile} {alert : DaemonAlert} (hclean : Clean file)
    (h : Readable file ∧ alert.metadata.isJson = true) :
    alerts (perform file (.addAlert alert)) =
      retain DaemonAlert.key maxAlerts (alerts file) alert := by
  obtain ⟨⟨state, hload⟩, halert⟩ := h
  rw [perform_addAlert_of_load hload]
  obtain rfl := eq_of_load hload
  rw [all_appended hclean alert, halert]
  unfold retain
  change _ = if state.alerts.getLast?.map DaemonAlert.key = some alert.key then state.alerts
    else (appended state alert).alerts
  split
  · rfl
  · rfl

/-- Otherwise the log stays as it is. -/
theorem alerts_addAlert_of_not {file : StateFile} {alert : DaemonAlert} (hclean : Clean file)
    (h : ¬ (Readable file ∧ alert.metadata.isJson = true)) :
    alerts (perform file (.addAlert alert)) = alerts file := by
  by_cases hreadable : Readable file
  · obtain ⟨state, hload⟩ := hreadable
    have halert : alert.metadata.isJson = false := by
      rw [← Bool.not_eq_true]
      exact fun halert => h ⟨⟨state, hload⟩, halert⟩
    rw [perform_addAlert_of_load hload]
    obtain rfl := eq_of_load hload
    rw [all_appended hclean alert, halert]
    split
    · rfl
    · rfl
  · rw [perform_of_not_readable hreadable]

theorem alerts_recordTaskRun (file : StateFile) (now name status : String)
    (error : Option String) :
    alerts (perform file (.recordTaskRun now name status error)) = alerts file := by
  by_cases hreadable : Readable file
  · obtain ⟨state, hload⟩ := hreadable
    change alerts ((recordTaskRun now name status error).exec file).2 = alerts file
    unfold recordTaskRun
    rw [Effect.exec_bind_ok _ (exec_loadRequired_of_ok hload _), exec_save, eq_of_load hload]
    split
    · rfl
    · rfl
  · rw [perform_of_not_readable hreadable]

theorem clean_perform {file : StateFile} (hclean : Clean file) (call : StateCall) :
    Clean (perform file call) := by
  cases call with
  | recordTaskRun now name status error =>
      unfold Clean
      rwa [alerts_recordTaskRun]
  | addAlert alert =>
      by_cases hentered : Readable file ∧ alert.metadata.isJson = true
      · unfold Clean
        rw [alerts_addAlert hclean hentered]
        unfold retain
        split
        · exact hclean
        · intro other hother
          rcases List.mem_append.mp (mem_of_mem_rtake hother) with hold | hnew
          · exact hclean other hold
          · rw [List.mem_singleton.mp hnew]
            exact hentered.2
      · unfold Clean
        rwa [alerts_addAlert_of_not hclean hentered]

/-! ### The log of a run -/

/-- A call on the file, which adds to the alerts submitted so far. -/
def submit (log : StateFile × List DaemonAlert) (call : StateCall) :
    StateFile × List DaemonAlert :=
  (perform log.1 call, log.2 ++ call.submitted)

/-- The file holds the newest of the alerts submitted, of each run of
consecutive duplicates the first. -/
def HoldsNewest (log : StateFile × List DaemonAlert) : Prop :=
  alerts log.1 = (collapse DaemonAlert.key log.2).rtake maxAlerts

/-- The condition on a call: an alert that does not repeat the last one in the
file can be dumped, and the file can be read. -/
def StateCall.Enters (log : StateFile × List DaemonAlert) : StateCall → Prop
  | .addAlert alert => Readable log.1 ∧ alert.metadata.isJson = true ∨
      (alerts log.1).getLast?.map DaemonAlert.key = some alert.key
  | .recordTaskRun .. => True

theorem holdsNewest_addAlert_iff {log : StateFile × List DaemonAlert} (hclean : Clean log.1)
    (h : HoldsNewest log) (alert : DaemonAlert) :
    HoldsNewest (submit log (.addAlert alert)) ↔ StateCall.Enters log (.addAlert alert) := by
  have hcap : 0 < maxAlerts := by decide
  have hlast : (alerts log.1).getLast?.map DaemonAlert.key =
      log.2.getLast?.map DaemonAlert.key := by
    rw [h, getLast?_rtake hcap, getLast?_collapse]
  change alerts (perform log.1 (.addAlert alert)) =
    (collapse DaemonAlert.key (log.2 ++ [alert])).rtake maxAlerts ↔
      Readable log.1 ∧ alert.metadata.isJson = true ∨
        (alerts log.1).getLast?.map DaemonAlert.key = some alert.key
  by_cases henters : Readable log.1 ∧ alert.metadata.isJson = true
  · refine iff_of_true ?_ (Or.inl henters)
    rw [alerts_addAlert hclean henters, h]
    exact retain_collapse DaemonAlert.key hcap log.2 alert
  · rw [alerts_addAlert_of_not hclean henters, or_iff_right henters]
    constructor
    · intro hsame
      rw [hsame, getLast?_rtake hcap, getLast?_collapse, List.getLast?_concat]
      rfl
    · intro hrepeats
      rw [h, collapse_snoc, if_pos (hlast.symm.trans hrepeats)]

/-- From a state without alerts, the file holds the newest of the collapsed
alerts after every call, exactly if each alert that is no repetition finds a
file that can be read and can itself be dumped. No alert changes any other
field. -/
theorem holdsNewest_iff (state : DaemonState) (calls : List StateCall) :
    ((∀ before after, calls = before ++ after →
        HoldsNewest (run submit (some { state with alerts := [] }, []) before)) ∧
      ∀ file alert, withoutAlerts (perform file (.addAlert alert)) = withoutAlerts file) ↔
    ∀ before call after, calls = before ++ call :: after →
      StateCall.Enters (run submit (some { state with alerts := [] }, []) before) call := by
  rw [and_iff_left withoutAlerts_addAlert]
  apply run_throughout_iff submit (K := fun log => Clean log.1) calls
  · exact fun log call _ hclean => clean_perform hclean call
  · intro log call _ hclean h
    cases call with
    | addAlert alert => exact holdsNewest_addAlert_iff hclean h alert
    | recordTaskRun now name status error =>
        refine iff_of_true ?_ trivial
        unfold HoldsNewest
        change alerts (perform log.1 (.recordTaskRun now name status error)) =
          (collapse DaemonAlert.key (log.2 ++ [])).rtake maxAlerts
        rw [alerts_recordTaskRun, List.append_nil]
        exact h
  · intro alert halert
    cases halert
  · rfl

def started : DaemonState where
  daemonId := "daemon"
  pid := 1
  projectRoot := "/project"
  startedAt := "2026-01-01T00:00:00Z"

def registryAlert : DaemonAlert where
  alertId := "alert"
  createdAt := "2026-01-01T00:00:10Z"
  source := "acp-registry"
  severity := .warning
  message := "ACP registry is not accessible."

/-- A run recorded with a status that is neither `ok` nor `error` leaves a file
that no longer loads; the alert after it is lost. -/
theorem not_holdsNewest :
    ¬ ∀ (state : DaemonState) (calls : List StateCall),
      HoldsNewest (run submit (some { state with alerts := [] }, []) calls) := by
  intro h
  have hlost := h started
    [.recordTaskRun "2026-01-01T00:00:05Z" "dream" "skipped" none, .addAlert registryAlert]
  have hlength := congrArg List.length hlost
  revert hlength
  decide

end DaemonStateStore

end ForgeOS
