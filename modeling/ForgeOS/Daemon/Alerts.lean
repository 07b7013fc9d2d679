import ForgeOS.Daemon.State

/-!
What the daemon's tasks act on: its state file and the rest of the host. A task
enters alerts and heartbeats in the file; the runs that are counted there it
leaves alone, and so does an alert that cannot be entered.
-/

namespace ForgeOS

open Library

/-- The daemon's state file, and everything else. -/
structure DaemonWorld (ω : Type) where
  state : StateFile
  project : ω

/-- What a task raises. -/
inductive TaskFault (ε : Type) where
  | state (fault : DaemonFault)
  /-- `No daemon state at …; heartbeat cannot update it.` -/
  | heartbeat
  | foreign (error : ε)

/-- What is taken from Python's library. -/
structure DaemonHost (ω ε : Type) where
  /-- `utc_now()` -/
  utcNow : ω → String × ω
  /-- `str(uuid4())` -/
  uuid4 : ω → String × ω
  /-- `str(exc)` -/
  message : TaskFault ε → String

abbrev DaemonEffect (ω ε α : Type) := Effect (DaemonWorld ω) (TaskFault ε) α

/-- Whether it is a `DaemonStateError`. -/
def DaemonFault.isStateError : DaemonFault → Bool
  | .corrupt => true
  | .noState _ => true
  | .notSerializable => false

section Effects

variable {ω ε α : Type}

/-- An operation of the state store. -/
def onState (m : DaemonStateStore.StateEffect α) : DaemonEffect ω ε α :=
  (m.mapError TaskFault.state).within DaemonWorld.state fun state world => { world with state }

/-- A computation on the rest of the host. -/
def onProject (m : Effect ω ε α) : DaemonEffect ω ε α :=
  (m.mapError TaskFault.foreign).within DaemonWorld.project
    fun project world => { world with project }

/-- Take a reading of the host, which may move on with it. -/
def reading (read : ω → String × ω) : DaemonEffect ω ε String :=
  ExceptT.mk fun world => (.ok (read world.project).1,
    { world with project := (read world.project).2 })

@[simp]
theorem exec_reading (read : ω → String × ω) (world : DaemonWorld ω) :
    (reading read : DaemonEffect ω ε String).exec world =
      (.ok (read world.project).1, { world with project := (read world.project).2 }) := rfl

/-- `except DaemonStateError` -/
def dropStateErrors (m : DaemonEffect ω ε α) (instead : α) : DaemonEffect ω ε α :=
  m.recover fun
    | .state fault => if fault.isStateError then some instead else none
    | _ => none

/-- `store.add_alert(alert)`, best-effort: whether the alert has been taken. -/
def submitAlert (alert : DaemonAlert) : DaemonEffect ω ε Bool :=
  dropStateErrors (do
    let _ ← onState (DaemonStateStore.addAlert alert)
    return true) false

end Effects

namespace DaemonStateStore

/-- The file but for its alerts and the last heartbeat: who the daemon is, and
the runs of its tasks. -/
def ledger (file : StateFile) : StateFile :=
  file.map fun state => { state with alerts := [], lastHeartbeat := none }

theorem ledger_withoutAlerts (file : StateFile) : ledger (withoutAlerts file) = ledger file := by
  cases file with
  | none => rfl
  | some state => rfl

/-- Whether a file can be read is told by its runs. -/
theorem readable_iff_of_ledger {file file' : StateFile} (h : ledger file' = ledger file) :
    Readable file' ↔ Readable file := by
  have hread (file : StateFile) : Readable file ↔ Readable (ledger file) := by
    cases file with
    | none => exact Iff.rfl
    | some state =>
        unfold Readable ledger load
        dsimp only [Option.map_some]
        split
        · exact ⟨fun _ => ⟨_, rfl⟩, fun _ => ⟨_, rfl⟩⟩
        · exact ⟨nofun, nofun⟩
  rw [hread file', hread file, h]

end DaemonStateStore

open DaemonStateStore

/-- What an alert or a heartbeat does to the daemon's file. -/
structure KeepsLedger {ω : Type} (before after : DaemonWorld ω) : Prop where
  ledger : ledger after.state = ledger before.state
  clean : Clean before.state → Clean after.state

section Keeping

variable {ω ε α : Type}

theorem KeepsLedger.refl (world : DaemonWorld ω) : KeepsLedger world world := ⟨rfl, id⟩

theorem KeepsLedger.trans (first second third : DaemonWorld ω) (h : KeepsLedger first second)
    (h' : KeepsLedger second third) : KeepsLedger first third :=
  ⟨h'.ledger.trans h.ledger, fun hclean => h'.clean (h.clean hclean)⟩

/-- A computation that raises what it likes, and keeps the ledger. -/
abbrev LedgerKept (m : DaemonEffect ω ε α) : Prop := m.Keeps (fun _ => True) KeepsLedger

theorem LedgerKept.pure (a : α) : LedgerKept (Pure.pure a : DaemonEffect ω ε α) :=
  Effect.keeps_pure KeepsLedger.refl a

theorem LedgerKept.bind {β : Type} {m : DaemonEffect ω ε α} {f : α → DaemonEffect ω ε β}
    (hm : LedgerKept m) (hf : ∀ a, LedgerKept (f a)) : LedgerKept (m >>= f) :=
  Effect.keeps_bind KeepsLedger.trans hm hf

theorem LedgerKept.recover {m : DaemonEffect ω ε α} (hm : LedgerKept m)
    (instead : TaskFault ε → Option α) : LedgerKept (m.recover instead) :=
  Effect.keeps_recover hm instead

/-- What happens elsewhere does not touch the file. -/
theorem ledgerKept_onProject (m : Effect ω ε α) : LedgerKept (onProject m) :=
  Effect.keeps_of_related fun _ => ⟨rfl, id⟩

theorem ledgerKept_reading (read : ω → String × ω) :
    LedgerKept (reading read : DaemonEffect ω ε String) :=
  Effect.keeps_of_related fun _ => ⟨rfl, id⟩

theorem ledgerKept_addAlert (alert : DaemonAlert) :
    LedgerKept (onState (addAlert alert) : DaemonEffect ω ε DaemonState) :=
  Effect.keeps_of_related fun world => {
    ledger := by
      have hothers := congrArg DaemonStateStore.ledger (withoutAlerts_addAlert world.state alert)
      rwa [ledger_withoutAlerts, ledger_withoutAlerts] at hothers
    clean := fun hclean => clean_perform hclean (.addAlert alert) }

theorem ledgerKept_submitAlert (alert : DaemonAlert) :
    LedgerKept (submitAlert alert : DaemonEffect ω ε Bool) :=
  ((ledgerKept_addAlert alert).bind fun _ => .pure true).recover _

end Keeping

/-! ### Entering an alert -/

/-- A file in which an alert can be entered. -/
structure Ready {ω : Type} (world : DaemonWorld ω) : Prop where
  readable : Readable world.state
  clean : Clean world.state

/-- What the alerts in the file are told apart by. -/
def DaemonWorld.alertKeys {ω : Type} (world : DaemonWorld ω) :
    List (String × AlertSeverity × String) :=
  (alerts world.state).map DaemonAlert.key

section Entering

variable {ω ε : Type} {world after : DaemonWorld ω}

theorem Ready.of_keepsLedger (h : Ready world) (hkept : KeepsLedger world after) : Ready after :=
  ⟨(readable_iff_of_ledger hkept.ledger).mpr h.readable, hkept.clean h.clean⟩

theorem exec_addAlert {file : StateFile} (hreadable : Readable file) (hclean : Clean file)
    {alert : DaemonAlert} (hjson : alert.metadata.isJson = true) :
    ∃ state, (addAlert alert).exec file = (.ok state, perform file (.addAlert alert)) := by
  obtain ⟨state, hload⟩ := hreadable
  obtain rfl := eq_of_load hload
  have hsaved : (appended state alert).alerts.all (fun alert => alert.metadata.isJson) = true :=
    (all_appended hclean alert).trans hjson
  have houtcome : ((addAlert alert).exec (some state)).1.isOk = true := by
    unfold addAlert
    rw [Effect.exec_bind_ok _ (exec_loadRequired_of_ok hload _)]
    split
    · rfl
    · have hsave : (save (appended state alert)).exec (some state) =
          (.ok (), some (appended state alert)) := by
        unfold save
        rw [if_pos hsaved]
        rfl
      change (Effect.exec (save (appended state alert) >>= fun _ => pure (appended state alert))
        (some state)).1.isOk = true
      rw [Effect.exec_bind_ok _ hsave]
      rfl
  rcases hrun : (addAlert alert).exec (some state) with ⟨fault | saved, file'⟩
  · rw [hrun] at houtcome
    cases houtcome
  · exact ⟨saved, Prod.ext rfl (congrArg Prod.snd hrun).symm⟩

/-- Where alerts can be entered, each is taken, and kept as the log keeps them. -/
theorem exec_submitAlert (h : Ready world) {alert : DaemonAlert}
    (hjson : alert.metadata.isJson = true) :
    ∃ after, (submitAlert alert : DaemonEffect ω ε Bool).exec world = (.ok true, after) ∧
      Ready after ∧ after.project = world.project ∧
      after.alertKeys = retain id maxAlerts world.alertKeys alert.key := by
  obtain ⟨state, hadded⟩ := exec_addAlert h.readable h.clean hjson
  let after : DaemonWorld ω := { world with state := perform world.state (.addAlert alert) }
  have hexec : (submitAlert alert : DaemonEffect ω ε Bool).exec world = (.ok true, after) := by
    have hstate : (onState (addAlert alert) : DaemonEffect ω ε DaemonState).exec world =
        (.ok state, after) := by
      rw [onState, Effect.exec_within, Effect.exec_mapError, hadded]
      rfl
    rw [submitAlert, dropStateErrors, Effect.exec_recover, Effect.exec_bind_ok _ hstate]
    rfl
  have hkept := (ledgerKept_submitAlert alert : LedgerKept (ε := ε) _) world
  rw [hexec] at hkept
  refine ⟨after, hexec, h.of_keepsLedger hkept.2, rfl, ?_⟩
  exact (congrArg (List.map DaemonAlert.key) (alerts_addAlert h.clean ⟨h.readable, hjson⟩)).trans
    (map_retain DaemonAlert.key maxAlerts _ alert)

end Entering

end ForgeOS
