import ForgeOS.Daemon.Alerts
import ForgeOS.Health.CostCap

/-!
The daemon's sweep over the health checkers: an alert for each that finds
something, whatever becomes of the others. The daemon's log suppresses an alert
that repeats the last one. That keeps a single finding from filling the log, but
not two that take turns.
-/

namespace ForgeOS

open Library DaemonStateStore

/-- The monitor, with its checkers by their names. -/
structure HealthMonitor (ω ε : Type) where
  host : DaemonHost ω ε
  checkers : List (String × Effect ω ε HealthResult)
  distinct : (checkers.map Prod.fst).Nodup

/-- What `check` returns. -/
structure SweepReport where
  checked : Nat := 0
  unhealthy : Nat := 0
  alerted : Nat := 0
deriving DecidableEq, Repr

namespace HealthMonitor

variable {ω ε : Type} (monitor : HealthMonitor ω ε)

/-- The alert about an unhealthy checker. -/
def alertOf (alertId createdAt name : String) (result : HealthResult) : DaemonAlert where
  alertId := alertId
  createdAt := createdAt
  source := s!"health-{name}"
  severity := .warning
  message := result.message
  metadata := .json [("checker", .str name),
    ("recommendations", .arr (result.recommendations.map .str))]

def alert (name : String) (result : HealthResult) : DaemonEffect ω ε Bool := do
  let alertId ← reading monitor.host.uuid4
  let createdAt ← reading monitor.host.utcNow
  submitAlert (alertOf alertId createdAt name result)

/-- One turn of the loop of `check`. -/
def visit (report : SweepReport) (checker : String × Effect ω ε HealthResult) :
    DaemonEffect ω ε SweepReport := do
  let outcome ← (do return some (← onProject checker.2)).recover fun _ => some none
  match outcome with
  | none => return report
  | some result =>
      if result.healthy then return { report with checked := report.checked + 1 }
      else
        let taken ← monitor.alert checker.1 result
        return {
          checked := report.checked + 1
          unhealthy := report.unhealthy + 1
          alerted := if taken then report.alerted + 1 else report.alerted }

/-- Run every checker once; alert on each unhealthy result. -/
def check : DaemonEffect ω ε SweepReport := monitor.checkers.foldlM monitor.visit {}

/-- Sweeps, before each of which the host changes in some way. -/
def sweeps (world : DaemonWorld ω) (changes : List (ω → ω)) : DaemonWorld ω :=
  run (fun world change =>
    (monitor.check.exec { world with project := change world.project }).2) world changes

theorem ledgerKept_alert (name : String) (result : HealthResult) :
    LedgerKept (monitor.alert name result) :=
  (ledgerKept_reading _).bind fun _ => (ledgerKept_reading _).bind fun _ =>
    ledgerKept_submitAlert _

theorem ledgerKept_visit (report : SweepReport) (checker : String × Effect ω ε HealthResult) :
    LedgerKept (monitor.visit report checker) := by
  refine LedgerKept.bind (((ledgerKept_onProject _).bind fun _ => .pure _).recover _) ?_
  intro outcome
  cases outcome with
  | none => exact .pure _
  | some result =>
      dsimp only
      split
      · exact .pure _
      · exact (monitor.ledgerKept_alert _ _).bind fun _ => .pure _

/-- A sweep leaves the runs of the daemon's tasks alone. -/
theorem ledgerKept_check : LedgerKept monitor.check :=
  Effect.keeps_foldlM KeepsLedger.refl KeepsLedger.trans
    (fun report checker _ => monitor.ledgerKept_visit report checker) _

/-! ### Sweeps that find the same -/

/-- The checkers say the same whatever has become of the host. -/
def Steady (verdict : String → Except ε HealthResult) : Prop :=
  ∀ checker ∈ monitor.checkers, ∀ project, (checker.2.exec project).1 = verdict checker.1

/-- What the log tells the alert about a verdict by, if there is one. -/
def finding? (verdict : String → Except ε HealthResult) (name : String) :
    Option (String × AlertSeverity × String) :=
  match verdict name with
  | .ok result =>
      if result.healthy then none else some (s!"health-{name}", .warning, result.message)
  | .error _ => none

/-- The findings of one sweep. -/
def findings (verdict : String → Except ε HealthResult) :
    List (String × AlertSeverity × String) :=
  (monitor.checkers.map Prod.fst).filterMap (finding? verdict)

/-- The checkers that do not raise. -/
def checks (verdict : String → Except ε HealthResult) : Nat :=
  (monitor.checkers.map Prod.fst).countP fun name => (verdict name).isOk

variable {monitor} {world : DaemonWorld ω} {verdict : String → Except ε HealthResult}

theorem exec_alert (monitor : HealthMonitor ω ε) (h : Ready world) (name : String)
    (result : HealthResult) :
    ∃ after, (monitor.alert name result).exec world = (.ok true, after) ∧ Ready after ∧
      after.alertKeys = retain id maxAlerts world.alertKeys
        (s!"health-{name}", .warning, result.message) := by
  let named := monitor.host.uuid4 world.project
  let dated := monitor.host.utcNow named.2
  have hdated : Ready (⟨world.state, dated.2⟩ : DaemonWorld ω) := ⟨h.readable, h.clean⟩
  have hjson : (alertOf named.1 dated.1 name result).metadata.isJson = true := rfl
  obtain ⟨after, hexec, hready, -, hkeys⟩ := exec_submitAlert (ε := ε) hdated hjson
  rw [alert, Effect.exec_bind_ok _ (exec_reading _ world),
    Effect.exec_bind_ok _ (exec_reading _ _)]
  exact ⟨after, hexec, hready, hkeys⟩

/-- A checker that raises is passed over. -/
theorem exec_outcome (world : DaemonWorld ω) (check : Effect ω ε HealthResult) :
    ((do return some (← onProject check)).recover fun _ => some none :
        DaemonEffect ω ε (Option HealthResult)).exec world =
      (.ok (check.exec world.project).1.toOption,
        { world with project := (check.exec world.project).2 }) := by
  rw [Effect.exec_recover, Effect.exec_bind, onProject, Effect.exec_within, Effect.exec_mapError]
  rcases check.exec world.project with ⟨error | result, project⟩
  · rfl
  · rfl

theorem exec_visit (monitor : HealthMonitor ω ε) (h : Ready world) (report : SweepReport)
    {checker : String × Effect ω ε HealthResult}
    (hsteady : ∀ project, (checker.2.exec project).1 = verdict checker.1) :
    ∃ after, (monitor.visit report checker).exec world =
        (.ok {
          checked := report.checked + if (verdict checker.1).isOk then 1 else 0
          unhealthy := report.unhealthy + (finding? verdict checker.1).toList.length
          alerted := report.alerted + (finding? verdict checker.1).toList.length }, after) ∧
      Ready after ∧ after.alertKeys =
        (finding? verdict checker.1).toList.foldl (retain id maxAlerts) world.alertKeys := by
  let checked : DaemonWorld ω := { world with project := (checker.2.exec world.project).2 }
  have hready : Ready checked := ⟨h.readable, h.clean⟩
  have houtcome := exec_outcome world checker.2
  rw [hsteady] at houtcome
  rw [visit, Effect.exec_bind_ok _ houtcome, finding?]
  cases verdict checker.1 with
  | error error => exact ⟨checked, rfl, hready, rfl⟩
  | ok result =>
      dsimp only [Except.toOption]
      cases hhealthy : result.healthy with
      | true => exact ⟨checked, by simp [checked, Except.isOk, Except.toBool], hready, rfl⟩
      | false =>
          obtain ⟨after, hexec, hafter, hkeys⟩ := monitor.exec_alert hready checker.1
            result
          refine ⟨after, ?_, hafter, hkeys⟩
          rw [if_neg Bool.false_ne_true, Effect.exec_bind_ok _ hexec]
          rfl

theorem exec_visits {checkers : List (String × Effect ω ε HealthResult)}
    (hsteady : ∀ checker ∈ checkers, ∀ project, (checker.2.exec project).1 = verdict checker.1)
    (report : SweepReport) (h : Ready world) :
    let names := checkers.map Prod.fst
    let found := names.filterMap (finding? verdict)
    ∃ after, (checkers.foldlM monitor.visit report).exec world =
        (.ok {
          checked := report.checked + names.countP fun name => (verdict name).isOk
          unhealthy := report.unhealthy + found.length
          alerted := report.alerted + found.length }, after) ∧
      Ready after ∧ after.alertKeys = found.foldl (retain id maxAlerts) world.alertKeys := by
  induction checkers generalizing report world with
  | nil => exact ⟨world, rfl, h, rfl⟩
  | cons checker rest ih =>
      rw [List.forall_mem_cons] at hsteady
      obtain ⟨visited, hvisit, hvisited, hkeys⟩ := monitor.exec_visit h report hsteady.1
      obtain ⟨after, hrest, hafter, hlast⟩ := ih hsteady.2 _ hvisited
      have hfound : ((checker :: rest).map Prod.fst).filterMap (finding? verdict) =
          (finding? verdict checker.1).toList ++
            (rest.map Prod.fst).filterMap (finding? verdict) := by
        rw [List.map_cons, List.filterMap_cons]
        cases finding? verdict checker.1 with
        | none => rfl
        | some found => rfl
      refine ⟨after, ?_, hafter, ?_⟩
      · rw [List.foldlM_cons, Effect.exec_bind_ok _ hvisit, hrest]
        rw [hfound, List.length_append, List.map_cons, List.countP_cons, Nat.add_assoc,
          Nat.add_assoc, Nat.add_assoc, Nat.add_comm (List.countP _ _)]
      · rw [hlast, hkeys, hfound, List.foldl_append]

/-- A sweep enters its findings in order. -/
theorem exec_check (hsteady : monitor.Steady verdict) (h : Ready world) :
    ∃ after, monitor.check.exec world =
        (.ok ⟨monitor.checks verdict, (monitor.findings verdict).length,
          (monitor.findings verdict).length⟩, after) ∧
      Ready after ∧ after.alertKeys =
        (monitor.findings verdict).foldl (retain id maxAlerts) world.alertKeys := by
  obtain ⟨after, hexec, hready, hkeys⟩ := exec_visits hsteady {} h
  simp only [Nat.zero_add] at hexec
  exact ⟨after, hexec, hready, hkeys⟩

/-- Sweeps enter their findings one after the other. -/
theorem sweeps_ready (hsteady : monitor.Steady verdict) (h : Ready world)
    (changes : List (ω → ω)) :
    Ready (monitor.sweeps world changes) ∧ (monitor.sweeps world changes).alertKeys =
      (List.replicate changes.length (monitor.findings verdict)).flatten.foldl
        (retain id maxAlerts) world.alertKeys := by
  induction changes using List.reverseRecOn with
  | nil => exact ⟨h, rfl⟩
  | append_singleton changes change ih =>
      have hbefore : Ready (⟨(monitor.sweeps world changes).state,
          change (monitor.sweeps world changes).project⟩ : DaemonWorld ω) :=
        ⟨ih.1.readable, ih.1.clean⟩
      obtain ⟨after, hexec, hready, hkeys⟩ := exec_check hsteady hbefore
      have hlast : monitor.sweeps world (changes ++ [change]) = after := by
        rw [sweeps, run_snoc, ← sweeps, hexec]
      rw [hlast]
      refine ⟨hready, hkeys.trans ?_⟩
      rw [List.length_append, List.length_singleton, List.replicate_succ', List.flatten_append,
        List.flatten_singleton, List.foldl_append, ← ih.2]
      rfl

theorem nodup_findings (monitor : HealthMonitor ω ε) (verdict : String → Except ε HealthResult) :
    (monitor.findings verdict).Nodup := by
  refine List.Nodup.filterMap ?_ monitor.distinct
  intro name other key hname hother
  have hsource {name : String} (h : key ∈ finding? verdict name) : key.1 = s!"health-{name}" := by
    unfold finding? at h
    split at h
    · split at h
      · cases h
      · rw [← Option.some.inj (Option.mem_def.mp h)]
    · cases h
  have hsame := (hsource hname).symm.trans (hsource hother)
  exact String.append_right_inj _ |>.mp hsame

/-- Sweeps that find the same each time: one finding makes one alert, however
many sweeps there are, but several fill the log, each sweep with all of them. -/
theorem alerts_of_steady (hsteady : monitor.Steady verdict) (h : Ready world)
    (hfresh : alerts world.state = []) (changes : List (ω → ω)) :
    (∀ before after, changes = before ++ after →
      (monitor.check.exec (monitor.sweeps world before)).1 =
        .ok ⟨monitor.checks verdict, (monitor.findings verdict).length,
          (monitor.findings verdict).length⟩) ∧
    (monitor.sweeps world changes).alertKeys =
      if (monitor.findings verdict).length = 1 then
        (monitor.findings verdict).take changes.length
      else
        (List.replicate changes.length (monitor.findings verdict)).flatten.rtake maxAlerts := by
  constructor
  · intro before after _
    obtain ⟨after, hexec, -, -⟩ := exec_check hsteady (sweeps_ready hsteady h before).1
    rw [hexec]
  · have hnone : world.alertKeys = [] := congrArg (List.map DaemonAlert.key) hfresh
    rw [(sweeps_ready hsteady h changes).2, hnone, foldl_retain id (by decide)]
    split
    · rename_i hone
      obtain ⟨found, hfound⟩ := List.length_eq_one_iff.mp hone
      rw [hfound, List.flatten_replicate_singleton]
      cases changes.length with
      | zero => rw [List.replicate_zero, collapse_nil, List.rtake_nil, List.take_zero]
      | succ n => rw [collapse_replicate, List.take_succ_cons, List.take_nil]; rfl
    · rename_i hmany
      rw [collapse_eq_self id (isChain_flatten_replicate id
        (by rw [List.map_id]; exact monitor.nodup_findings verdict) hmany _)]

theorem watched_distinct : ["hook_latency", "token_budget", "cost_cap"].Nodup := by decide

/-- Of three checkers one raises, and two always find something. -/
def watched : HealthMonitor Nat String where
  host := {
    utcNow := fun clock => (clock.repr, clock + 1)
    uuid4 := fun clock => (clock.repr, clock + 1)
    message := fun _ => "" }
  checkers := [
    ("hook_latency", pure { healthy := false, message := "1 hook(s) persistently slow" }),
    ("token_budget", throw "unreadable"),
    ("cost_cap", pure { healthy := false, message := "over the cost cap" })]
  distinct := watched_distinct

def watchedVerdict (name : String) : Except String HealthResult :=
  if name = "hook_latency" then
    .ok { healthy := false, message := "1 hook(s) persistently slow" }
  else if name = "token_budget" then .error "unreadable"
  else .ok { healthy := false, message := "over the cost cap" }

/-- Two sweeps enter both findings twice. -/
theorem alerts_of_watched :
    (watched.check.exec (watched.sweeps ⟨some started, 0⟩ [id])).1 = .ok ⟨2, 2, 2⟩ ∧
      (watched.sweeps ⟨some started, 0⟩ [id, id]).alertKeys =
        [("health-hook_latency", .warning, "1 hook(s) persistently slow"),
          ("health-cost_cap", .warning, "over the cost cap"),
          ("health-hook_latency", .warning, "1 hook(s) persistently slow"),
          ("health-cost_cap", .warning, "over the cost cap")] := by
  have hsteady : watched.Steady watchedVerdict := by
    intro checker hchecker project
    simp only [watched, List.mem_cons, List.not_mem_nil, or_false] at hchecker
    rcases hchecker with rfl | rfl | rfl <;> rfl
  have hready : Ready (⟨some started, 0⟩ : DaemonWorld Nat) :=
    ⟨⟨started, rfl⟩, by intro alert halert; cases halert⟩
  have hlaw := alerts_of_steady hsteady hready rfl [id, id]
  exact ⟨hlaw.1 [id] [id] rfl, hlaw.2⟩

end HealthMonitor

end ForgeOS
