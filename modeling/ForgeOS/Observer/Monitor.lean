import ForgeOS.Floats
import ForgeOS.Library.Effect
import ForgeOS.Library.Folds
import ForgeOS.Library.Tally

/-!
`ObserverMonitor`, with which the daemon watches the installed agents: restarts
of unhealthy agents and the metrics that tell of them. The restarts are counted
in memory, and the next collection of metrics folds the counts into the file.
What a client or the clock does and whether a file can be written are inputs.
-/

namespace ForgeOS

open Library

/-- What a call of the monitor raises. -/
inductive ObserverFault where
  /-- `'…' object has no attribute 'get'`, of an agent record that is no mapping. -/
  | noGet (typeName : String)
  | raised (error : String)
deriving Repr

structure AgentMetrics where
  uptimeSeconds : PyFloat := .finite 0
  restarts : Int := 0
  lastCheck : Option String := none
deriving DecidableEq, Repr

structure ObserverMetrics where
  collectedAt : Option String := none
  agents : Dict String AgentMetrics := []
deriving Repr

/-- What stands in `metrics.json`. -/
inductive MetricsFile where
  | missing
  | corrupt
  | written (metrics : ObserverMetrics)

/-- `load_metrics()` -/
def MetricsFile.load : MetricsFile → Option ObserverMetrics
  | .written metrics => some metrics
  | _ => none

/-- The monitor and its metrics file. `attempts` is no field of the monitor: it
counts the restarts attempted so far. -/
structure ObserverState where
  metricsFile : MetricsFile
  restartCounts : Dict String Nat := []
  unhealthyAgents : List String := []
  attempts : Nat := 0

/-- An installed agent in `restart_unhealthy_agents`: its record, how the
construction of its client ends, whether it responds to the first probe and to
the second, and how `_alert` ends. -/
structure AgentVisit where
  agent : Json
  client : Except ObserverFault Unit := .ok ()
  probe : Bool
  secondProbe : Bool
  alert : Except ObserverFault Unit := .ok ()

structure RestartReport where
  checked : Nat := 0
  healthy : Nat := 0
  restarted : Nat := 0
  failed : Nat := 0
deriving DecidableEq, Repr

/-- A `collect_metrics` call: the clock, the seconds from an earlier reading to
it, the installed agents, and how the write ends. -/
structure Collection where
  now : Except ObserverFault String
  secondsSince : String → Except ObserverFault PyFloat
  installed : Except ObserverFault (List Json)
  write : Except ObserverFault Unit

namespace ObserverMonitor

abbrev ObserverEffect := Effect ObserverState ObserverFault

section Calls

variable (str : Json → String) (rnd : Rounding)

/-- `str(agent.get("id", "unknown"))`, where `str` is what the builtin gives. -/
def agentId (agent : Json) : Except ObserverFault String :=
  match agent.getOr? "id" (.str "unknown") with
  | some value => .ok (str value)
  | none => .error (.noGet agent.typeName)

/-- The agent is healthy, or recovered. -/
def recovers (agentId : String) (s : ObserverState) : ObserverState :=
  { s with unhealthyAgents := s.unhealthyAgents.filter (· ≠ agentId) }

def fails (agentId : String) (s : ObserverState) : ObserverState :=
  { s with unhealthyAgents := s.unhealthyAgents.insert agentId }

def countRestart (agentId : String) (s : ObserverState) : ObserverState :=
  { s with
    restartCounts := s.restartCounts.set agentId ((s.restartCounts.get? agentId).getD 0 + 1)
    attempts := s.attempts + 1 }

/-- The body of the loop of `restart_unhealthy_agents`. -/
def restartAgent (report : RestartReport) (visit : AgentVisit) : ObserverEffect RestartReport := do
  let agentId ← Effect.ofExcept (agentId str visit.agent)
  let report := { report with checked := report.checked + 1 }
  Effect.ofExcept visit.client
  if visit.probe then
    modify (recovers agentId)
    return { report with healthy := report.healthy + 1 }
  else
    modify (countRestart agentId)
    if visit.secondProbe then
      modify (recovers agentId)
      Effect.ofExcept visit.alert
      return { report with restarted := report.restarted + 1 }
    else
      modify (fails agentId)
      Effect.ofExcept visit.alert
      return { report with failed := report.failed + 1 }

/-- Probe each installed agent; attempt one restart when unhealthy. -/
def restartUnhealthyAgents (installed : Except ObserverFault (List AgentVisit)) :
    ObserverEffect RestartReport := do
  let visits ← Effect.ofExcept installed
  visits.foldlM (restartAgent str) {}

/-- An agent's metrics, with the restarts popped from memory. -/
def accrued (now : String) (elapsed : PyFloat) (unhealthy : Bool) (popped : Nat)
    (entry : AgentMetrics) : AgentMetrics where
  uptimeSeconds := if unhealthy then entry.uptimeSeconds else entry.uptimeSeconds.add rnd elapsed
  restarts := entry.restarts + popped
  lastCheck := some now

/-- The body of the loop of `collect_metrics`. -/
def accrueAgent (now : String) (elapsed : PyFloat) (metrics : ObserverMetrics) (agent : Json) :
    ObserverEffect ObserverMetrics := do
  let agentId ← Effect.ofExcept (agentId str agent)
  let s ← get
  let entry := (metrics.agents.get? agentId).getD {}
  let popped := (s.restartCounts.get? agentId).getD 0
  modify fun s => { s with restartCounts := s.restartCounts.erase agentId }
  let entry := accrued rnd now elapsed (agentId ∈ s.unhealthyAgents) popped entry
  return { metrics with agents := metrics.agents.set agentId entry }

/-- The seconds since the last collection, none if it is still to come. -/
def elapsedSince (call : Collection) : Option String → Except ObserverFault PyFloat
  | none => .ok (.finite 0)
  | some collectedAt => do
      let seconds ← call.secondsSince collectedAt
      return if seconds.lt (.finite 0) then .finite 0 else seconds

/-- Accrue uptime and restarts into `metrics.json`. -/
def collectMetrics (call : Collection) : ObserverEffect ObserverMetrics := do
  let s ← get
  let metrics := s.metricsFile.load.getD {}
  let now ← Effect.ofExcept call.now
  let elapsed ← Effect.ofExcept (elapsedSince call metrics.collectedAt)
  let agents ← Effect.ofExcept call.installed
  let metrics ← agents.foldlM (accrueAgent str rnd now elapsed) metrics
  let metrics := { metrics with collectedAt := some now }
  Effect.ofExcept call.write
  modify fun s => { s with metricsFile := .written metrics }
  return metrics

end Calls

/-! ### What the counts amount to -/

def persistedRestarts (file : MetricsFile) : Int :=
  ((file.load.getD {}).agents.total AgentMetrics.restarts)

/-- The restarts counted in memory. -/
def pendingRestarts (s : ObserverState) : Nat := s.restartCounts.total id

/-- No restart is counted under two keys. -/
def WellKeyed (s : ObserverState) : Prop := (s.restartCounts.map Prod.fst).Nodup

@[simp]
theorem pendingRestarts_recovers (agentId : String) (s : ObserverState) :
    pendingRestarts (recovers agentId s) = pendingRestarts s := rfl

@[simp]
theorem pendingRestarts_fails (agentId : String) (s : ObserverState) :
    pendingRestarts (fails agentId s) = pendingRestarts s := rfl

theorem pendingRestarts_countRestart (agentId : String) (s : ObserverState) :
    pendingRestarts (countRestart agentId s) = pendingRestarts s + 1 := by
  have hset := Dict.total_set id s.restartCounts agentId
    ((s.restartCounts.get? agentId).getD 0 + 1)
  have hamount : s.restartCounts.amount id agentId = (s.restartCounts.get? agentId).getD 0 := by
    unfold Dict.amount
    cases s.restartCounts.get? agentId <;> rfl
  rw [hamount, id, ← Nat.add_assoc] at hset
  change Dict.total id (s.restartCounts.set agentId _) = Dict.total id s.restartCounts + 1
  omega

/-- Whatever has been done to `after` since `s`, each restart attempted is one
more that is counted. -/
structure Counts (s after : ObserverState) : Prop where
  metricsFile : after.metricsFile = s.metricsFile
  pending : pendingRestarts after + s.attempts = pendingRestarts s + after.attempts
  wellKeyed : WellKeyed after

theorem counts_recovers {s after : ObserverState} (h : Counts s after) (agentId : String) :
    Counts s (recovers agentId after) := ⟨h.metricsFile, h.pending, h.wellKeyed⟩

theorem counts_fails {s after : ObserverState} (h : Counts s after) (agentId : String) :
    Counts s (fails agentId after) := ⟨h.metricsFile, h.pending, h.wellKeyed⟩

theorem counts_countRestart {s after : ObserverState} (h : Counts s after) (agentId : String) :
    Counts s (countRestart agentId after) where
  metricsFile := h.metricsFile
  pending := by
    have hpending := h.pending
    rw [pendingRestarts_countRestart]
    change _ = pendingRestarts s + (after.attempts + 1)
    omega
  wellKeyed := Dict.nodup_keys_set h.wellKeyed agentId _

section Conservation

variable (str : Json → String) (rnd : Rounding)

theorem counts_restartAgent {s after : ObserverState} (h : Counts s after)
    (report : RestartReport) (visit : AgentVisit) :
    Counts s ((restartAgent str report visit).exec after).2 := by
  unfold restartAgent
  simp only [Effect.exec_bind, Effect.exec_ofExcept]
  cases agentId str visit.agent with
  | error fault => exact h
  | ok agentId =>
      cases visit.client with
      | error fault => exact h
      | ok _ =>
          cases visit.probe with
          | true => exact counts_recovers h agentId
          | false =>
              have hcounted := counts_countRestart h agentId
              cases visit.secondProbe with
              | true =>
                  have hrecovered := counts_recovers hcounted agentId
                  cases visit.alert with
                  | error fault => exact hrecovered
                  | ok _ => exact hrecovered
              | false =>
                  have hfailed := counts_fails hcounted agentId
                  cases visit.alert with
                  | error fault => exact hfailed
                  | ok _ => exact hfailed

/-- A round of restarts counts each one it attempts, also when it raises. -/
theorem counts_restartUnhealthyAgents {s : ObserverState} (hkeys : WellKeyed s)
    (installed : Except ObserverFault (List AgentVisit)) :
    Counts s ((restartUnhealthyAgents str installed).exec s).2 := by
  have hstart : Counts s s := ⟨rfl, rfl, hkeys⟩
  unfold restartUnhealthyAgents
  rw [Effect.exec_bind, Effect.exec_ofExcept]
  cases installed with
  | error fault => exact hstart
  | ok visits =>
      exact Effect.exec_foldlM_invariant (I := Counts s)
        (fun report visit after h => counts_restartAgent str h report visit) visits {} hstart

/-- The ids of the agents in front of the first record that is no mapping. -/
def takenIds : List Json → List String
  | [] => []
  | agent :: rest =>
      match agentId str agent with
      | .ok key => key :: takenIds rest
      | .error _ => []

theorem exec_accrueAgent (now : String) (elapsed : PyFloat) (metrics : ObserverMetrics)
    {agent : Json} {key : String} (hkey : agentId str agent = .ok key) (s : ObserverState) :
    (accrueAgent str rnd now elapsed metrics agent).exec s =
      (.ok { metrics with agents := metrics.agents.set key (accrued rnd now elapsed
          (key ∈ s.unhealthyAgents) ((s.restartCounts.get? key).getD 0)
          ((metrics.agents.get? key).getD {})) },
        { s with restartCounts := s.restartCounts.erase key }) := by
  unfold accrueAgent
  rw [hkey, Effect.exec_bind, Effect.exec_ofExcept]
  rfl

/-- What a turn of the loop takes out of memory it enters in the metrics. -/
theorem total_accrued (now : String) (elapsed : PyFloat) (unhealthy : Bool)
    (agents : Dict String AgentMetrics) (key : String) (counts : Dict String Nat) :
    (agents.set key (accrued rnd now elapsed unhealthy ((counts.get? key).getD 0)
        ((agents.get? key).getD {}))).total AgentMetrics.restarts + (counts.erase key).total id =
      agents.total AgentMetrics.restarts + counts.total id := by
  have hset := Dict.total_set AgentMetrics.restarts agents key
    (accrued rnd now elapsed unhealthy ((counts.get? key).getD 0) ((agents.get? key).getD {}))
  have herase := Dict.total_erase id counts key
  have hentry : agents.amount AgentMetrics.restarts key =
      ((agents.get? key).getD {}).restarts := by
    unfold Dict.amount
    cases agents.get? key <;> rfl
  have hcount : counts.amount id key = (counts.get? key).getD 0 := by
    unfold Dict.amount
    cases counts.get? key <;> rfl
  rw [hentry] at hset
  rw [hcount] at herase
  simp only [accrued] at hset ⊢
  omega

/-- The loop of a collection pops the ids in front of the first record that is
no mapping. It raises if there is one, else the metrics hold what was popped. -/
theorem exec_accrueAgents (now : String) (elapsed : PyFloat) (agents : List Json)
    (metrics : ObserverMetrics) (s : ObserverState) :
    ∃ outcome, (agents.foldlM (accrueAgent str rnd now elapsed) metrics).exec s =
        (outcome, { s with restartCounts := s.restartCounts.eraseAll (takenIds str agents) }) ∧
      (outcome.isOk = true ↔ ∀ agent ∈ agents, (agentId str agent).isOk = true) ∧
      ∀ after, outcome = .ok after →
        after.agents.total AgentMetrics.restarts +
            (s.restartCounts.eraseAll (takenIds str agents)).total id =
          metrics.agents.total AgentMetrics.restarts + s.restartCounts.total id := by
  induction agents generalizing metrics s with
  | nil =>
      refine ⟨.ok metrics, rfl, iff_of_true rfl (by simp), ?_⟩
      intro after hafter
      rw [← Except.ok.inj hafter]
      rfl
  | cons agent rest ih =>
      rw [List.foldlM_cons, List.forall_mem_cons, Effect.exec_bind]
      cases hkey : agentId str agent with
      | error fault =>
          have hitem : (accrueAgent str rnd now elapsed metrics agent).exec s =
              (.error fault, s) := by
            unfold accrueAgent
            rw [hkey, Effect.exec_bind, Effect.exec_ofExcept]
          refine ⟨.error fault, ?_, iff_of_false Bool.false_ne_true fun h => ?_, ?_⟩
          · rw [hitem, takenIds, hkey]
            rfl
          · cases h.1
          · intro after h
            cases h
      | ok key =>
          rw [exec_accrueAgent str rnd now elapsed metrics hkey, takenIds, hkey]
          obtain ⟨outcome, hrun, hok, htotal⟩ := ih _ _
          refine ⟨outcome, hrun, ?_, ?_⟩
          · rw [hok]
            exact (and_iff_right rfl).symm
          · intro after hafter
            exact (htotal after hafter).trans (total_accrued rnd ..)

end Conservation

/-! ### A collection that fails -/

section Collections

variable (str : Json → String) (rnd : Rounding)

/-- The agents a collection goes through, unless the clock or the registry
raises before it gets to them. -/
def reached (call : Collection) (file : MetricsFile) : Except ObserverFault (List Json) := do
  let _ ← call.now
  let _ ← elapsedSince call (file.load.getD {}).collectedAt
  call.installed

/-- Every record is a mapping, and the file can be written. -/
def Writes (call : Collection) (agents : List Json) : Prop :=
  (∀ agent ∈ agents, (agentId str agent).isOk = true) ∧ call.write.isOk = true

/-- A collection that gets to the agents and then fails finds no restart of
theirs in memory. -/
def KeepsCounts (call : Collection) (s : ObserverState) : Prop :=
  ∀ agents, reached call s.metricsFile = .ok agents →
    Writes str call agents ∨ ∀ key ∈ takenIds str agents, s.restartCounts.amount id key = 0

theorem reached_eq_ok {call : Collection} {file : MetricsFile} {agents : List Json}
    (h : reached call file = .ok agents) :
    ∃ now elapsed, call.now = .ok now ∧
      elapsedSince call (file.load.getD {}).collectedAt = .ok elapsed ∧
      call.installed = .ok agents := by
  obtain ⟨now, hnow, h⟩ := bind_eq_ok_iff.mp h
  obtain ⟨elapsed, helapsed, hinstalled⟩ := bind_eq_ok_iff.mp h
  exact ⟨now, elapsed, hnow, helapsed, hinstalled⟩

/-- A collection that does not get to the agents does nothing. -/
theorem exec_collectMetrics_of_error {call : Collection} {s : ObserverState}
    {fault : ObserverFault} (h : reached call s.metricsFile = .error fault) :
    ((collectMetrics str rnd call).exec s).2 = s := by
  unfold reached at h
  simp only [collectMetrics, Effect.exec_bind, Effect.exec_get, Effect.exec_ofExcept]
  cases hnow : call.now with
  | error _ => rfl
  | ok now =>
      cases helapsed : elapsedSince call (s.metricsFile.load.getD {}).collectedAt with
      | error _ => rfl
      | ok elapsed =>
          rw [hnow, helapsed] at h
          change call.installed = .error fault at h
          rw [h]

/-- What a collection that gets to the agents leaves behind. -/
theorem exec_collectMetrics {call : Collection} {s : ObserverState} {agents : List Json}
    (h : reached call s.metricsFile = .ok agents) :
    let after := ((collectMetrics str rnd call).exec s).2
    after.restartCounts = s.restartCounts.eraseAll (takenIds str agents) ∧
      after.attempts = s.attempts ∧
      (Writes str call agents → persistedRestarts after.metricsFile + pendingRestarts after =
        persistedRestarts s.metricsFile + pendingRestarts s) ∧
      (¬ Writes str call agents → after.metricsFile = s.metricsFile) := by
  intro after
  obtain ⟨now, elapsed, hnow, helapsed, hinstalled⟩ := reached_eq_ok h
  obtain ⟨outcome, hrun, hok, htotal⟩ :=
    exec_accrueAgents str rnd now elapsed agents (s.metricsFile.load.getD {}) s
  have hafter : after = ((collectMetrics str rnd call).exec s).2 := rfl
  simp only [collectMetrics, Effect.exec_bind, Effect.exec_get, hnow, helapsed, hinstalled,
    Effect.exec_ofExcept, hrun] at hafter
  cases outcome with
  | error fault =>
      have hnot : ¬ Writes str call agents := fun hwrites =>
        Bool.false_ne_true (hok.mpr hwrites.1)
      rw [hafter]
      exact ⟨rfl, rfl, fun hwrites => absurd hwrites hnot, fun _ => rfl⟩
  | ok metrics =>
      unfold Writes
      rw [← hok]
      cases hwrite : call.write with
      | error fault =>
          rw [hwrite] at hafter
          rw [hafter]
          exact ⟨rfl, rfl, fun hwrites => absurd hwrites.2 Bool.false_ne_true, fun _ => rfl⟩
      | ok _ =>
          rw [hwrite] at hafter
          rw [hafter]
          exact ⟨rfl, rfl, fun _ => htotal metrics rfl, fun hnot => absurd ⟨rfl, rfl⟩ hnot⟩

/-! ### Runs of the monitor -/

inductive ObserverCall where
  | restartUnhealthyAgents (installed : Except ObserverFault (List AgentVisit))
  | collectMetrics (collection : Collection)

/-- The state a call leaves behind, whether it returns or raises. -/
def perform (s : ObserverState) : ObserverCall → ObserverState
  | .restartUnhealthyAgents installed => ((restartUnhealthyAgents str installed).exec s).2
  | .collectMetrics collection => ((collectMetrics str rnd collection).exec s).2

/-- A new monitor, over some metrics file. -/
def initial (file : MetricsFile) : ObserverState := { metricsFile := file }

/-- The restarts persisted since the file stood as it did, and those in memory,
are the restarts attempted. -/
def Conserved (file : MetricsFile) (s : ObserverState) : Prop :=
  persistedRestarts s.metricsFile - persistedRestarts file + pendingRestarts s = s.attempts

/-- The condition on a call: a collection that fails has no restart to lose. -/
def ObserverCall.LosesNone (s : ObserverState) : ObserverCall → Prop
  | .restartUnhealthyAgents _ => True
  | .collectMetrics collection => KeepsCounts str collection s

variable {str rnd}

theorem wellKeyed_perform {s : ObserverState} (h : WellKeyed s) (call : ObserverCall) :
    WellKeyed (perform str rnd s call) := by
  cases call with
  | restartUnhealthyAgents installed =>
      exact (counts_restartUnhealthyAgents str h installed).wellKeyed
  | collectMetrics collection =>
      unfold perform
      cases hreached : reached collection s.metricsFile with
      | error fault =>
          dsimp only
          rwa [exec_collectMetrics_of_error str rnd hreached]
      | ok agents =>
          have hafter := (exec_collectMetrics str rnd hreached).1
          unfold WellKeyed
          rw [hafter]
          exact Dict.nodup_keys_eraseAll h _

/-- A collection conserves the restarts just if it loses none. -/
theorem conserved_collectMetrics_iff {file : MetricsFile} {s : ObserverState}
    (hkeys : WellKeyed s) (h : Conserved file s) (collection : Collection) :
    Conserved file ((collectMetrics str rnd collection).exec s).2 ↔
      KeepsCounts str collection s := by
  unfold KeepsCounts
  cases hreached : reached collection s.metricsFile with
  | error fault =>
      rw [exec_collectMetrics_of_error str rnd hreached]
      exact iff_of_true h fun agents hagents => by cases hagents
  | ok agents =>
      obtain ⟨hcounts, hattempts, hwritten, hkept⟩ := exec_collectMetrics str rnd hreached
      have hpopped := Dict.total_eraseAll_iff hkeys id (takenIds str agents)
      simp only [Except.ok.injEq, forall_eq']
      unfold Conserved at h ⊢
      by_cases hwrites : Writes str collection agents
      · have hsum := hwritten hwrites
        rw [hattempts]
        exact iff_of_true (by omega) (Or.inl hwrites)
      · rw [hkept hwrites, hattempts, or_iff_right hwrites, ← hpopped.2]
        unfold pendingRestarts at h ⊢
        rw [hcounts]
        omega

/-- After every call the restarts persisted and those in memory are the restarts
attempted, exactly if no collection that fails after it got to the agents finds a
restart of theirs in memory. It has taken them out by then. -/
theorem conserved_iff (file : MetricsFile) (calls : List ObserverCall) :
    (∀ before after, calls = before ++ after →
      Conserved file (run (perform str rnd) (initial file) before)) ↔
    ∀ before call after, calls = before ++ call :: after →
      call.LosesNone str (run (perform str rnd) (initial file) before) := by
  apply run_throughout_iff (perform str rnd) (K := WellKeyed) calls
  · exact fun s call _ hkeys => wellKeyed_perform hkeys call
  · intro s call _ hkeys h
    cases call with
    | restartUnhealthyAgents installed =>
        have hcounts := counts_restartUnhealthyAgents str hkeys installed
        refine iff_of_true ?_ trivial
        have hpending := hcounts.pending
        unfold Conserved at h ⊢
        change persistedRestarts ((restartUnhealthyAgents str installed).exec s).2.metricsFile -
          _ + _ = _
        rw [hcounts.metricsFile]
        unfold perform
        dsimp only
        omega
    | collectMetrics collection => exact conserved_collectMetrics_iff hkeys h collection
  · exact List.nodup_nil
  · unfold Conserved
    change persistedRestarts file - persistedRestarts file + 0 = 0
    omega

end Collections

/-- An agent that does not come up again. -/
def unresponsive : AgentVisit where
  agent := .obj [("id", .str "agent-a")]
  probe := false
  secondProbe := false

/-- A collection over that agent, on a disk that is full. -/
def collectionOnFullDisk : Collection where
  now := .ok "2026-01-01T00:00:00Z"
  secondsSince := fun _ => .ok (.finite 0)
  installed := .ok [unresponsive.agent]
  write := .error (.raised "[Errno 28] No space left on device")

/-- The restart that a collection popped before its write failed is counted
nowhere any more. -/
theorem not_conserved :
    ¬ ∀ (str : Json → String) (rnd : Rounding) (file : MetricsFile) (calls : List ObserverCall),
      Conserved file (run (perform str rnd) (initial file) calls) := by
  intro h
  have hlost := h (fun value => value.str?.getD "") exactly .missing
    [.restartUnhealthyAgents (.ok [unresponsive]), .collectMetrics collectionOnFullDisk]
  revert hlost
  unfold Conserved
  decide

end ObserverMonitor

end ForgeOS
