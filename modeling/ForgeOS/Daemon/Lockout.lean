import ForgeOS.Daemon.Runner

/-!
A daemon whose cost throttle is on. As long as nothing is taken out of the event
store, the dreamer is not run again: the daemon lives as it would with any other
dreamer.
-/

namespace ForgeOS

open Library DaemonStateStore

/-- Rows added to the store, if it is one. -/
def SpendFiles.append (files : SpendFiles) (more : List StoredEvent) : SpendFiles :=
  match files.db with
  | .rows events => { files with db := .rows (events ++ more) }
  | _ => files

theorem SpendFiles.append_nil (files : SpendFiles) : files.append [] = files := by
  obtain ⟨configPath, config, db⟩ := files
  cases db with
  | rows events => simp [append]
  | missing => rfl
  | unreadable => rfl

theorem SpendFiles.append_append (files : SpendFiles) (more others : List StoredEvent) :
    (files.append more).append others = files.append (more ++ others) := by
  obtain ⟨configPath, config, db⟩ := files
  cases db with
  | rows events => simp [append]
  | missing => rfl
  | unreadable => rfl

def ObserverSetup.runs {τ ω ε : Type} (config : ObserverSetup τ ω ε) : List (ObserverRun ω ε) :=
  [config.checkRegistry, config.cleanupStaleSessions, config.restartUnhealthyAgents,
    config.collectMetrics]

section Adding

variable {τ ω ε : Type} (files : ω → SpendFiles)

/-- From one moment to the other, rows are added to the store at most. -/
def Adds (before after : ω) : Prop := ∃ more, files after = (files before).append more

variable {files}

theorem Adds.refl (project : ω) : Adds files project project :=
  ⟨[], (SpendFiles.append_nil _).symm⟩

theorem Adds.trans {first second third : ω} (h : Adds files first second)
    (h' : Adds files second third) : Adds files first third := by
  obtain ⟨more, hmore⟩ := h
  obtain ⟨others, hothers⟩ := h'
  exact ⟨more ++ others, by rw [hothers, hmore, SpendFiles.append_append]⟩

variable (files) in
/-- A computation of the daemon that adds rows at most. -/
abbrev AddsRows {α : Type} (m : DaemonEffect ω ε α) : Prop :=
  m.Keeps (fun _ => True) fun before after => Adds files before.project after.project

variable {α β : Type}

theorem AddsRows.pure (a : α) : AddsRows files (Pure.pure a : DaemonEffect ω ε α) :=
  Effect.keeps_pure (fun world => .refl world.project) a

theorem AddsRows.bind {m : DaemonEffect ω ε α} {f : α → DaemonEffect ω ε β}
    (hm : AddsRows files m) (hf : ∀ a, AddsRows files (f a)) : AddsRows files (m >>= f) :=
  Effect.keeps_bind (fun _ _ _ => Adds.trans) hm hf

theorem AddsRows.recover {m : DaemonEffect ω ε α} (hm : AddsRows files m)
    (instead : TaskFault ε → Option α) : AddsRows files (m.recover instead) :=
  Effect.keeps_recover hm instead

/-- The state file is none of the project's. -/
theorem addsRows_onState (m : StateEffect α) :
    AddsRows files (onState m : DaemonEffect ω ε α) :=
  Effect.keeps_of_related fun world => .refl world.project

theorem addsRows_onProject {m : Effect ω ε α}
    (h : ∀ project, Adds files project (m.exec project).2) : AddsRows files (onProject m) :=
  Effect.keeps_of_related fun world => h world.project

theorem addsRows_reading {read : ω → String × ω}
    (h : ∀ project, Adds files project (read project).2) :
    AddsRows files (reading read : DaemonEffect ω ε String) :=
  Effect.keeps_of_related fun world => h world.project

theorem addsRows_submitAlert (alert : DaemonAlert) :
    AddsRows files (submitAlert alert : DaemonEffect ω ε Bool) :=
  ((addsRows_onState _).bind fun _ => .pure true).recover _

end Adding

/-- What runs beside the dreamer adds rows to the event store at most. -/
structure DaemonSetup.OnlyAdds {τ ω ε : Type} (setup : DaemonSetup τ ω ε) (files : ω → SpendFiles) :
    Prop where
  utcNow : ∀ project, Adds files project (setup.host.utcNow project).2
  uuid4 : ∀ project, Adds files project (setup.host.uuid4 project).2
  observer : ∀ start config, setup.observer start = .ok config → ∀ run ∈ config.runs,
    ∀ project, Adds files project (run project).2
  sweepTime : ∀ project, Adds files project (setup.healthMonitor.host.utcNow project).2
  sweepId : ∀ project, Adds files project (setup.healthMonitor.host.uuid4 project).2
  checkers : ∀ checker ∈ setup.healthMonitor.checkers, ∀ project,
    Adds files project (checker.2.exec project).2

namespace DaemonSetup

variable {τ ω ε : Type} {setup : DaemonSetup τ ω ε} {files : ω → SpendFiles}

theorem addsRows_heartbeat (h : setup.OnlyAdds files) : AddsRows files setup.heartbeat := by
  refine (addsRows_onState _).bind fun found => ?_
  cases found with
  | none => exact Effect.keeps_throw (fun world => .refl world.project) trivial
  | some state =>
      exact (addsRows_reading h.utcNow).bind fun now => (addsRows_onState _).bind fun _ => .pure _

theorem addsRows_recordThrottleAlert (h : setup.OnlyAdds files) (taskName : String)
    (decision : ThrottleDecision) : AddsRows files (setup.recordThrottleAlert taskName decision) :=
  (addsRows_reading h.uuid4).bind fun _ => (addsRows_reading h.utcNow).bind fun _ =>
    addsRows_submitAlert _

theorem addsRows_observe {run : ObserverRun ω ε}
    (h : ∀ project, Adds files project (run project).2) : AddsRows files (observe run) := by
  refine (addsRows_onProject h).bind fun ran => AddsRows.bind ?_ fun _ => ?_
  · exact Effect.keeps_mapM (fun world => .refl world.project) (fun _ _ _ => Adds.trans)
      addsRows_submitAlert ran.2
  · exact Effect.keeps_of_related fun world => .refl world.project

theorem addsRows_monitorHealth (h : setup.OnlyAdds files) : AddsRows files setup.monitorHealth := by
  refine AddsRows.bind (Effect.keeps_foldlM (fun world => .refl world.project)
    (fun _ _ _ => Adds.trans) ?_ _) fun _ => .pure _
  intro report checker hchecker
  refine AddsRows.bind (((addsRows_onProject (h.checkers checker hchecker)).bind fun _ =>
    .pure _).recover _) fun outcome => ?_
  cases outcome with
  | none => exact .pure _
  | some result =>
      dsimp only
      split
      · exact .pure _
      · refine AddsRows.bind ?_ fun _ => .pure _
        exact (addsRows_reading h.sweepId).bind fun _ => (addsRows_reading h.sweepTime).bind
          fun _ => addsRows_submitAlert _

theorem addsRows_recordRun (h : setup.OnlyAdds files) (name status : String)
    (error : Option String) : AddsRows files (setup.recordRun name status error) :=
  ((addsRows_reading h.utcNow).bind fun _ => addsRows_onState _).recover _

theorem adds_execute (h : setup.OnlyAdds files) {tasks : List (DaemonTask τ ω ε)}
    {task : DaemonTask τ ω ε} {world : DaemonWorld ω}
    (htask : Adds files world.project (task.run.exec world).2.project) :
    Adds files world.project ((setup.taskRunner tasks).execute world task).project := by
  unfold TaskRunner.execute
  rcases hrun : task.run.exec world with ⟨error | result, after⟩
  · rw [hrun] at htask
    exact htask.trans (addsRows_recordRun h _ _ _ after).2
  · rw [hrun] at htask
    exact htask.trans (addsRows_recordRun h _ _ _ after).2

/-! ### The throttle, once on -/

/-- The throttle is on, or cannot be read. -/
def Tripped (setup : DaemonSetup τ ω ε) (project : ω) : Prop :=
  ∀ decision, setup.evaluate project = .ok decision → decision.throttled = true

/-- Behind a throttle that is on, nothing depends on what is gated. -/
theorem exec_throttleGate (h : setup.OnlyAdds files) {world : DaemonWorld ω}
    (htripped : setup.Tripped world.project) (taskName : String)
    (run : Effect ω ε TaskSummary) :
    Adds files world.project ((setup.throttleGate taskName run).exec world).2.project ∧
      ∀ other, (setup.throttleGate taskName other).exec world =
        (setup.throttleGate taskName run).exec world := by
  have hevaluated : (onProject (do Effect.ofExcept (setup.evaluate (← get))) :
      DaemonEffect ω ε ThrottleDecision).exec world =
        ((setup.evaluate world.project).mapError TaskFault.foreign, world) := rfl
  have hgate (run : Effect ω ε TaskSummary) : (setup.throttleGate taskName run).exec world =
      match setup.evaluate world.project with
      | .error error => (.error (.foreign error), world)
      | .ok decision => (do
          let _ ← setup.recordThrottleAlert taskName decision
          return some ([("throttled", .bool true), ("task", .str taskName),
            ("reason", .optional (decision.reason.map ThrottleReason.value))] ++
              decision.metrics setup.rnd) : DaemonEffect ω ε TaskSummary).exec world := by
    rw [throttleGate, Effect.exec_bind, hevaluated]
    cases hdecided : setup.evaluate world.project with
    | error error => rfl
    | ok decision =>
        have hon := htripped decision hdecided
        simp only [Except.mapError, hon, Bool.not_true, Bool.false_eq_true, if_false]
  refine ⟨?_, fun other => (hgate other).trans (hgate run).symm⟩
  rw [hgate]
  split
  · exact .refl world.project
  · exact (((addsRows_recordThrottleAlert h taskName _).bind fun _ => .pure _) world).2

/-- The throttle is the one of the project's files. -/
def ThrottledBy (setup : DaemonSetup τ ω ε) (files : ω → SpendFiles)
    (validate : JsonObject → Except String JsonObject) (injected : Json)
    (fault : SpendError → ε) : Prop :=
  ∀ project, setup.evaluate project =
    (CostThrottle.evaluate validate exactly injected (files project)).mapError fault

section Tripped

variable {validate : JsonObject → Except String JsonObject} {injected : Json}
  {fault : SpendError → ε} {start : ω} {decided : ThrottleDecision}

/-- Rows that are added do not let the dreamer go. -/
theorem tripped_of_adds (hby : setup.ThrottledBy files validate injected fault)
    (h : CostThrottle.evaluate validate exactly injected (files start) = .ok decided)
    (hthrottled : decided.throttled = true) {project : ω} (hadds : Adds files start project) :
    setup.Tripped project := by
  obtain ⟨more, hmore⟩ := hadds
  intro decision hdecision
  rw [hby, hmore] at hdecision
  cases hlater : CostThrottle.evaluate validate exactly injected ((files start).append more) with
  | error error =>
      rw [hlater] at hdecision
      cases hdecision
  | ok later =>
      rw [hlater] at hdecision
      obtain rfl := Except.ok.inj hdecision
      rcases hfiles : files start with ⟨configPath, config, db⟩
      rw [hfiles] at h hlater
      have hsame (hkept : (SpendFiles.append ⟨configPath, config, db⟩ more) =
          ⟨configPath, config, db⟩) : later.throttled = true := by
        rw [hkept, h] at hlater
        rwa [← Except.ok.inj hlater]
      cases db with
      | missing => exact hsame rfl
      | unreadable => exact hsame rfl
      | rows events =>
          obtain ⟨-, totals, -, htotals, -⟩ := CostThrottle.evaluate_eq_ok validate exactly hlater
          obtain ⟨still, hstill, hon⟩ := CostThrottle.still_throttled h hthrottled htotals
          rwa [← Except.ok.inj (hstill.symm.trans hlater)]

theorem addsRows_observerTask (h : setup.OnlyAdds files) {config : ObserverSetup τ ω ε}
    (hconfig : setup.observer start = .ok config) {task : DaemonTask τ ω ε}
    (htask : task ∈ observerTasks config) : AddsRows files task.run := by
  have hruns := h.observer start config hconfig
  unfold observerTasks at htask
  split at htask
  · simp only [ObserverSetup.runs, List.forall_mem_cons, List.not_mem_nil, false_implies,
      implies_true, and_true] at hruns
    obtain ⟨hregistry, hcleanup, hhealth, hmetrics⟩ := hruns
    simp only [List.mem_cons, List.not_mem_nil, or_false] at htask
    rcases htask with rfl | rfl | rfl | rfl
    · exact addsRows_observe hregistry
    · exact addsRows_observe hcleanup
    · exact addsRows_observe hhealth
    · exact addsRows_observe hmetrics
  · cases htask

variable [NatCast τ]

/-- The tasks are those of a daemon with any other dreamer, as long as the
throttle is on. -/
theorem alike_of_tripped (honly : setup.OnlyAdds files)
    (htripped : ∀ project, Adds files start project → setup.Tripped project)
    {config : ObserverSetup τ ω ε} (hconfig : setup.observer start = .ok config) (enabled : Bool)
    (digest decay reingest : Effect ω ε TaskSummary) :
    let other := { setup with digest, decay, reingest }
    let tasksOf (setup : DaemonSetup τ ω ε) := ⟨"heartbeat", (30 : Nat), setup.heartbeat⟩ ::
      setup.dreamerTasks ++ observerTasks config ++ setup.healthMonitorTasks enabled
    TaskRunner.Alike (fun world => Adds files start world.project)
      (setup.taskRunner (tasksOf setup)) (other.taskRunner (tasksOf other)) := by
  intro other tasksOf
  let I (world : DaemonWorld ω) : Prop := Adds files start world.project
  have hkept {task : DaemonTask τ ω ε} (htask : AddsRows files task.run)
      (world : DaemonWorld ω) (hworld : I world) :
      I ((setup.taskRunner (tasksOf setup)).execute world task) :=
    hworld.trans (adds_execute honly (htask world).2)
  have hgated (name : String) (interval : τ) (run instead : Effect ω ε TaskSummary)
      (world : DaemonWorld ω) (hworld : I world) :
      (other.taskRunner (tasksOf other)).execute world
          ⟨name, interval, other.throttleGate name instead⟩ =
        (setup.taskRunner (tasksOf setup)).execute world
          ⟨name, interval, setup.throttleGate name run⟩ ∧
      I ((setup.taskRunner (tasksOf setup)).execute world
          ⟨name, interval, setup.throttleGate name run⟩) := by
    obtain ⟨hadds, hothers⟩ := exec_throttleGate honly (htripped _ hworld) name run
    refine ⟨?_, hworld.trans (adds_execute honly hadds)⟩
    have hsame : (other.throttleGate name instead).exec world =
        (setup.throttleGate name run).exec world := hothers instead
    unfold TaskRunner.execute
    dsimp only
    rw [hsame]
    rfl
  refine List.Forall₂.cons ⟨rfl, fun world hworld => ⟨rfl, ?_⟩⟩ ?_
  · exact hkept (addsRows_heartbeat honly) world hworld
  · refine List.rel_append (List.rel_append ?_ ?_) ?_
    · exact .cons ⟨rfl, hgated _ _ _ _⟩ (.cons ⟨rfl, hgated _ _ _ _⟩
        (.cons ⟨rfl, hgated _ _ _ _⟩ .nil))
    · refine List.forall₂_same.mpr fun task htask => ⟨rfl, fun world hworld => ⟨rfl, ?_⟩⟩
      exact hkept (addsRows_observerTask honly hconfig htask) world hworld
    · refine List.forall₂_same.mpr fun task htask => ⟨rfl, fun world hworld => ⟨rfl, ?_⟩⟩
      refine hkept ?_ world hworld
      unfold healthMonitorTasks at htask
      split at htask
      · rw [List.mem_singleton.mp htask]
        exact addsRows_monitorHealth honly
      · cases htask

variable [LT τ] [DecidableLT τ] [Add τ]

/-- A daemon that starts with its throttle on does what it does with any other
dreamer, for as long as it runs, if nothing but rows is added to the store. The
throttle is asked before each of these tasks, and more rows never turn it off. -/
theorem main_of_throttled (hby : setup.ThrottledBy files validate injected fault)
    (honly : setup.OnlyAdds files) {world : DaemonWorld ω}
    (h : CostThrottle.evaluate validate exactly injected (files world.project) = .ok decided)
    (hthrottled : decided.throttled = true) (digest decay reingest : Effect ω ε TaskSummary)
    (process : DaemonProcess) (ticks : List (SchedulerTick τ)) :
    (DaemonSetup.main { setup with digest, decay, reingest } process ticks).exec world =
      (setup.main process ticks).exec world := by
  let other : DaemonSetup τ ω ε := { setup with digest, decay, reingest }
  let start := setup.startWorld process world
  have hstart : Adds files world.project start.project := honly.utcNow world.project
  have htripped (project : ω) (hadds : Adds files start.project project) : setup.Tripped project :=
    tripped_of_adds hby h hthrottled (hstart.trans hadds)
  have hlife : ((other.buildScheduledTasks start.project).map fun tasks =>
      (other.serve tasks ticks start).2.world) =
        (setup.buildScheduledTasks start.project).map fun tasks =>
          (setup.serve tasks ticks start).2.world := by
    unfold buildScheduledTasks
    change (setup.observer start.project >>= fun config => _ >>= fun enabled => _).map _ = _
    cases hconfig : setup.observer start.project with
    | error error => rfl
    | ok config =>
        cases setup.healthMonitorEnabled start.project with
        | error error => rfl
        | ok enabled =>
            have halike := alike_of_tripped honly htripped hconfig enabled digest decay reingest
            have hsame : other.serve _ ticks start = setup.serve _ ticks start :=
              TaskRunner.runForever_congr halike ticks (Adds.refl start.project)
            exact congrArg (fun life => Except.ok (Prod.snd life).world) hsame
  have hbegins : other.startWorld process world = start := rfl
  change (other.main process ticks).exec world = _
  rw [exec_main, hbegins, hlife, exec_main]
  rfl

end Tripped

/-- A store to which every reading of the clock adds a spawn of one dollar. -/
def growing (count : Nat) : SpendFiles :=
  ⟨"config.yaml", .unreadable, .rows (List.replicate count (CostThrottle.completedSpawn 1))⟩

/-- A daemon with a cap of one dollar. -/
def capped : DaemonSetup Int Nat String :=
  { withoutModel with
    evaluate := fun count => (CostThrottle.evaluate .ok exactly (.float (.finite 1))
      (growing count)).mapError fun _ => "no spend" }

theorem onlyAdds_capped : capped.OnlyAdds growing := by
  have hreading (count : Nat) : Adds growing count (count + 1) :=
    ⟨[CostThrottle.completedSpawn 1], by
      simp [growing, SpendFiles.append, List.replicate_succ']⟩
  refine ⟨hreading, hreading, ?_, hreading, hreading, nofun⟩
  intro start config hconfig run hrun project
  obtain rfl := Except.ok.inj hconfig
  simp only [ObserverSetup.runs, List.mem_cons, List.not_mem_nil, or_false] at hrun
  rcases hrun with rfl | rfl | rfl | rfl <;> exact .refl project

/-- Once a dollar is spent, it makes no difference that the digest fails. -/
theorem main_of_throttled_capped :
    (DaemonSetup.main { capped with digest := pure none, decay := pure none, reingest := pure none }
        ⟨"daemon-1", 1, "/project"⟩ [⟨0, false, false⟩, ⟨90000, false, false⟩]).exec ⟨none, 1⟩ =
      (capped.main ⟨"daemon-1", 1, "/project"⟩
        [⟨0, false, false⟩, ⟨90000, false, false⟩]).exec ⟨none, 1⟩ := by
  have hdecided : (CostThrottle.evaluate .ok exactly (.float (.finite 1)) (growing 1)).map
      ThrottleDecision.throttled = .ok true := by decide +kernel
  cases h : CostThrottle.evaluate .ok exactly (.float (.finite 1)) (growing 1) with
  | error error => simp [h, Except.map] at hdecided
  | ok decided =>
      rw [h] at hdecided
      exact main_of_throttled (fun _ => rfl) onlyAdds_capped h (Except.ok.inj hdecided) _ _ _ _ _

end DaemonSetup

end ForgeOS
