import ForgeOS.Library.Dict
import ForgeOS.Library.Effect
import Mathlib.Algebra.Order.Group.Int
import Mathlib.Data.List.Induction

/-!
`TaskRunner`, the daemon's interval scheduler. Tasks and callbacks are foreign
code: each acts on a world of its own and returns or raises an `Exception`.
Readings and intervals are of any type with a comparison and an addition, of
which no law is needed: the sums of floats are rounded.
-/

namespace ForgeOS

open Library

variable {τ σ ε ρ : Type}

/-- A named callable run every `intervalSeconds`. -/
structure ScheduledTask (τ σ ε ρ : Type) where
  name : String
  intervalSeconds : τ
  run : Effect σ ε ρ

/-- The name and the interval, which is what the scheduling goes by. -/
def ScheduledTask.timing (task : ScheduledTask τ σ ε ρ) : String × τ :=
  (task.name, task.intervalSeconds)

structure TaskRunner (τ σ ε ρ : Type) where
  tasks : List (ScheduledTask τ σ ε ρ)
  onResult : Option (String → ρ → Effect σ ε Unit) := none
  onError : Option (String → ε → Effect σ ε Unit) := none

/-- `_next_due`, and what the tasks and the callbacks act on. -/
structure SchedulerState (τ σ : Type) where
  nextDue : Dict String τ
  world : σ

/-- A `run_pending` call: the reading it goes by and the names it returns. -/
structure PendingCall (τ : Type) where
  reading : τ
  ran : List String

/-- A turn of `run_forever`: the reading of its call, and whether the stop event
is found set before the call and after it. -/
structure SchedulerTick (τ : Type) where
  reading : τ
  stopped : Bool
  stoppedMeanwhile : Bool

namespace TaskRunner

/-- `_notify_result`: a raising callback is logged. -/
def notifyResult (runner : TaskRunner τ σ ε ρ) (name : String) (result : ρ) (world : σ) : σ :=
  match runner.onResult with
  | none => world
  | some callback => ((callback name result).exec world).2

def notifyError (runner : TaskRunner τ σ ε ρ) (name : String) (error : ε) (world : σ) : σ :=
  match runner.onError with
  | none => world
  | some callback => ((callback name error).exec world).2

/-- One execution of a task, and the callback it leads to. -/
def execute (runner : TaskRunner τ σ ε ρ) (world : σ) (task : ScheduledTask τ σ ε ρ) : σ :=
  match task.run.exec world with
  | (.ok result, after) => runner.notifyResult task.name result after
  | (.error error, after) => runner.notifyError task.name error after

section Loop

variable [LT τ] [DecidableLT τ]

/-- The guard of the loop: no recorded due time, or one that has come. -/
def isDue (nextDue : Dict String τ) (current : τ) (name : String) : Bool :=
  match nextDue.get? name with
  | none => true
  | some dueAt => !decide (current < dueAt)

variable [Add τ]

/-- One turn of the loop of `run_pending`. -/
def visit (runner : TaskRunner τ σ ε ρ) (current : τ) (acc : List String × SchedulerState τ σ)
    (task : ScheduledTask τ σ ε ρ) : List String × SchedulerState τ σ :=
  if isDue acc.2.nextDue current task.name then
    (acc.1 ++ [task.name],
      { nextDue := acc.2.nextDue.set task.name (current + task.intervalSeconds)
        world := runner.execute acc.2.world task })
  else acc

/-- Run every due task and return the names that ran. -/
def runPending (runner : TaskRunner τ σ ε ρ) (current : τ) (s : SchedulerState τ σ) :
    List String × SchedulerState τ σ :=
  runner.tasks.foldl (runner.visit current) ([], s)

/-- A call, entered in the log of calls. -/
def call (runner : TaskRunner τ σ ε ρ) (before : List (PendingCall τ) × SchedulerState τ σ)
    (current : τ) : List (PendingCall τ) × SchedulerState τ σ :=
  let (ran, after) := runner.runPending current before.2
  (before.1 ++ [⟨current, ran⟩], after)

/-- A new runner in some world. -/
def start (world : σ) : List (PendingCall τ) × SchedulerState τ σ := ([], ⟨[], world⟩)

/-- The `run_pending` calls at these readings, the first of them on a new runner. -/
def calls (runner : TaskRunner τ σ ε ρ) (world : σ) (readings : List τ) :
    List (PendingCall τ) × SchedulerState τ σ :=
  run runner.call (start world) readings

/-- Run pending tasks every tick until the stop event is set, or for the ticks
given. -/
def runForever (runner : TaskRunner τ σ ε ρ) :
    List (SchedulerTick τ) → List (PendingCall τ) × SchedulerState τ σ →
      List (PendingCall τ) × SchedulerState τ σ
  | [], s => s
  | tick :: rest, s =>
      if tick.stopped then s
      else if tick.stoppedMeanwhile then runner.call s tick.reading
      else runner.runForever rest (runner.call s tick.reading)

end Loop

end TaskRunner

/-- The reading of the last call in which a task was executed. -/
def lastExecution (log : List (PendingCall τ)) (name : String) : Option τ :=
  (log.reverse.find? fun pending => name ∈ pending.ran).map PendingCall.reading

theorem lastExecution_snoc (log : List (PendingCall τ)) (pending : PendingCall τ)
    (name : String) :
    lastExecution (log ++ [pending]) name =
      if name ∈ pending.ran then some pending.reading else lastExecution log name := by
  unfold lastExecution
  rw [List.reverse_append, List.reverse_singleton, List.singleton_append, List.find?_cons]
  by_cases hran : name ∈ pending.ran
  · simp [hran]
  · simp [hran]

theorem lastExecution_eq_none_iff (log : List (PendingCall τ)) (name : String) :
    lastExecution log name = none ↔ ∀ pending ∈ log, name ∉ pending.ran := by
  simp [lastExecution]

namespace TaskRunner

/-! ### One call -/

section Calls

variable [LT τ] [DecidableLT τ] [Add τ]

def dueTasks (runner : TaskRunner τ σ ε ρ) (current : τ) (nextDue : Dict String τ) :
    List (ScheduledTask τ σ ε ρ) :=
  runner.tasks.filter fun task => isDue nextDue current task.name

omit [Add τ] in
theorem isDue_set (nextDue : Dict String τ) (current due : τ) {name other : String}
    (h : name ≠ other) :
    isDue (nextDue.set name due) current other = isDue nextDue current other := by
  unfold isDue
  rw [Dict.get?_set, if_neg h]

/-- What the loop does with tasks of different names: it executes those that
are due at its start, each once and in their order. -/
theorem foldl_visit (runner : TaskRunner τ σ ε ρ) (current : τ)
    (tasks : List (ScheduledTask τ σ ε ρ)) (hnames : (tasks.map ScheduledTask.name).Nodup)
    (acc : List String × SchedulerState τ σ) :
    tasks.foldl (runner.visit current) acc =
      let due := tasks.filter fun task => isDue acc.2.nextDue current task.name
      (acc.1 ++ due.map ScheduledTask.name,
        { nextDue := acc.2.nextDue.update
            (due.map fun task => (task.name, current + task.intervalSeconds))
          world := due.foldl runner.execute acc.2.world }) := by
  induction tasks generalizing acc with
  | nil => simp [Dict.update]
  | cons task rest ih =>
      rw [List.map_cons, List.nodup_cons] at hnames
      rw [List.foldl_cons, ih hnames.2]
      by_cases hdue : isDue acc.2.nextDue current task.name = true
      · have hsame : rest.filter (fun other => isDue
              (acc.2.nextDue.set task.name (current + task.intervalSeconds)) current other.name) =
            rest.filter fun other => isDue acc.2.nextDue current other.name := by
          apply List.filter_congr
          intro other hother
          apply isDue_set
          intro hname
          exact hnames.1 (hname ▸ List.mem_map_of_mem hother)
        simp [visit, hdue, hsame, Dict.update]
      · simp [visit, hdue]

theorem runPending_eq {runner : TaskRunner τ σ ε ρ}
    (hnames : (runner.tasks.map ScheduledTask.name).Nodup) (current : τ)
    (s : SchedulerState τ σ) :
    runner.runPending current s =
      ((runner.dueTasks current s.nextDue).map ScheduledTask.name,
        { nextDue := s.nextDue.update ((runner.dueTasks current s.nextDue).map fun task =>
            (task.name, current + task.intervalSeconds))
          world := (runner.dueTasks current s.nextDue).foldl runner.execute s.world }) := by
  rw [runPending, foldl_visit runner current runner.tasks hnames]
  rfl

/-- The names and intervals of the tasks that are due. -/
def dueTimings (runner : TaskRunner τ σ ε ρ) (current : τ) (nextDue : Dict String τ) :
    List (String × τ) :=
  (runner.tasks.map ScheduledTask.timing).filter fun timing => isDue nextDue current timing.1

omit [Add τ] in
theorem dueTimings_eq (runner : TaskRunner τ σ ε ρ) (current : τ) (nextDue : Dict String τ) :
    runner.dueTimings current nextDue =
      (runner.dueTasks current nextDue).map ScheduledTask.timing := by
  unfold dueTimings dueTasks
  rw [List.filter_map]
  rfl

/-- What is run and when it is next due goes by the names and intervals alone. -/
theorem runPending_of_timings {runner : TaskRunner τ σ ε ρ}
    (hnames : (runner.tasks.map ScheduledTask.name).Nodup) (current : τ)
    (s : SchedulerState τ σ) :
    (runner.runPending current s).1 = (runner.dueTimings current s.nextDue).map Prod.fst ∧
      (runner.runPending current s).2.nextDue = s.nextDue.update
        ((runner.dueTimings current s.nextDue).map fun timing =>
          (timing.1, current + timing.2)) := by
  rw [runPending_eq hnames, dueTimings_eq, List.map_map, List.map_map]
  exact ⟨rfl, rfl⟩

theorem mem_ran_iff {runner : TaskRunner τ σ ε ρ}
    (hnames : (runner.tasks.map ScheduledTask.name).Nodup) (current : τ)
    (s : SchedulerState τ σ) {task : ScheduledTask τ σ ε ρ} (htask : task ∈ runner.tasks) :
    task.name ∈ (runner.runPending current s).1 ↔
      isDue s.nextDue current task.name = true := by
  rw [runPending_eq hnames, List.mem_map]
  constructor
  · rintro ⟨other, hother, hname⟩
    rw [← hname]
    exact (List.mem_filter.mp hother).2
  · intro hdue
    exact ⟨task, List.mem_filter.mpr ⟨htask, hdue⟩, rfl⟩

/-- Every execution of a call is one of a due task, in the order of the list. -/
theorem runPending_world {runner : TaskRunner τ σ ε ρ}
    (hnames : (runner.tasks.map ScheduledTask.name).Nodup) (current : τ)
    (s : SchedulerState τ σ) :
    (runner.runPending current s).2.world =
      (runner.tasks.filter fun task => task.name ∈ (runner.runPending current s).1).foldl
        runner.execute s.world := by
  have hran : (runner.tasks.filter fun task => task.name ∈ (runner.runPending current s).1) =
      runner.dueTasks current s.nextDue := by
    apply List.filter_congr
    intro task htask
    rw [Bool.eq_iff_iff, decide_eq_true_iff]
    exact mem_ran_iff hnames current s htask
  rw [hran, runPending_eq hnames]

/-- After a call a task that ran is due an interval later, and any other when
it was. -/
theorem nextDue_runPending {runner : TaskRunner τ σ ε ρ}
    (hnames : (runner.tasks.map ScheduledTask.name).Nodup) (current : τ)
    (s : SchedulerState τ σ) {task : ScheduledTask τ σ ε ρ} (htask : task ∈ runner.tasks) :
    (runner.runPending current s).2.nextDue.get? task.name =
      if task.name ∈ (runner.runPending current s).1 then some (current + task.intervalSeconds)
      else s.nextDue.get? task.name := by
  have hkeys : (((runner.dueTasks current s.nextDue).map fun task =>
      (task.name, current + task.intervalSeconds)).map Prod.fst).Nodup := by
    rw [List.map_map]
    exact (List.filter_sublist.map _).nodup hnames
  have hentry := mem_ran_iff hnames current s htask
  rw [runPending_eq hnames] at hentry ⊢
  dsimp only at hentry ⊢
  rw [Dict.get?_update hkeys]
  by_cases hdue : isDue s.nextDue current task.name = true
  · have hmem : task ∈ runner.dueTasks current s.nextDue := List.mem_filter.mpr ⟨htask, hdue⟩
    rw [if_pos (hentry.mpr hdue), Dict.get?_of_mem hkeys (List.mem_map_of_mem hmem),
      Option.some_or]
  · have hran := mt hentry.mp hdue
    rw [if_neg hran, Dict.get?_eq_none (by rwa [List.map_map]), Option.none_or]

/-! ### A run of calls -/

@[simp]
theorem calls_nil (runner : TaskRunner τ σ ε ρ) (world : σ) :
    runner.calls world [] = start world := rfl

theorem calls_snoc (runner : TaskRunner τ σ ε ρ) (world : σ) (readings : List τ) (current : τ) :
    runner.calls world (readings ++ [current]) =
      ((runner.calls world readings).1 ++
          [⟨current, (runner.runPending current (runner.calls world readings).2).1⟩],
        (runner.runPending current (runner.calls world readings).2).2) := by
  rw [calls, run_snoc]
  rfl

/-- What `run_forever` does is a run of calls, up to the tick that stops it. -/
theorem runForever_eq (runner : TaskRunner τ σ ε ρ) (ticks : List (SchedulerTick τ))
    (s : List (PendingCall τ) × SchedulerState τ σ) :
    ∃ turns, runner.runForever ticks s =
      run runner.call s ((ticks.take turns).map SchedulerTick.reading) := by
  induction ticks generalizing s with
  | nil => exact ⟨0, rfl⟩
  | cons tick rest ih =>
      unfold runForever
      split
      · exact ⟨0, rfl⟩
      · split
        · exact ⟨1, rfl⟩
        · obtain ⟨turns, hrest⟩ := ih (runner.call s tick.reading)
          exact ⟨turns + 1, hrest⟩

theorem nextDue_calls {runner : TaskRunner τ σ ε ρ}
    (hnames : (runner.tasks.map ScheduledTask.name).Nodup) (world : σ) (readings : List τ)
    {task : ScheduledTask τ σ ε ρ} (htask : task ∈ runner.tasks) :
    (runner.calls world readings).2.nextDue.get? task.name =
      (lastExecution (runner.calls world readings).1 task.name).map
        (· + task.intervalSeconds) := by
  induction readings using List.reverseRecOn with
  | nil => rfl
  | append_singleton readings current ih =>
      rw [calls_snoc, lastExecution_snoc, nextDue_runPending hnames current _ htask, ih]
      split
      · rfl
      · rfl

/-- Runners of the same names and intervals run and schedule alike, whatever
their tasks and callbacks do. -/
theorem calls_of_timings {σ' ε' ρ' : Type} {runner : TaskRunner τ σ ε ρ}
    (hnames : (runner.tasks.map ScheduledTask.name).Nodup) {other : TaskRunner τ σ' ε' ρ'}
    (htimings : other.tasks.map ScheduledTask.timing = runner.tasks.map ScheduledTask.timing)
    (world : σ) (world' : σ') (readings : List τ) :
    (other.calls world' readings).1 = (runner.calls world readings).1 ∧
      (other.calls world' readings).2.nextDue = (runner.calls world readings).2.nextDue := by
  have hnames' : (other.tasks.map ScheduledTask.name).Nodup := by
    have hsame := congrArg (List.map Prod.fst) htimings
    rw [List.map_map, List.map_map] at hsame
    change (other.tasks.map (Prod.fst ∘ ScheduledTask.timing)).Nodup
    rw [hsame]
    exact hnames
  induction readings using List.reverseRecOn with
  | nil => exact ⟨rfl, rfl⟩
  | append_singleton readings current ih =>
      obtain ⟨hlog, hdue⟩ := ih
      have hran := runPending_of_timings hnames current (runner.calls world readings).2
      have hran' := runPending_of_timings hnames' current (other.calls world' readings).2
      have hsame : other.dueTimings current (other.calls world' readings).2.nextDue =
          runner.dueTimings current (runner.calls world readings).2.nextDue := by
        rw [dueTimings, htimings, hdue]
        rfl
      rw [calls_snoc, calls_snoc]
      constructor
      · rw [hran.1, hran'.1, hsame, hlog]
      · rw [hran.2, hran'.2, hsame, hdue]

end Calls

/-- The executions of the calls, in their order. -/
def executed (runner : TaskRunner τ σ ε ρ) (log : List (PendingCall τ)) :
    List (ScheduledTask τ σ ε ρ) :=
  log.flatMap fun pending => runner.tasks.filter fun task => task.name ∈ pending.ran

section Lives

variable [LT τ] [DecidableLT τ] [Add τ] {runner : TaskRunner τ σ ε ρ}

/-- The world is what the executions have made of it. -/
theorem calls_world (hnames : (runner.tasks.map ScheduledTask.name).Nodup) (world : σ)
    (readings : List τ) :
    (runner.calls world readings).2.world =
      run runner.execute world (runner.executed (runner.calls world readings).1) := by
  induction readings using List.reverseRecOn with
  | nil => rfl
  | append_singleton readings current ih =>
      have hcall := runPending_world hnames current (runner.calls world readings).2
      have hlog (log : List (PendingCall τ)) (pending : PendingCall τ) :
          runner.executed (log ++ [pending]) = runner.executed log ++
            runner.tasks.filter fun task => task.name ∈ pending.ran := by
        rw [executed, List.flatMap_append, List.flatMap_singleton]
        rfl
      rw [calls_snoc, hlog, run_append, ← ih]
      exact hcall

theorem runForever_world (hnames : (runner.tasks.map ScheduledTask.name).Nodup) (world : σ)
    (ticks : List (SchedulerTick τ)) :
    (runner.runForever ticks (start world)).2.world =
      run runner.execute world (runner.executed (runner.runForever ticks (start world)).1) := by
  obtain ⟨turns, hturns⟩ := runner.runForever_eq ticks (start world)
  rw [hturns]
  exact calls_world hnames world _

omit [LT τ] [DecidableLT τ] [Add τ] in
theorem countP_executed (hnames : (runner.tasks.map ScheduledTask.name).Nodup)
    (log : List (PendingCall τ)) {task : ScheduledTask τ σ ε ρ} (htask : task ∈ runner.tasks) :
    (runner.executed log).countP (fun other => other.name = task.name) =
      log.countP fun pending => task.name ∈ pending.ran := by
  have honce : runner.tasks.countP (fun other => other.name = task.name) = 1 := by
    have hcount : (runner.tasks.map ScheduledTask.name).count task.name = 1 :=
      (List.Nodup.count hnames).trans (if_pos (List.mem_map_of_mem htask))
    rw [List.count, List.countP_map] at hcount
    rw [← hcount]
    exact List.countP_congr fun other _ => by simp
  induction log with
  | nil => rfl
  | cons pending rest ih =>
      have hfirst : (runner.tasks.filter fun task => task.name ∈ pending.ran).countP
          (fun other => other.name = task.name) = if task.name ∈ pending.ran then 1 else 0 := by
        rw [List.countP_filter]
        split
        · rw [← honce]
          refine List.countP_congr fun other _ => ?_
          simp only [Bool.and_eq_true, decide_eq_true_eq, and_iff_left_iff_imp]
          rintro hname
          rwa [hname]
        · rw [List.countP_eq_zero]
          intro other _
          simp only [Bool.and_eq_true, decide_eq_true_eq, not_and]
          rintro hname
          rwa [hname]
      rw [executed, List.flatMap_cons, List.countP_append, hfirst, List.countP_cons]
      change _ + (runner.executed rest).countP _ = _
      rw [ih, Nat.add_comm]
      simp only [decide_eq_true_eq]

/-- Tasks are scheduled alike, and wherever an invariant holds they are
executed alike and keep it. -/
def Alike (I : σ → Prop) (runner other : TaskRunner τ σ ε ρ) : Prop :=
  List.Forall₂ (fun task task' => task'.timing = task.timing ∧ ∀ world, I world →
    other.execute world task' = runner.execute world task ∧ I (runner.execute world task))
    runner.tasks other.tasks

theorem runPending_congr {I : σ → Prop} {other : TaskRunner τ σ ε ρ} (h : Alike I runner other)
    (current : τ) {s : SchedulerState τ σ} (hs : I s.world) :
    other.runPending current s = runner.runPending current s ∧
      I (runner.runPending current s).2.world := by
  unfold runPending
  unfold Alike at h
  generalize ([] : List String) = ran
  generalize runner.tasks = tasks, other.tasks = tasks' at h
  induction h generalizing ran s with
  | nil => exact ⟨rfl, hs⟩
  | @cons task task' rest rest' hfirst _ ih =>
      have hname : task'.name = task.name := congrArg Prod.fst hfirst.1
      have hinterval : task'.intervalSeconds = task.intervalSeconds := congrArg Prod.snd hfirst.1
      obtain ⟨hexecuted, hkept⟩ := hfirst.2 s.world hs
      rw [List.foldl_cons, List.foldl_cons, visit, visit, hname, hinterval, hexecuted]
      dsimp only
      split
      · exact ih hkept _
      · exact ih hs _

/-- Runners that execute alike wherever an invariant holds live the same lives
from there. -/
theorem runForever_congr {I : σ → Prop} {other : TaskRunner τ σ ε ρ} (h : Alike I runner other)
    (ticks : List (SchedulerTick τ)) {s : List (PendingCall τ) × SchedulerState τ σ}
    (hs : I s.2.world) : other.runForever ticks s = runner.runForever ticks s := by
  induction ticks generalizing s with
  | nil => rfl
  | cons tick rest ih =>
      obtain ⟨hpending, hkept⟩ := runPending_congr h tick.reading hs
      have hcall : other.call s tick.reading = runner.call s tick.reading := by
        rw [call, call, hpending]
      rw [runForever, runForever, hcall]
      split
      · rfl
      · split
        · rfl
        · exact ih hkept

end Lives

/-- A due time that is recorded has come just if the reading is not below it. -/
theorem isDue_iff [LinearOrder τ] (nextDue : Dict String τ) (current : τ) (name : String) :
    isDue nextDue current name = true ↔ nextDue.get? name = none ∨
      ∃ dueAt, nextDue.get? name = some dueAt ∧ dueAt ≤ current := by
  unfold isDue
  cases nextDue.get? name with
  | none => simp
  | some dueAt => simp

/-- At every call the tasks executed are those never executed before and those
whose interval has passed since, each once and in the order of the list. What
the tasks and the callbacks do, raising included, has no say in it, nor in when
any task is next due. -/
theorem executed_iff_due [LinearOrder τ] [Add τ] (runner : TaskRunner τ σ ε ρ)
    (hnames : (runner.tasks.map ScheduledTask.name).Nodup) (world : σ) (readings : List τ)
    (current : τ) :
    let before := runner.calls world readings
    let ran := (runner.runPending current before.2).1
    let after := (runner.runPending current before.2).2
    (∀ task ∈ runner.tasks, task.name ∈ ran ↔ lastExecution before.1 task.name = none ∨
      ∃ last, lastExecution before.1 task.name = some last ∧
        last + task.intervalSeconds ≤ current) ∧
    after.world = (runner.tasks.filter fun task => task.name ∈ ran).foldl runner.execute
      before.2.world ∧
    ∀ {σ' ε' ρ' : Type} (other : TaskRunner τ σ' ε' ρ') (world' : σ'),
      other.tasks.map ScheduledTask.timing = runner.tasks.map ScheduledTask.timing →
      (other.runPending current (other.calls world' readings).2).1 = ran ∧
        (other.runPending current (other.calls world' readings).2).2.nextDue = after.nextDue := by
  intro before ran after
  refine ⟨?_, runPending_world hnames current before.2, ?_⟩
  · intro task htask
    rw [mem_ran_iff hnames current before.2 htask, isDue_iff,
      nextDue_calls hnames world readings htask]
    simp [before]
  · intro σ' ε' ρ' other world' htimings
    have hcalls := calls_of_timings hnames htimings world world' (readings ++ [current])
    rw [calls_snoc, calls_snoc] at hcalls
    have hlog := List.append_inj_right' hcalls.1 rfl
    exact ⟨congrArg PendingCall.ran (List.cons.inj hlog).1, hcalls.2⟩

/-- Two tasks of which the first raises each time, and callbacks that raise. -/
def failing : TaskRunner Int (List String) String Unit where
  tasks := [
    { name := "dream", intervalSeconds := 10, run := throw "no model" },
    { name := "observe", intervalSeconds := 5, run := modify (· ++ ["observed"]) }]
  onResult := some fun _ _ => throw "no listener"
  onError := some fun _ _ => throw "no listener"

/-- Both tasks run at 3 though the first raises. On a clock set back to 0
neither is due; the second is again at 8. -/
theorem executed_iff_due_failing :
    (failing.calls [] [3, 0]).1.map PendingCall.ran = [["dream", "observe"], []] ∧
      ("observe" ∈ (failing.runPending 8 (failing.calls [] [3, 0]).2).1 ↔
        lastExecution (failing.calls [] [3, 0]).1 "observe" = none ∨
          ∃ last, lastExecution (failing.calls [] [3, 0]).1 "observe" = some last ∧
            last + 5 ≤ 8) := by
  refine ⟨by decide, ?_⟩
  have hlaw := executed_iff_due failing (by decide) [] [3, 0] 8
  exact hlaw.1 { name := "observe", intervalSeconds := 5, run := modify (· ++ ["observed"]) }
    (by simp [failing])

end TaskRunner

end ForgeOS
