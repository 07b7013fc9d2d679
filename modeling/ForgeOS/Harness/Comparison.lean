import ForgeOS.Harness.Recorder
import ForgeOS.Library.Folds
import ForgeOS.Library.Statistics
import ForgeOS.Library.Trim

/-!
The comparison of kernels: every kernel runs every task so many times, the runs
are summed up for each kernel and task, and the outputs of the kernels for a
task are compared with each other.
-/

namespace ForgeOS

open Library

/-- What the comparison takes from Python's library. -/
structure HarnessHost (κ : Type) where
  /-- `json.loads`, if it returns. -/
  loads : String → Option Json
  /-- `str.lower` -/
  lower : String → String
  /-- `SequenceMatcher(None, a, b).ratio()` -/
  ratio : String → String → κ
  /-- `statistics.stdev` -/
  stdev : List κ → κ

structure MetricStats (κ : Type) where
  mean : Option κ := none
  median : Option κ := none
  stdev : Option κ := none
  min : Option κ := none
  max : Option κ := none
  n : Nat := 0

structure KernelTaskSummary (κ : Type) where
  kernelId : String
  taskId : String
  runs : Nat
  successes : Nat
  successRate : κ
  statuses : Dict RunStatus Nat
  wallClock : MetricStats κ
  timeToFirstToken : MetricStats κ
  timeToCompletion : MetricStats κ
  toolLoopOverhead : MetricStats κ
  numProposals : MetricStats κ
  textChars : MetricStats κ
  thinkingChars : MetricStats κ
  outputTokens : MetricStats κ
  errors : List String

structure DriftReport (κ : Type) where
  taskId : String
  outputs : Dict String String
  similarity : Dict String (Dict String κ)
  minPairwise : Option κ
  highDriftPairs : List (String × String × κ)
  jsonConformant : Dict String Bool
  missingRequired : Dict String (List String)
  expectedHits : Dict String (List String)

structure ComparisonReport (κ : Type) where
  summaries : Dict String (Dict String (KernelTaskSummary κ)) := []
  drift : Dict String (DriftReport κ) := []
  rawRuns : List (RunResult κ) := []

def RunResult.ok {κ : Type} (result : RunResult κ) : Bool := result.status = .completed

section Comparison

variable {κ : Type} [Field κ] [LinearOrder κ] (host : HarnessHost κ)

/-! ### Aggregation across repeats -/

/-- `_stats` -/
def metricStats (values : List (Option κ)) : MetricStats κ :=
  let vals := values.filterMap id
  if vals = [] then {}
  else {
    mean := some (Library.mean vals)
    median := some (Library.median vals)
    stdev := some (if 1 < vals.length then host.stdev vals else 0)
    min := vals.min?
    max := vals.max?
    n := vals.length }

def summarize (kernelId taskId : String) (runs : List (RunResult κ)) : KernelTaskSummary κ :=
  let ok := runs.filter RunResult.ok
  { kernelId
    taskId
    runs := runs.length
    successes := runs.countP RunResult.ok
    successRate := if runs = [] then 0 else (runs.countP RunResult.ok : κ) / runs.length
    statuses := runs.foldl (fun statuses run =>
      statuses.set run.status ((statuses.get? run.status).getD 0 + 1)) []
    wallClock := metricStats host (ok.map fun run => some run.wallClock)
    timeToFirstToken := metricStats host (ok.map RunResult.timeToFirstToken)
    timeToCompletion := metricStats host (ok.map RunResult.timeToCompletion)
    toolLoopOverhead := metricStats host (ok.map fun run => some run.toolLoopOverhead)
    numProposals := metricStats host (ok.map fun run => some (run.numProposals : κ))
    textChars := metricStats host (ok.map fun run => some (run.textChars : κ))
    thinkingChars := metricStats host (ok.map fun run => some (run.thinkingChars : κ))
    outputTokens := metricStats host (ok.map fun run => run.reportedOutputTokens.map Int.cast)
    errors := (runs.filterMap RunResult.error).filter (· ≠ "") }

/-! ### Output drift -/

/-- `sim[a][b] = score` -/
def assign (sim : Dict String (Dict String κ)) (a b : String) (score : κ) :
    Dict String (Dict String κ) :=
  sim.set a (((sim.get? a).getD []).set b score)

def pairScores : Dict String String → List (String × String × κ)
  | [] => []
  | (a, output) :: rest =>
      (rest.map fun other => (a, other.1, host.ratio output other.2)) ++ pairScores rest

/-- The loops that fill the table of similarities. -/
def fillSimilarity (sim : Dict String (Dict String κ)) :
    Dict String String → Dict String (Dict String κ)
  | [] => sim
  | (a, output) :: rest =>
      let filled := rest.foldl (fun sim other =>
        assign (assign sim a other.1 (host.ratio output other.2)) other.1 a
          (host.ratio output other.2)) sim
      fillSimilarity (assign filled a a 1) rest

/-- `text.strip("`")` -/
def stripFence (text : String) : String :=
  String.ofList
    (((text.toList.dropWhile (· = '\x60')).reverse.dropWhile (· = '\x60')).reverse)

def tryJson (text : String) : Option JsonObject :=
  let text := pyStrip text
  let text :=
    if "\x60\x60\x60".toList <+: text.toList then
      let text := stripFence text
      if "json".toList <+: (host.lower text).toList then String.ofList (text.toList.drop 4)
      else text
    else text
  match host.loads text with
  | some (.obj entries) => some entries
  | _ => none

/-- The fields that the output contract of a persona requires. -/
def requiredFields (contract : JsonObject) : List String :=
  if (contract.get? "type").bind Json.str? = some "object" then
    match contract.get? "required" with
    | some (.arr items) => items.filterMap Json.str?
    | _ => []
  else []

def computeDrift (task : BenchTask) (firstSuccess : Dict String (RunResult κ))
    (contract : JsonObject) (threshold : κ) : DriftReport κ :=
  let outputs : Dict String String := firstSuccess.map fun entry => (entry.1, entry.2.finalOutput)
  let scores := pairScores host outputs
  let required := requiredFields contract
  { taskId := task.taskId
    outputs
    similarity := fillSimilarity host (outputs.map fun entry => (entry.1, [])) outputs
    minPairwise := (scores.map fun pair => pair.2.2).min?
    highDriftPairs := (scores.filter fun pair => pair.2.2 < threshold).insertionSort
      fun a b => a.2.2 ≤ b.2.2
    jsonConformant := outputs.map fun entry => (entry.1, (tryJson host entry.2).isSome)
    missingRequired :=
      if required = [] then []
      else outputs.map fun entry => (entry.1,
        match tryJson host entry.2 with
        | some parsed => required.filter fun field => (parsed.get? field).isNone
        | none => required)
    expectedHits :=
      if task.expectedContains = [] then []
      else outputs.map fun entry => (entry.1, task.expectedContains.filter fun text =>
        (host.lower text).toList <:+: (host.lower entry.2).toList) }

/-! ### The orchestrator -/

/-- The loop over the repeats of a kernel: its runs, and the first of them that
succeeds. -/
def repeatRuns (run : Nat → RunResult κ) (kernel : String) (repeats : Nat)
    (firstSuccess : Dict String (RunResult κ)) :
    List (RunResult κ) × Dict String (RunResult κ) :=
  (List.range repeats).foldl (fun progress index =>
    let result := run index
    (progress.1 ++ [result],
      if result.ok ∧ (progress.2.get? kernel).isNone then progress.2.set kernel result
      else progress.2)) ([], firstSuccess)

/-- What the loop over the kernels leaves behind for a task. -/
structure TaskProgress (κ : Type) where
  rawRuns : List (RunResult κ) := []
  summaries : Dict String (KernelTaskSummary κ) := []
  firstSuccess : Dict String (RunResult κ) := []

/-- The loop over the kernels. -/
def runTask (run : BenchTask → String → Nat → RunResult κ) (kernels : List String)
    (repeats : Nat) (task : BenchTask) : TaskProgress κ :=
  kernels.foldl (fun progress kernel =>
    let (runs, firstSuccess) := repeatRuns (run task kernel) kernel repeats progress.firstSuccess
    { rawRuns := progress.rawRuns ++ runs
      summaries := progress.summaries.set kernel (summarize host kernel task.taskId runs)
      firstSuccess }) {}

/-- `compare`, where a run of a kernel comes to what `run_kernel_once` returns. -/
def compare (run : BenchTask → String → Nat → RunResult κ) (kernels : List String)
    (tasks : List BenchTask) (repeats : Nat) (contract : JsonObject) (threshold : κ) :
    ComparisonReport κ :=
  tasks.foldl (fun report task =>
    let progress := runTask host run kernels repeats task
    { summaries := report.summaries.set task.taskId progress.summaries
      drift :=
        if progress.firstSuccess = [] then report.drift
        else report.drift.set task.taskId
          (computeDrift host task progress.firstSuccess contract threshold)
      rawRuns := report.rawRuns ++ progress.rawRuns }) {}

/-- What the runs of a comparison take from their surroundings. Each run has a
clock of its own, and its own moment at which the time is up. -/
structure Contest (κ ω : Type) where
  kernelId : String → String
  spawn : String → BenchTask → Nat → AdapterGen ω
  clock : String → BenchTask → Nat → Nat → κ
  arrives : String → BenchTask → Nat → Nat → Bool
  judge : ProposalJudge
  str : Json → String
  timeout : String

/-- `run_kernel_once`, as `compare` calls it. -/
def Contest.run {ω : Type} (contest : Contest κ ω) (task : BenchTask) (kernel : String)
    (index : Nat) : RunResult κ :=
  let bench : BenchRun κ := {
    clock := contest.clock kernel task index
    arrives := contest.arrives kernel task index
    judge := contest.judge
    task
    str := contest.str }
  bench.runKernelOnce (contest.kernelId kernel) index contest.timeout
    (contest.spawn kernel task index)

/-- A line of the leaderboard: the kernel with the least median, where at least
two have runs that count. -/
def fastest (metric : KernelTaskSummary κ → MetricStats κ)
    (summaries : Dict String (KernelTaskSummary κ)) : Option (String × κ) :=
  let usable := summaries.filter fun entry => 0 < entry.2.wallClock.n
  if usable.length < 2 then none
  else firstLeast Prod.snd
    (usable.filterMap fun entry => (metric entry.2).median.map fun median => (entry.1, median))

/-! ### What the numbers say -/

/-- The statistics of some values: where there are any, the mean and the median
lie between the least and the greatest of them, and at most half of them lie on
either side of the median. -/
structure MetricStats.Describes (stats : MetricStats κ) (values : List κ) : Prop where
  n : stats.n = values.length
  none_of_nil : values = [] → stats.mean = none ∧ stats.median = none ∧ stats.min = none ∧
    stats.max = none
  between : values ≠ [] → ∃ mean median least greatest, stats.mean = some mean ∧
    stats.median = some median ∧ stats.min = some least ∧ stats.max = some greatest ∧
    least ∈ values ∧ greatest ∈ values ∧
    least ≤ mean ∧ mean ≤ greatest ∧ least ≤ median ∧ median ≤ greatest ∧
    (∀ value ∈ values, least ≤ value ∧ value ≤ greatest) ∧
    values.length ≤ 2 * values.countP (fun value => value ≤ median) ∧
    values.length ≤ 2 * values.countP fun value => median ≤ value

/-- What a summary has of some runs: every one is counted, and the metrics are
those of the successful ones. -/
structure KernelTaskSummary.Sums (summary : KernelTaskSummary κ) (runs : List (RunResult κ)) :
    Prop where
  counted : summary.runs = runs.length
  successes : summary.successes = runs.countP RunResult.ok
  successRate : summary.successRate * runs.length = runs.countP RunResult.ok
  statuses : ∀ status, (summary.statuses.get? status).getD 0 =
    runs.countP fun run => run.status = status
  wallClock : summary.wallClock.Describes
    ((runs.filter RunResult.ok).map RunResult.wallClock)
  timeToFirstToken : summary.timeToFirstToken.Describes
    ((runs.filter RunResult.ok).filterMap RunResult.timeToFirstToken)
  timeToCompletion : summary.timeToCompletion.Describes
    ((runs.filter RunResult.ok).filterMap RunResult.timeToCompletion)
  toolLoopOverhead : summary.toolLoopOverhead.Describes
    ((runs.filter RunResult.ok).map RunResult.toolLoopOverhead)
  numProposals : summary.numProposals.Describes
    ((runs.filter RunResult.ok).map fun run => (run.numProposals : κ))
  textChars : summary.textChars.Describes
    ((runs.filter RunResult.ok).map fun run => (run.textChars : κ))
  thinkingChars : summary.thinkingChars.Describes
    ((runs.filter RunResult.ok).map fun run => (run.thinkingChars : κ))
  outputTokens : summary.outputTokens.Describes
    ((runs.filter RunResult.ok).filterMap fun run => run.reportedOutputTokens.map Int.cast)

/-- `similarity[a][b]` -/
def lookup (sim : Dict String (Dict String κ)) (a b : String) : Option κ :=
  (sim.get? a).bind (·.get? b)

/-- What a drift report says of some outputs: the table is symmetric, has ones
on its diagonal and the score of each pair elsewhere, and the pairs that drift
are those below the threshold, the farthest apart first. -/
structure DriftReport.Compares (report : DriftReport κ) (outputs : Dict String String)
    (threshold : κ) : Prop where
  same : report.outputs = outputs
  diagonal : ∀ a ∈ outputs.map Prod.fst, lookup report.similarity a a = some 1
  scored : ∀ pair ∈ pairScores host outputs,
    lookup report.similarity pair.1 pair.2.1 = some pair.2.2 ∧
    lookup report.similarity pair.2.1 pair.1 = some pair.2.2
  paired : ∀ a ∈ outputs.map Prod.fst, ∀ b ∈ outputs.map Prod.fst, a ≠ b →
    ∃ score, (a, b, score) ∈ pairScores host outputs ∨ (b, a, score) ∈ pairScores host outputs
  least : ∀ least ∈ report.minPairwise, (∃ pair ∈ pairScores host outputs, pair.2.2 = least) ∧
    ∀ pair ∈ pairScores host outputs, least ≤ pair.2.2
  hasLeast : report.minPairwise.isSome = decide (2 ≤ outputs.length)
  drifting : report.highDriftPairs.Perm
    ((pairScores host outputs).filter fun pair => pair.2.2 < threshold)
  farthestFirst : report.highDriftPairs.Pairwise fun a b => a.2.2 ≤ b.2.2

variable {host}

section Statistics

variable [IsStrictOrderedRing κ]

variable (host) in
theorem metricStats_describes (values : List (Option κ)) :
    (metricStats host values).Describes (values.filterMap id) := by
  by_cases hnil : values.filterMap id = []
  · rw [metricStats, if_pos hnil]
    exact ⟨by rw [hnil]; rfl, fun _ => ⟨rfl, rfl, rfl, rfl⟩, fun h => absurd hnil h⟩
  · rw [metricStats, if_neg hnil]
    refine ⟨rfl, fun h => absurd h hnil, fun _ => ?_⟩
    obtain ⟨least, hleast⟩ := Option.isSome_iff_exists.mp (List.isSome_min?_of_ne_nil hnil)
    obtain ⟨greatest, hgreatest⟩ := Option.isSome_iff_exists.mp (List.isSome_max?_of_ne_nil hnil)
    obtain ⟨hleastmem, hleastle⟩ := List.min?_eq_some_iff.mp hleast
    obtain ⟨hgreatestmem, hgreatestle⟩ := List.max?_eq_some_iff.mp hgreatest
    exact ⟨_, _, least, greatest, rfl, rfl, hleast, hgreatest, hleastmem, hgreatestmem,
      le_mean hnil hleastle, mean_le hnil hgreatestle, le_median hnil hleastle,
      median_le hnil hgreatestle, fun value hvalue => ⟨hleastle value hvalue,
        hgreatestle value hvalue⟩, length_le_two_mul_countP_le _, length_le_two_mul_countP_ge _⟩

omit [Field κ] [LinearOrder κ] [IsStrictOrderedRing κ] in
theorem statuses_eq (runs : List (RunResult κ)) (status : RunStatus) :
    (((runs.foldl (fun statuses run =>
      statuses.set run.status ((statuses.get? run.status).getD 0 + 1)) [] :
        Dict RunStatus Nat).get? status).getD 0) = runs.countP fun run => run.status = status := by
  have hcount (counted : List (RunResult κ)) :
      counted.foldl (fun number _ => number + 1) 0 = counted.length := by
    induction counted using List.reverseRecOn with
    | nil => rfl
    | append_singleton before run ih =>
        rw [List.foldl_concat, ih, List.length_append, List.length_singleton]
  have hget := Buckets.get?_collect RunResult.status (fun number _ => number + 1) 0 runs status
  refine (congrArg (Option.getD · 0) hget).trans ?_
  split
  · rw [Option.getD_some, hcount, List.countP_eq_length_filter]
  · rename_i hnone
    rw [Option.getD_none]
    refine (List.countP_eq_zero.mpr fun run hrun hstatus => hnone ?_).symm
    exact List.mem_map.mpr ⟨run, hrun, of_decide_eq_true hstatus⟩

theorem summarize_sums (kernelId taskId : String) (runs : List (RunResult κ)) :
    (summarize host kernelId taskId runs).Sums runs := by
  have hplain (metric : RunResult κ → κ) : (metricStats host
      ((runs.filter RunResult.ok).map fun run => some (metric run))).Describes
      ((runs.filter RunResult.ok).map metric) := by
    have hdescribes := metricStats_describes host
      ((runs.filter RunResult.ok).map fun run => some (metric run))
    have hvalues : ((runs.filter RunResult.ok).map fun run => some (metric run)).filterMap id =
        (runs.filter RunResult.ok).map metric := by
      rw [List.filterMap_map, ← List.filterMap_eq_map]
      rfl
    rwa [hvalues] at hdescribes
  have hoptional (metric : RunResult κ → Option κ) : (metricStats host
      ((runs.filter RunResult.ok).map metric)).Describes
      ((runs.filter RunResult.ok).filterMap metric) := by
    have hdescribes := metricStats_describes host
      ((runs.filter RunResult.ok).map metric)
    rwa [List.filterMap_map] at hdescribes
  refine ⟨rfl, rfl, ?_, statuses_eq runs, hplain _, hoptional _, hoptional _, hplain _, hplain _,
    hplain _, hplain _, hoptional _⟩
  rw [summarize]
  dsimp only
  split
  · rename_i hnil
    rw [hnil]
    simp
  · rename_i hruns
    have hlength : (runs.length : κ) ≠ 0 :=
      Nat.cast_ne_zero.mpr (List.length_pos_iff.mpr hruns).ne'
    exact div_mul_cancel₀ _ hlength

end Statistics

/-! ### The table of similarities -/

omit [Field κ] [LinearOrder κ] in
theorem lookup_assign (sim : Dict String (Dict String κ)) (a b : String) (score : κ)
    (x y : String) :
    lookup (assign sim a b score) x y = if x = a ∧ y = b then some score else lookup sim x y := by
  rw [lookup, assign, Dict.get?_set, lookup]
  by_cases hx : a = x
  · subst hx
    rw [if_pos rfl, Option.bind_some, Dict.get?_set]
    by_cases hy : b = y
    · rw [if_pos hy, if_pos ⟨rfl, hy.symm⟩]
    · rw [if_neg hy, if_neg fun h => hy h.2.symm]
      cases sim.get? a with
      | none => rfl
      | some row => rfl
  · rw [if_neg hx, if_neg fun h => hx h.1.symm]

/-- The inner loop, of an output against all behind it. -/
def fillRow (a : String) (score : String → κ) (sim : Dict String (Dict String κ))
    (rest : Dict String String) : Dict String (Dict String κ) :=
  rest.foldl (fun sim other =>
    assign (assign sim a other.1 (score other.2)) other.1 a (score other.2)) sim

section Row

omit [Field κ] [LinearOrder κ]

variable {a x y : String} (score : String → κ) {rest : Dict String String}

theorem lookup_fillRow_of_other (hforward : ¬(x = a ∧ y ∈ rest.map Prod.fst))
    (hbackward : ¬(y = a ∧ x ∈ rest.map Prod.fst)) (sim : Dict String (Dict String κ)) :
    lookup (fillRow a score sim rest) x y = lookup sim x y := by
  induction rest generalizing sim with
  | nil => rfl
  | cons other rest ih =>
      rw [List.map_cons, List.mem_cons] at hforward hbackward
      rw [fillRow, List.foldl_cons, ← fillRow, ih (fun h => hforward ⟨h.1, Or.inr h.2⟩)
        (fun h => hbackward ⟨h.1, Or.inr h.2⟩), lookup_assign,
        if_neg fun h => hbackward ⟨h.2, Or.inl h.1⟩, lookup_assign,
        if_neg fun h => hforward ⟨h.1, Or.inl h.2⟩]

theorem lookup_fillRow (hfresh : a ∉ rest.map Prod.fst) (hkeys : (rest.map Prod.fst).Nodup)
    {other : String × String} (hother : other ∈ rest) (sim : Dict String (Dict String κ)) :
    lookup (fillRow a score sim rest) a other.1 = some (score other.2) ∧
      lookup (fillRow a score sim rest) other.1 a = some (score other.2) := by
  induction rest generalizing sim with
  | nil => cases hother
  | cons first rest ih =>
      rw [List.map_cons, List.mem_cons, not_or] at hfresh
      rw [List.map_cons, List.nodup_cons] at hkeys
      rw [fillRow, List.foldl_cons, ← fillRow]
      rcases List.mem_cons.mp hother with rfl | hrest
      · have hne : a ≠ other.1 := hfresh.1
        constructor
        · rw [lookup_fillRow_of_other score (fun h => hkeys.1 h.2) (fun h => hfresh.2 h.2),
            lookup_assign, if_neg fun h => hne h.1, lookup_assign, if_pos ⟨rfl, rfl⟩]
        · rw [lookup_fillRow_of_other score (fun h => hne h.1.symm) (fun h => hkeys.1 h.2),
            lookup_assign, if_pos ⟨rfl, rfl⟩]
      · exact ih hfresh.2 hkeys.2 hrest _

end Row

omit [LinearOrder κ] in
/-- Rows and columns of other kernels stay as they are. -/
theorem lookup_fillSimilarity_of_not_mem {outputs : Dict String String}
    (hkeys : (outputs.map Prod.fst).Nodup) (sim : Dict String (Dict String κ)) {x y : String}
    (h : x ∉ outputs.map Prod.fst ∨ y ∉ outputs.map Prod.fst) :
    lookup (fillSimilarity host sim outputs) x y = lookup sim x y := by
  induction outputs generalizing sim with
  | nil => rfl
  | cons entry rest ih =>
      obtain ⟨a, output⟩ := entry
      rw [List.map_cons, List.nodup_cons] at hkeys
      simp only [List.map_cons, List.mem_cons, not_or] at h
      rw [fillSimilarity, ← fillRow, ih hkeys.2 _ (h.imp And.right And.right), lookup_assign,
        if_neg fun heq => h.elim (fun hx => hx.1 heq.1) fun hy => hy.1 heq.2]
      rcases h with ⟨hx, hrest⟩ | ⟨hy, hrest⟩
      · exact lookup_fillRow_of_other _ (fun h => hx h.1) (fun h => hrest h.2) sim
      · exact lookup_fillRow_of_other _ (fun h => hrest h.2) (fun h => hy h.1) sim

omit [LinearOrder κ] in
/-- The loops leave ones on the diagonal and the score of each pair in both its
places. -/
theorem lookup_fillSimilarity (host : HarnessHost κ) {outputs : Dict String String}
    (hkeys : (outputs.map Prod.fst).Nodup) (sim : Dict String (Dict String κ)) :
    (∀ a ∈ outputs.map Prod.fst, lookup (fillSimilarity host sim outputs) a a = some 1) ∧
    ∀ pair ∈ pairScores host outputs,
      lookup (fillSimilarity host sim outputs) pair.1 pair.2.1 = some pair.2.2 ∧
      lookup (fillSimilarity host sim outputs) pair.2.1 pair.1 = some pair.2.2 := by
  induction outputs generalizing sim with
  | nil => exact ⟨nofun, nofun⟩
  | cons entry rest ih =>
      obtain ⟨a, output⟩ := entry
      rw [List.map_cons, List.nodup_cons] at hkeys
      rw [fillSimilarity]
      obtain ⟨hdiagonal, hscored⟩ := ih hkeys.2 (assign (rest.foldl (fun sim other =>
        assign (assign sim a other.1 (host.ratio output other.2)) other.1 a
          (host.ratio output other.2)) sim) a a 1)
      constructor
      · rw [List.map_cons, List.forall_mem_cons]
        refine ⟨?_, hdiagonal⟩
        rw [lookup_fillSimilarity_of_not_mem hkeys.2 _ (Or.inl hkeys.1), lookup_assign,
          if_pos ⟨rfl, rfl⟩]
      · intro pair hpair
        rcases List.mem_append.mp hpair with hrow | hrest
        · obtain ⟨other, hother, rfl⟩ := List.mem_map.mp hrow
          have hmem : other.1 ∈ rest.map Prod.fst := List.mem_map_of_mem hother
          have hne : other.1 ≠ a := fun heq => hkeys.1 (heq ▸ hmem)
          obtain ⟨hforward, hbackward⟩ :=
            lookup_fillRow (fun text => host.ratio output text) hkeys.1 hkeys.2 hother sim
          constructor
          · rw [lookup_fillSimilarity_of_not_mem hkeys.2 _ (Or.inl hkeys.1), lookup_assign,
              if_neg fun h => hne h.2]
            exact hforward
          · rw [lookup_fillSimilarity_of_not_mem hkeys.2 _ (Or.inr hkeys.1), lookup_assign,
              if_neg fun h => hne h.1]
            exact hbackward
        · exact hscored pair hrest

omit [Field κ] [LinearOrder κ] in
/-- Any two outputs have a score, in one of their orders. -/
theorem exists_pairScores {outputs : Dict String String} {a b : String}
    (ha : a ∈ outputs.map Prod.fst) (hb : b ∈ outputs.map Prod.fst) (hne : a ≠ b) :
    ∃ score, (a, b, score) ∈ pairScores host outputs ∨ (b, a, score) ∈ pairScores host outputs := by
  induction outputs with
  | nil => cases ha
  | cons entry rest ih =>
      obtain ⟨first, output⟩ := entry
      rw [List.map_cons, List.mem_cons] at ha hb
      rcases ha with rfl | ha
      · obtain ⟨other, hother, rfl⟩ := List.mem_map.mp (hb.resolve_left (Ne.symm hne))
        exact ⟨host.ratio output other.2,
          Or.inl (List.mem_append_left _ (List.mem_map.mpr ⟨other, hother, rfl⟩))⟩
      · rcases hb with rfl | hb
        · obtain ⟨other, hother, rfl⟩ := List.mem_map.mp ha
          exact ⟨host.ratio output other.2,
            Or.inr (List.mem_append_left _ (List.mem_map.mpr ⟨other, hother, rfl⟩))⟩
        · obtain ⟨score, hscore⟩ := ih ha hb
          exact ⟨score, hscore.imp (List.mem_append_right _) (List.mem_append_right _)⟩

omit [Field κ] [LinearOrder κ] in
theorem pairScores_eq_nil {outputs : Dict String String} :
    pairScores host outputs = [] ↔ outputs.length < 2 := by
  cases outputs with
  | nil => simp [pairScores]
  | cons entry rest =>
      cases rest with
      | nil => simp [pairScores]
      | cons other rest => simp [pairScores]

theorem computeDrift_compares (task : BenchTask) {firstSuccess : Dict String (RunResult κ)}
    (hkeys : (firstSuccess.map Prod.fst).Nodup) (contract : JsonObject) (threshold : κ) :
    (computeDrift host task firstSuccess contract threshold).Compares host
      (firstSuccess.map fun entry => (entry.1, entry.2.finalOutput)) threshold := by
  have houtputs : ((firstSuccess.map fun entry => (entry.1, entry.2.finalOutput)).map
      Prod.fst).Nodup := by
    rwa [List.map_map]
  obtain ⟨hdiagonal, hscored⟩ := lookup_fillSimilarity host houtputs
    ((firstSuccess.map fun entry => (entry.1, entry.2.finalOutput)).map fun entry =>
      (entry.1, []))
  refine ⟨rfl, hdiagonal, hscored, fun a ha b hb => exists_pairScores ha hb, ?_, ?_,
    List.perm_insertionSort _ _, ?_⟩
  · intro least hleast
    obtain ⟨hmem, hle⟩ := List.min?_eq_some_iff.mp hleast
    exact ⟨List.mem_map.mp hmem, fun pair hpair => hle _ (List.mem_map_of_mem hpair)⟩
  · rw [Bool.eq_iff_iff, decide_eq_true_eq]
    refine List.isSome_min?_iff.trans ?_
    rw [Ne, List.map_eq_nil_iff, pairScores_eq_nil, not_lt]
  · have : Std.Total fun a b : String × String × κ => a.2.2 ≤ b.2.2 :=
      ⟨fun a b => le_total a.2.2 b.2.2⟩
    have : IsTrans (String × String × κ) fun a b => a.2.2 ≤ b.2.2 := ⟨fun _ _ _ => le_trans⟩
    exact List.pairwise_insertionSort _ _

/-! ### The whole comparison -/

omit [Field κ] [LinearOrder κ] in
/-- A kernel that has no success yet gets the first of its runs that has one. -/
theorem repeatRuns_eq (run : Nat → RunResult κ) {kernel : String} (repeats : Nat)
    {firstSuccess : Dict String (RunResult κ)} (hfresh : kernel ∉ firstSuccess.map Prod.fst) :
    repeatRuns run kernel repeats firstSuccess =
      ((List.range repeats).map run,
        firstSuccess ++ ((((List.range repeats).map run).find? RunResult.ok).map
          fun result => (kernel, result)).toList) := by
  rw [repeatRuns]
  induction repeats with
  | zero => simp
  | succ repeats ih =>
      have hget : (firstSuccess ++ ((((List.range repeats).map run).find? RunResult.ok).map
          fun result => (kernel, result)).toList).get? kernel =
            ((List.range repeats).map run).find? RunResult.ok := by
        rw [Dict.get?_append, Dict.get?_eq_none hfresh, Option.none_or]
        cases ((List.range repeats).map run).find? RunResult.ok with
        | none => rfl
        | some result => exact if_pos rfl
      rw [List.range_succ, List.foldl_concat, ih, List.map_append, List.map_singleton,
        List.find?_append]
      dsimp only
      rw [hget]
      cases hfound : ((List.range repeats).map run).find? RunResult.ok with
      | some result => simp
      | none =>
          cases hok : (run repeats).ok with
          | false => simp [hok]
          | true =>
              simp only [Option.isNone_none, and_self, if_true, Option.map_none, Option.toList_none,
                List.append_nil, Option.none_or, List.find?_cons_of_pos hok, Option.map_some,
                Option.toList_some]
              rw [Dict.set_of_not_mem hfresh]

def runsOf (run : BenchTask → String → Nat → RunResult κ) (repeats : Nat) (task : BenchTask)
    (kernel : String) : List (RunResult κ) :=
  (List.range repeats).map (run task kernel)

/-- The kernels that succeed at a task, each with its first success. -/
def successes (run : BenchTask → String → Nat → RunResult κ) (kernels : List String)
    (repeats : Nat) (task : BenchTask) : Dict String (RunResult κ) :=
  kernels.filterMap fun kernel =>
    ((runsOf run repeats task kernel).find? RunResult.ok).map fun result => (kernel, result)

section Loops

variable {run : BenchTask → String → Nat → RunResult κ} {kernels : List String} {repeats : Nat}

omit [Field κ] [LinearOrder κ] in
theorem keys_successes_sublist (kernels : List String) (task : BenchTask) :
    ((successes run kernels repeats task).map Prod.fst).Sublist kernels := by
  induction kernels with
  | nil => exact .slnil
  | cons kernel rest ih =>
      rw [successes, List.filterMap_cons]
      cases (runsOf run repeats task kernel).find? RunResult.ok with
      | none => exact ih.cons kernel
      | some result => exact ih.cons_cons kernel

theorem runTask_eq (hkernels : kernels.Nodup) (task : BenchTask) :
    runTask host run kernels repeats task = {
      rawRuns := kernels.flatMap (runsOf run repeats task)
      summaries := kernels.map fun kernel =>
        (kernel, summarize host kernel task.taskId (runsOf run repeats task kernel))
      firstSuccess := successes run kernels repeats task } := by
  induction kernels using List.reverseRecOn with
  | nil => rfl
  | append_singleton kernels kernel ih =>
      rw [List.nodup_append] at hkernels
      have hfresh : kernel ∉ kernels := fun hmem =>
        hkernels.2.2 kernel hmem kernel (List.mem_singleton.mpr rfl) rfl
      rw [runTask, List.foldl_concat, ← runTask, ih hkernels.1]
      have hsuccess : kernel ∉ (successes run kernels repeats task).map Prod.fst :=
        fun hmem => hfresh ((keys_successes_sublist kernels task).subset hmem)
      have hsummary : kernel ∉ (kernels.map fun kernel =>
          (kernel, summarize host kernel task.taskId (runsOf run repeats task kernel))).map
            Prod.fst := by
        rw [List.map_map]
        exact fun hmem => hfresh (by simpa using hmem)
      dsimp only
      rw [repeatRuns_eq _ repeats hsuccess, Dict.set_of_not_mem hsummary, successes, successes,
        filterMap_snoc, List.flatMap_append, List.flatMap_singleton, List.map_append,
        List.map_singleton]
      rfl

variable (host run repeats) in
/-- What the comparison makes of the tasks. -/
theorem compare_eq (hkernels : kernels.Nodup) {tasks : List BenchTask}
    (htasks : (tasks.map BenchTask.taskId).Nodup) (contract : JsonObject) (threshold : κ) :
    compare host run kernels tasks repeats contract threshold = {
      summaries := tasks.map fun task => (task.taskId, kernels.map fun kernel =>
        (kernel, summarize host kernel task.taskId (runsOf run repeats task kernel)))
      drift := (tasks.filter fun task => successes run kernels repeats task ≠ []).map fun task =>
        (task.taskId, computeDrift host task (successes run kernels repeats task) contract
          threshold)
      rawRuns := tasks.flatMap fun task => kernels.flatMap (runsOf run repeats task) } := by
  induction tasks using List.reverseRecOn with
  | nil => rfl
  | append_singleton tasks task ih =>
      rw [List.map_append, List.map_singleton, List.nodup_append] at htasks
      have hfresh : task.taskId ∉ tasks.map BenchTask.taskId := fun hmem =>
        htasks.2.2 _ hmem _ (List.mem_singleton.mpr rfl) rfl
      rw [compare, List.foldl_concat, ← compare, ih htasks.1, runTask_eq hkernels]
      dsimp only
      have hsummaries : task.taskId ∉ (tasks.map fun task => (task.taskId,
          kernels.map fun kernel => (kernel, summarize host kernel task.taskId
            (runsOf run repeats task kernel)))).map Prod.fst := by
        rw [List.map_map]
        exact hfresh
      have hdrift : task.taskId ∉ ((tasks.filter fun task =>
          successes run kernels repeats task ≠ []).map fun task => (task.taskId,
            computeDrift host task (successes run kernels repeats task) contract
              threshold)).map Prod.fst := by
        rw [List.map_map]
        exact fun hmem => hfresh ((List.filter_sublist.map BenchTask.taskId).subset hmem)
      rw [Dict.set_of_not_mem hsummaries, Dict.set_of_not_mem hdrift, List.map_append,
        List.map_singleton, List.flatMap_append, List.flatMap_singleton, List.filter_append,
        List.filter_singleton]
      by_cases hnone : successes run kernels repeats task = []
      · rw [if_pos hnone, decide_eq_false (not_not.mpr hnone), cond_false, List.append_nil]
      · rw [if_neg hnone, decide_eq_true hnone, cond_true, List.map_append, List.map_singleton]

end Loops

omit [Field κ] [LinearOrder κ] in
/-- Of the items with distinct keys, those that are kept are found. -/
theorem get?_map_filter {ι α : Type} {keyOf : ι → String} (valueOf : ι → α) {keep : ι → Prop}
    [DecidablePred keep] {items : List ι} (hkeys : (items.map keyOf).Nodup) {item : ι}
    (hitem : item ∈ items) :
    Dict.get? ((items.filter fun item => keep item).map fun item => (keyOf item, valueOf item))
      (keyOf item) = if keep item then some (valueOf item) else none := by
  by_cases hkeep : keep item
  · rw [if_pos hkeep]
    refine Dict.get?_of_mem ?_ (List.mem_map.mpr ⟨item,
      List.mem_filter.mpr ⟨hitem, decide_eq_true hkeep⟩, rfl⟩)
    rw [List.map_map]
    exact hkeys.sublist (List.filter_sublist.map keyOf)
  · rw [if_neg hkeep]
    refine Dict.get?_eq_none fun hmem => ?_
    rw [List.map_map] at hmem
    obtain ⟨other, hother, hkey⟩ := List.mem_map.mp hmem
    obtain ⟨hothermem, hkept⟩ := List.mem_filter.mp hother
    obtain rfl := List.inj_on_of_nodup_map hkeys hothermem hitem hkey
    exact hkeep (of_decide_eq_true hkept)

theorem metricStats_mean {ι : Type} {items : List ι} {metric : ι → κ} {average : κ}
    (h : average ∈ (metricStats host (items.map fun item => some (metric item))).mean) :
    items ≠ [] ∧ average = Library.mean (items.map metric) := by
  have hvalues : (items.map fun item => some (metric item)).filterMap id = items.map metric := by
    rw [List.filterMap_map, ← List.filterMap_eq_map]
    rfl
  rw [metricStats, hvalues] at h
  split at h
  · cases h
  · rename_i hitems
    exact ⟨fun hnil => hitems (by rw [hnil, List.map_nil]), (Option.some.inj h).symm⟩

omit [Field κ] in
/-- The pick of the leaderboard is not above any median. -/
theorem fastest_le {metric : KernelTaskSummary κ → MetricStats κ}
    {summaries : Dict String (KernelTaskSummary κ)} {pick : String × κ}
    (h : pick ∈ fastest metric summaries) {entry : String × KernelTaskSummary κ}
    (hentry : entry ∈ summaries) (husable : 0 < entry.2.wallClock.n) {median : κ}
    (hmedian : median ∈ (metric entry.2).median) : pick.2 ≤ median := by
  rw [fastest] at h
  split at h
  · cases h
  · obtain ⟨before, after, hscored, hbefore, hafter⟩ := leastAt_of_firstLeast h
    have hmem : (entry.1, median) ∈ before ++ pick :: after := by
      rw [← hscored]
      refine List.mem_filterMap.mpr
        ⟨entry, List.mem_filter.mpr ⟨hentry, decide_eq_true husable⟩, ?_⟩
      rw [hmedian, Option.map_some]
    rcases List.mem_append.mp hmem with hin | hin
    · exact (hbefore _ hin).le
    · rcases List.mem_cons.mp hin with rfl | hin
      · exact le_rfl
      · exact hafter _ hin

theorem Contest.overhead_run [IsStrictOrderedRing κ] {ω : Type} (contest : Contest κ ω)
    (hclock : ∀ kernel task index, Monotone (contest.clock kernel task index)) (task : BenchTask)
    (kernel : String) (index : Nat) :
    let result := contest.run task kernel index
    0 ≤ result.toolLoopOverhead ∧ result.toolLoopOverhead ≤ result.wallClock :=
  (BenchRun.tells_runKernelOnce _ (hclock kernel task index) _ _ _ _).overhead

/-- On average, too, no more time is behind the verdicts than is on the clock. -/
theorem Contest.overhead_means [IsStrictOrderedRing κ] {ω : Type} (contest : Contest κ ω)
    (hclock : ∀ kernel task index, Monotone (contest.clock kernel task index)) (task : BenchTask)
    (kernel : String) (repeats : Nat) :
    let summary := summarize host kernel task.taskId (runsOf contest.run repeats task kernel)
    ∀ overhead ∈ summary.toolLoopOverhead.mean, ∀ wallClock ∈ summary.wallClock.mean,
      0 ≤ overhead ∧ overhead ≤ wallClock := by
  intro summary overhead hoverhead wallClock hwallClock
  obtain ⟨hruns, rfl⟩ := metricStats_mean hoverhead
  obtain ⟨-, rfl⟩ := metricStats_mean hwallClock
  have htimes : ∀ result ∈ (runsOf contest.run repeats task kernel).filter RunResult.ok,
      0 ≤ result.toolLoopOverhead ∧ result.toolLoopOverhead ≤ result.wallClock := by
    intro result hresult
    obtain ⟨index, -, rfl⟩ := List.mem_map.mp (List.mem_filter.mp hresult).1
    exact contest.overhead_run hclock task kernel index
  refine ⟨le_mean (mt List.map_eq_nil_iff.mp hruns) fun value hvalue => ?_,
    mean_map_le_mean_map fun result hresult => (htimes result hresult).2⟩
  obtain ⟨result, hresult, rfl⟩ := List.mem_map.mp hvalue
  exact (htimes result hresult).1

/-- Whatever the kernels do, a comparison runs every kernel as often at every
task, one run after the other, and sums up just these runs for each kernel and
task, with no more time behind the verdicts than there is on the clock. It
compares the outputs of the first runs that succeed, each with each. -/
theorem Contest.compare_report [IsStrictOrderedRing κ] {ω : Type} (contest : Contest κ ω)
    (hclock : ∀ kernel task index, Monotone (contest.clock kernel task index))
    {kernels : List String} (hkernels : kernels.Nodup) {tasks : List BenchTask}
    (htasks : (tasks.map BenchTask.taskId).Nodup) (repeats : Nat) (contract : JsonObject)
    (threshold : κ) :
    let report := compare host contest.run kernels tasks repeats contract threshold
    report.rawRuns =
      (tasks.flatMap fun task => kernels.flatMap (runsOf contest.run repeats task)) ∧
    ∀ task ∈ tasks, ∃ summaries, report.summaries.get? task.taskId = some summaries ∧
      (∀ kernel ∈ kernels, ∃ summary, summaries.get? kernel = some summary ∧
        summary.Sums (runsOf contest.run repeats task kernel) ∧
        ∀ overhead ∈ summary.toolLoopOverhead.mean, ∀ wallClock ∈ summary.wallClock.mean,
          0 ≤ overhead ∧ overhead ≤ wallClock) ∧
      (∀ metric, ∀ pick ∈ fastest metric summaries, ∀ entry ∈ summaries,
        0 < entry.2.wallClock.n → ∀ median ∈ (metric entry.2).median, pick.2 ≤ median) ∧
      match report.drift.get? task.taskId with
      | none => successes contest.run kernels repeats task = []
      | some drift => successes contest.run kernels repeats task ≠ [] ∧
          drift.Compares host ((successes contest.run kernels repeats task).map fun entry =>
            (entry.1, entry.2.finalOutput)) threshold := by
  intro report
  have hreport : report = _ :=
    compare_eq host contest.run repeats hkernels htasks contract threshold
  rw [hreport]
  refine ⟨rfl, fun task htask => ?_⟩
  refine ⟨kernels.map fun kernel =>
    (kernel, summarize host kernel task.taskId (runsOf contest.run repeats task kernel)),
    ?_, ?_, ?_, ?_⟩
  · refine Dict.get?_of_mem ?_ (List.mem_map.mpr ⟨task, htask, rfl⟩)
    rwa [List.map_map]
  · intro kernel hkernel
    refine ⟨_, Dict.get?_of_mem ?_ (List.mem_map.mpr ⟨kernel, hkernel, rfl⟩),
      summarize_sums _ _ _, ?_⟩
    · rw [List.map_map]
      exact (List.map_id kernels).symm ▸ hkernels
    · exact contest.overhead_means hclock task kernel repeats
  · exact fun metric pick hpick entry hentry husable median hmedian =>
      fastest_le hpick hentry husable hmedian
  · rw [get?_map_filter _ htasks htask]
    by_cases hnone : successes contest.run kernels repeats task = []
    · rw [if_neg (not_not.mpr hnone)]
      exact hnone
    · rw [if_pos hnone]
      exact ⟨hnone, computeDrift_compares task
        (hkernels.sublist (keys_successes_sublist kernels task)) contract threshold⟩

/-- Two kernels, one of which fails at the task. -/
def twoKernels : Contest ℚ Unit where
  kernelId := id
  spawn := fun kernel _ _ =>
    if kernel = "quick" then
      .yield (.event ⟨.textDelta, "agg", [("text", .str "done")]⟩) fun _ => .done
    else .yield (.event ⟨.agentFailed, "agg", []⟩) fun _ => .done
  clock := fun _ _ _ reading => reading
  arrives := fun _ _ _ _ => true
  judge := autoApproveJudge .null
  str := fun _ => ""
  timeout := "120.0"

def greeting : BenchTask := ⟨"greet", "Greet.", [], []⟩

theorem Contest.compare_report_twoKernels :
    let host : HarnessHost ℚ := ⟨fun _ => none, id, fun _ _ => 1, fun _ => 0⟩
    let report := compare host twoKernels.run ["quick", "failing"] [greeting] 2 [] (mkRat 3 5)
    report.rawRuns.map RunResult.status = [.completed, .completed, .failed, .failed] ∧
    (∃ summaries summary, report.summaries.get? "greet" = some summaries ∧
      summaries.get? "failing" = some summary ∧ summary.runs = 2 ∧ summary.successes = 0) ∧
    ∃ drift, report.drift.get? "greet" = some drift ∧ drift.outputs = [("quick", "done")] := by
  intro host report
  have hclock : ∀ kernel task index, Monotone (twoKernels.clock kernel task index) :=
    fun _ _ _ => Nat.mono_cast
  have hkernels : ["quick", "failing"].Nodup := by decide
  have htasks : ([greeting].map BenchTask.taskId).Nodup := by decide
  obtain ⟨hruns, htasks⟩ := twoKernels.compare_report hclock hkernels htasks 2 [] (mkRat 3 5)
  obtain ⟨summaries, hsummaries, hkernels, -, hdrift⟩ :=
    htasks greeting (List.mem_singleton_self _)
  obtain ⟨summary, hsummary, hsums, -⟩ := hkernels "failing" (by decide)
  refine ⟨?_, ⟨summaries, summary, hsummaries, hsummary, hsums.counted, ?_⟩, ?_⟩
  · rw [hruns]
    decide +kernel
  · rw [hsums.successes]
    decide +kernel
  · split at hdrift
    · exact absurd hdrift (by decide +kernel)
    · rename_i drift hsome
      exact ⟨drift, hsome, hdrift.2.same.trans (by decide +kernel)⟩

end Comparison

end ForgeOS
