import ForgeOS.Cost.Aggregator
import Mathlib.Data.List.Sort

/-!
`CostUseCases.report`: the recorded spend, stage by stage. Floats are added
exactly.
-/

namespace ForgeOS

open Library

namespace CostUseCases

/-- `_STARTED` -/
def startedType : String := "AdapterSpawnStarted"

def asInt : Json → Except NumberError Int
  | .int value => .ok value
  | .float value => value.toInt
  | _ => .ok 0

/-- `_as_cost(value)`: here every number passes. -/
def asCost (value : Json) : Except NumberError (Option PyFloat) := value.asFloat exactly

def roundCost (value : Option PyFloat) : Option PyFloat :=
  value.map (PyFloat.round exactly costDigits)

def asStage (payload : JsonObject) : Option String :=
  ((Dict.get? payload "stage_id").getD .null).str?

structure Bucket where
  spawns : Nat := 0
  inputTokens : Int := 0
  outputTokens : Int := 0
  costUsd : Option PyFloat := none

/-- What one row of a completed spawn says. -/
structure Spawn where
  stage : String
  adapter : Option String
  inputTokens : Int
  outputTokens : Int
  cost : Option PyFloat

def Bucket.add (bucket : Bucket) (spawn : Spawn) : Bucket where
  spawns := bucket.spawns + 1
  inputTokens := bucket.inputTokens + spawn.inputTokens
  outputTokens := bucket.outputTokens + spawn.outputTokens
  costUsd :=
    match spawn.cost with
    | none => bucket.costUsd
    | some cost => addCost exactly bucket.costUsd cost

/-- `stage_by_run`, from the rows of the started spawns. -/
def stageByRun (started : List SpendEvent) :
    Except SpendError (Dict String (Option String)) :=
  started.foldlM (fun stages event => do
    match ← event.decode with
    | none => return stages
    | some payload => return stages.set event.streamId (asStage payload)) []

/-- `stage_by_run.get(stream_id) or "(unattributed)"`. -/
def stageOf (stages : Dict String (Option String)) (streamId : String) : String :=
  match stages.get? streamId with
  | some (some stage) => if stage = "" then "(unattributed)" else stage
  | _ => "(unattributed)"

/-- The loop's body up to `add`; `none` is `continue`. -/
def readSpawn (stages : Dict String (Option String)) (stageFilter : Option String)
    (event : SpendEvent) : Except SpendError (Option Spawn) := do
  match ← event.decode with
  | none => return none
  | some payload =>
      let stage := stageOf stages event.streamId
      if stageFilter.all (fun wanted => stage = wanted) then
        let usage := subMapping (subMapping payload "metadata") "usage"
        let inputTokens ← (asInt ((Dict.get? usage "input_tokens").getD .null)).mapError .number
        let outputTokens ← (asInt ((Dict.get? usage "output_tokens").getD .null)).mapError .number
        let cost ← (asCost (recordedCost payload)).mapError .number
        return some {
          stage := stage
          adapter := ((Dict.get? payload "adapter").bind Json.str?).filter fun name => name ≠ ""
          inputTokens := inputTokens
          outputTokens := outputTokens
          cost := cost }
      else return none

/-- The variables of the second loop. -/
structure Collected where
  buckets : Dict String Bucket := []
  adapters : List String := []

def Collected.add (collected : Collected) : Option Spawn → Collected
  | none => collected
  | some spawn =>
      { buckets := Buckets.put Spawn.stage Bucket.add {} collected.buckets spawn
        adapters := collected.adapters ++ spawn.adapter.toList }

structure StageCost where
  stageId : String
  spawns : Nat
  inputTokens : Int
  outputTokens : Int
  totalTokens : Int
  costUsd : Option PyFloat

structure CostReport where
  stages : List StageCost := []
  adapters : List String := []
  productionSpawns : Nat := 0
  totalInputTokens : Int := 0
  totalOutputTokens : Int := 0
  totalTokens : Int := 0
  totalCostUsd : Option PyFloat := none

def stageCost (entry : String × Bucket) : StageCost where
  stageId := entry.1
  spawns := entry.2.spawns
  inputTokens := entry.2.inputTokens
  outputTokens := entry.2.outputTokens
  totalTokens := entry.2.inputTokens + entry.2.outputTokens
  costUsd := roundCost entry.2.costUsd

/-- `round(sum(priced), 6) if priced else None`. -/
def totalCost (stages : List StageCost) : Option PyFloat :=
  let priced := stages.filterMap StageCost.costUsd
  if priced = [] then none
  else some ((priced.foldl (PyFloat.add exactly) (.finite 0)).round exactly costDigits)

/-- What is made of the buckets after the loop. -/
def Collected.report (collected : Collected) : CostReport :=
  let stages := (collected.buckets.insertionSort fun a b => a.1 ≤ b.1).map stageCost
  { stages := stages
    adapters := collected.adapters.dedup.insertionSort (· ≤ ·)
    productionSpawns := (stages.map StageCost.spawns).sum
    totalInputTokens := (stages.map StageCost.inputTokens).sum
    totalOutputTokens := (stages.map StageCost.outputTokens).sum
    totalTokens := (stages.map StageCost.inputTokens).sum +
      (stages.map StageCost.outputTokens).sum
    totalCostUsd := totalCost stages }

def report (db : EventsDb) (stageFilter : Option String) : Except SpendError CostReport :=
  match db with
  | .missing => .ok {}
  | db => do
      let started ← db.readByType startedType
      let completed ← db.readByType completedType
      let stages ← stageByRun started
      let collected ← completed.foldlM (fun collected event => do
        return Collected.add collected (← readSpawn stages stageFilter event)) {}
      return collected.report

/-- The rows are read one by one, and then added up. -/
theorem report_of_read {db : EventsDb} (hdb : db ≠ .missing) (stageFilter : Option String) :
    report db stageFilter = do
      let started ← db.readByType startedType
      let completed ← db.readByType completedType
      let stages ← stageByRun started
      let reads ← completed.mapM (readSpawn stages stageFilter)
      return (reads.foldl Collected.add {}).report := by
  cases db with
  | missing => exact absurd rfl hdb
  | unreadable => rfl
  | rows events => simp only [report, foldlM_read, bind_assoc, pure_bind]

theorem foldl_collected_buckets (reads : List (Option Spawn)) (collected : Collected) :
    (reads.foldl Collected.add collected).buckets =
      (reads.filterMap id).foldl (Buckets.put Spawn.stage Bucket.add {}) collected.buckets := by
  induction reads generalizing collected with
  | nil => rfl
  | cons read rest ih =>
      rw [List.foldl_cons, ih]
      cases read with
      | none => rfl
      | some spawn => rfl

theorem foldl_collected_adapters (reads : List (Option Spawn)) (collected : Collected) :
    (reads.foldl Collected.add collected).adapters =
      collected.adapters ++ (reads.filterMap id).flatMap fun spawn => spawn.adapter.toList := by
  induction reads generalizing collected with
  | nil => simp
  | cons read rest ih =>
      rw [List.foldl_cons, ih]
      cases read with
      | none => rfl
      | some spawn =>
          change (collected.adapters ++ spawn.adapter.toList) ++ _ = _
          rw [List.append_assoc]
          rfl

end CostUseCases

end ForgeOS
