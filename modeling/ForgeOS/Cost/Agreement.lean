import ForgeOS.Cost.Report
import Mathlib.Algebra.BigOperators.Field
import Mathlib.Algebra.BigOperators.Ring.Finset
import Mathlib.Tactic.Ring

/-!
The total of `CostUseCases.report` and the total of `CostAggregator` come from
the same rows by two loops. The report keeps the costs that the aggregator
skips, and rounds every stage before it rounds their sum; this module says when
the two name the same number all the same.
-/

namespace ForgeOS

open Library Finset

namespace CostUseCases

/-! ### The condition -/

/-- The finite cost a spawn adds. -/
def Spawn.amount (spawn : Spawn) : ℚ :=
  match spawn.cost with
  | some (.finite value) => value
  | _ => 0

def stageAmount (spawns : List Spawn) (stage : String) : ℚ :=
  ((spawns.filter fun spawn => spawn.stage = stage).map Spawn.amount).sum

/-- What a stage costs, in whole micro-dollars. -/
def stageMicros (spawns : List Spawn) (stage : String) : ℤ :=
  halfEven (stageAmount spawns stage * 10 ^ costDigits)

def reportMicros (spawns : List Spawn) : ℤ :=
  ∑ stage ∈ (spawns.map Spawn.stage).toFinset, stageMicros spawns stage

/-- How many micro-dollars the stages' rounding and the negative costs move the
report away from the sum of the costs that are none. -/
def drift (spawns : List Spawn) : ℚ :=
  ∑ stage ∈ (spawns.map Spawn.stage).toFinset,
      ((stageMicros spawns stage : ℚ) - stageAmount spawns stage * 10 ^ costDigits) +
    (spawns.map fun spawn => min spawn.amount 0).sum * 10 ^ costDigits

/-- Every number among the costs is finite, one of them at least is not
negative, and the report drifts by less than half a micro-dollar, or by half of
one to an even number of them. -/
structure SameSpend (spawns : List Spawn) : Prop where
  finite : ∀ spawn ∈ spawns, ∀ cost ∈ spawn.cost, cost.isFinite = true
  counted : (∀ spawn ∈ spawns, spawn.cost = none) ∨
    ∃ spawn ∈ spawns, ∃ cost ∈ spawn.cost, CostAggregator.isCost cost = true
  small : 2 * |drift spawns| < 1 ∨ 2 * |drift spawns| = 1 ∧ Even (reportMicros spawns)

/-- The completed spawns of a store as the loop reads them. -/
def recordedSpawns (db : EventsDb) : Except SpendError (List Spawn) := do
  let started ← db.readByType startedType
  let completed ← db.readByType completedType
  let stages ← stageByRun started
  return (← completed.mapM (readSpawn stages none)).filterMap id

/-- Nothing is recorded yet, or the rows of the completed spawns can be fetched
and either the cost of one of them raises, or all that the report reads can be
read and says the same spend. -/
def CountedAlike (db : EventsDb) : Prop :=
  db = .missing ∨ ∃ completed, db.readByType completedType = .ok completed ∧
    ((∃ event ∈ completed, ∃ error, CostAggregator.readCost exactly event = .error error) ∨
      ∃ spawns, recordedSpawns db = .ok spawns ∧ SameSpend spawns)

/-- Both raise, or both return and name the same total. -/
def Agree (reported : Except SpendError CostReport) (totals : Except SpendError CostTotals) :
    Prop :=
  match reported, totals with
  | .ok reported, .ok totals => reported.totalCostUsd = totals.totalCostUsd
  | .error _, .error _ => True
  | _, _ => False

/-- The costs of the spawns, in their order. -/
def costs (spawns : List Spawn) : List PyFloat := spawns.filterMap Spawn.cost

/-! ### Adding up -/

section Sums

/-- The number a float stands for in an exact sum. -/
private def amountOf : PyFloat → ℚ
  | .finite value => value
  | _ => 0

private theorem foldl_add_isFinite (a : PyFloat) (values : List PyFloat) :
    (values.foldl (PyFloat.add exactly) a).isFinite =
      (a.isFinite && values.all PyFloat.isFinite) := by
  induction values generalizing a with
  | nil => simp
  | cons value rest ih =>
      rw [List.foldl_cons, ih, PyFloat.isFinite_add, List.all_cons, Bool.and_assoc]

private theorem foldl_add_finite {values : List PyFloat}
    (h : ∀ value ∈ values, value.isFinite = true) (a : ℚ) :
    values.foldl (PyFloat.add exactly) (.finite a) = .finite (a + (values.map amountOf).sum) := by
  induction values generalizing a with
  | nil => simp
  | cons value rest ih =>
      obtain ⟨b, rfl⟩ := PyFloat.isFinite_iff.mp (h value List.mem_cons_self)
      have hrest := ih (fun other hother => h other (List.mem_cons_of_mem _ hother)) (a + b)
      rw [List.foldl_cons, List.map_cons, List.sum_cons, ← add_assoc]
      exact hrest

/-- Both loops add up from `None` in the same way. -/
private theorem foldl_addCost (values : List PyFloat) (total : Option PyFloat) :
    values.foldl (addCost exactly) total =
      if values = [] then total
      else some (values.foldl (PyFloat.add exactly) (total.getD (.finite 0))) := by
  induction values generalizing total with
  | nil => rfl
  | cons value rest ih =>
      rw [List.foldl_cons, ih, if_neg (List.cons_ne_nil _ _), List.foldl_cons]
      cases rest with
      | nil => rfl
      | cons other rest => rfl

private theorem spent_finite {values : List PyFloat}
    (h : ∀ value ∈ values, value.isFinite = true) :
    values.foldl (addCost exactly) none =
      if values = [] then none else some (.finite (values.map amountOf).sum) := by
  rw [foldl_addCost, Option.getD_none, foldl_add_finite h, zero_add]

private theorem amountOf_costs (spawns : List Spawn) :
    ((costs spawns).map amountOf).sum = (spawns.map Spawn.amount).sum := by
  unfold costs
  induction spawns with
  | nil => rfl
  | cons spawn rest ih =>
      rw [List.map_cons, List.sum_cons, ← ih]
      cases hcost : spawn.cost with
      | none => simp [hcost, Spawn.amount]
      | some cost =>
          have hamount : spawn.amount = amountOf cost := by
            unfold Spawn.amount amountOf
            rw [hcost]
            cases cost <;> rfl
          rw [List.filterMap_cons_some hcost, List.map_cons, List.sum_cons, hamount]

/-- The costs the aggregator takes are the ones that are not negative. -/
private theorem amountOf_counted (spawns : List Spawn) :
    (((costs spawns).filter CostAggregator.isCost).map amountOf).sum =
      (spawns.map fun spawn => max spawn.amount 0).sum := by
  unfold costs
  induction spawns with
  | nil => rfl
  | cons spawn rest ih =>
      rw [List.map_cons, List.sum_cons, ← ih]
      unfold Spawn.amount
      cases hcost : spawn.cost with
      | none => simp [hcost]
      | some cost =>
          rw [List.filterMap_cons_some hcost]
          cases cost with
          | finite value =>
              by_cases hneg : value < 0
              · simp [CostAggregator.isCost, PyFloat.isFinite, PyFloat.lt, hneg, hneg.le]
              · simp [CostAggregator.isCost, PyFloat.isFinite, PyFloat.lt, hneg, amountOf,
                  not_lt.mp hneg]
          | nan => simp [CostAggregator.isCost, PyFloat.isFinite]
          | inf negative => simp [CostAggregator.isCost, PyFloat.isFinite]

/-! ### The report's total -/

private theorem foldl_bucket_costUsd (spawns : List Spawn) (bucket : Bucket) :
    (spawns.foldl Bucket.add bucket).costUsd =
      (costs spawns).foldl (addCost exactly) bucket.costUsd := by
  unfold costs
  induction spawns generalizing bucket with
  | nil => rfl
  | cons spawn rest ih =>
      rw [List.foldl_cons, ih]
      cases hcost : spawn.cost with
      | none => simp [Bucket.add, hcost]
      | some cost => simp [Bucket.add, hcost]

variable (spawns : List Spawn)

/-- The rows of `stages` the loop ends with. -/
private def stageCosts : List StageCost :=
  ((Buckets.collect Spawn.stage Bucket.add {} spawns).insertionSort fun a b => a.1 ≤ b.1).map
    stageCost

/-- What a stage's row names as its cost. -/
private def costOfStage (stage : String) : Option PyFloat :=
  roundCost ((costs (spawns.filter fun spawn => spawn.stage = stage)).foldl (addCost exactly) none)

private theorem priced_stageCosts :
    (stageCosts spawns).filterMap StageCost.costUsd =
      ((Buckets.collect Spawn.stage Bucket.add {} spawns).insertionSort
        fun a b => a.1 ≤ b.1).filterMap fun entry => costOfStage spawns entry.1 := by
  unfold stageCosts
  rw [List.filterMap_map]
  apply List.filterMap_congr
  intro entry hentry
  have hmember := (List.mem_insertionSort _).mp hentry
  have hbucket := Buckets.snd_of_mem_collect Spawn.stage Bucket.add {} hmember
  change roundCost entry.2.costUsd = _
  rw [hbucket, foldl_bucket_costUsd, costOfStage]

private theorem mem_priced {cost : PyFloat} :
    cost ∈ (stageCosts spawns).filterMap StageCost.costUsd ↔
      ∃ spawn ∈ spawns, costOfStage spawns spawn.stage = some cost := by
  have hkeys : ∀ stage,
      (∃ bucket, (stage, bucket) ∈ Buckets.collect Spawn.stage Bucket.add {} spawns) ↔
        ∃ spawn ∈ spawns, spawn.stage = stage := by
    intro stage
    have hmem : stage ∈ (Buckets.collect Spawn.stage Bucket.add {} spawns).map Prod.fst ↔
        stage ∈ spawns.map Spawn.stage :=
      Buckets.mem_keys_collect Spawn.stage Bucket.add {}
    simpa [List.mem_map] using hmem
  rw [priced_stageCosts, List.mem_filterMap]
  constructor
  · rintro ⟨entry, hentry, hcost⟩
    obtain ⟨spawn, hspawn, hstage⟩ := (hkeys entry.1).mp
      ⟨entry.2, (List.mem_insertionSort _).mp hentry⟩
    exact ⟨spawn, hspawn, hstage ▸ hcost⟩
  · rintro ⟨spawn, hspawn, hcost⟩
    obtain ⟨bucket, hentry⟩ := (hkeys spawn.stage).mpr ⟨spawn, hspawn, rfl⟩
    exact ⟨_, (List.mem_insertionSort _).mpr hentry, hcost⟩

private theorem costOfStage_eq (stage : String) :
    costOfStage spawns stage =
      if costs (spawns.filter fun spawn => spawn.stage = stage) = [] then none
      else some (((costs (spawns.filter fun spawn => spawn.stage = stage)).foldl
        (PyFloat.add exactly) (.finite 0)).round exactly costDigits) := by
  rw [costOfStage, foldl_addCost]
  split
  · rfl
  · rfl

private theorem mem_costs {cost : PyFloat} :
    cost ∈ costs spawns ↔ ∃ spawn ∈ spawns, spawn.cost = some cost :=
  List.mem_filterMap

variable {spawns} in
private theorem mem_costs_of_stage {stage : String} {cost : PyFloat}
    (h : cost ∈ costs (spawns.filter fun spawn => spawn.stage = stage)) : cost ∈ costs spawns := by
  obtain ⟨spawn, hspawn, hcost⟩ := (mem_costs _).mp h
  exact (mem_costs _).mpr ⟨spawn, List.mem_of_mem_filter hspawn, hcost⟩

/-- A stage's row names a cost when one of its spawns does, and that is finite
only if theirs are. -/
private theorem costOfStage_cases {spawn : Spawn} {cost : PyFloat} (hspawn : spawn ∈ spawns)
    (hcost : spawn.cost = some cost) :
    ∃ total, costOfStage spawns spawn.stage = some total ∧
      (total.isFinite = true → cost.isFinite = true) := by
  have hmember : cost ∈ costs (spawns.filter fun other => other.stage = spawn.stage) :=
    (mem_costs _).mpr ⟨spawn, List.mem_filter.mpr ⟨hspawn, by simp⟩, hcost⟩
  rw [costOfStage_eq, if_neg (List.ne_nil_of_mem hmember)]
  refine ⟨_, rfl, ?_⟩
  intro hfinite
  rw [PyFloat.isFinite_round, foldl_add_isFinite, Bool.and_eq_true, List.all_eq_true] at hfinite
  exact hfinite.2 cost hmember

private theorem isFinite_of_costOfStage (hfinite : ∀ cost ∈ costs spawns, cost.isFinite = true)
    {stage : String} {total : PyFloat} (h : costOfStage spawns stage = some total) :
    total.isFinite = true := by
  rw [costOfStage_eq] at h
  split at h
  · cases h
  · obtain rfl := Option.some.inj h
    rw [PyFloat.isFinite_round, foldl_add_isFinite, Bool.and_eq_true, List.all_eq_true]
    exact ⟨rfl, fun cost hcost => hfinite cost (mem_costs_of_stage hcost)⟩

/-- What a stage's row adds to the total. -/
private theorem amount_costOfStage (hfinite : ∀ cost ∈ costs spawns, cost.isFinite = true)
    (stage : String) :
    (costOfStage spawns stage).elim 0 amountOf =
      stageMicros spawns stage / 10 ^ costDigits := by
  have hstage : ∀ cost ∈ costs (spawns.filter fun spawn => spawn.stage = stage),
      cost.isFinite = true :=
    fun cost hcost => hfinite cost (mem_costs_of_stage hcost)
  have hamount : stageAmount spawns stage =
      ((costs (spawns.filter fun spawn => spawn.stage = stage)).map amountOf).sum :=
    (amountOf_costs _).symm
  rw [costOfStage_eq, stageMicros, hamount]
  split
  · rename_i hnone
    simp [hnone]
  · rw [foldl_add_finite hstage, zero_add]
    rfl

private theorem totalCost_of_not_finite {cost : PyFloat} (hcost : cost ∈ costs spawns)
    (h : cost.isFinite = false) :
    ∃ total, totalCost (stageCosts spawns) = some total ∧ total.isFinite = false := by
  obtain ⟨spawn, hspawn, hspawnCost⟩ := (mem_costs _).mp hcost
  obtain ⟨stage, hstage, hfinite⟩ := costOfStage_cases spawns hspawn hspawnCost
  have hpriced := (mem_priced spawns).mpr ⟨spawn, hspawn, hstage⟩
  unfold totalCost
  rw [if_neg (List.ne_nil_of_mem hpriced)]
  refine ⟨_, rfl, ?_⟩
  rw [PyFloat.isFinite_round, foldl_add_isFinite, Bool.and_eq_false_iff]
  refine Or.inr (List.all_eq_false.mpr ⟨stage, hpriced, ?_⟩)
  intro hstageFinite
  rw [hfinite hstageFinite] at h
  cases h

private theorem sum_filterMap_amountOf {ι : Type} (items : List ι) (f : ι → Option PyFloat) :
    ((items.filterMap f).map amountOf).sum =
      (items.map fun item => (f item).elim 0 amountOf).sum := by
  induction items with
  | nil => rfl
  | cons item rest ih =>
      cases hitem : f item with
      | none => simp [hitem, ih]
      | some value => simp [hitem, ih]

private theorem priced_eq_nil_iff :
    (stageCosts spawns).filterMap StageCost.costUsd = [] ↔ costs spawns = [] := by
  rw [List.eq_nil_iff_forall_not_mem, List.eq_nil_iff_forall_not_mem]
  constructor
  · intro hnone cost hcost
    obtain ⟨spawn, hspawn, hspawnCost⟩ := (mem_costs _).mp hcost
    obtain ⟨stage, hstage, -⟩ := costOfStage_cases spawns hspawn hspawnCost
    exact hnone stage ((mem_priced spawns).mpr ⟨spawn, hspawn, hstage⟩)
  · intro hnone cost hcost
    obtain ⟨spawn, -, hstage⟩ := (mem_priced spawns).mp hcost
    have hnil : costs (spawns.filter fun other => other.stage = spawn.stage) = [] :=
      List.eq_nil_iff_forall_not_mem.mpr fun other hother =>
        hnone other (mem_costs_of_stage hother)
    rw [costOfStage_eq, if_pos hnil] at hstage
    cases hstage

/-- The rows add up to the micro-dollars of the stages. -/
private theorem sum_priced (hfinite : ∀ cost ∈ costs spawns, cost.isFinite = true) :
    (((stageCosts spawns).filterMap StageCost.costUsd).map amountOf).sum =
      reportMicros spawns / 10 ^ costDigits :=
  calc
    (((stageCosts spawns).filterMap StageCost.costUsd).map amountOf).sum
        = ((Buckets.collect Spawn.stage Bucket.add {} spawns).map fun entry =>
            (costOfStage spawns entry.1).elim 0 amountOf).sum := by
          rw [priced_stageCosts, sum_filterMap_amountOf]
          exact ((List.perm_insertionSort _ _).map _).sum_eq
    _ = ((Buckets.collect Spawn.stage Bucket.add {} spawns).map fun entry =>
            (roundCost entry.2.costUsd).elim 0 amountOf).sum := by
          congr 1
          apply List.map_congr_left
          intro entry hentry
          rw [Buckets.snd_of_mem_collect Spawn.stage Bucket.add {} hentry, foldl_bucket_costUsd]
          rfl
    _ = ∑ stage ∈ (spawns.map Spawn.stage).toFinset,
          (costOfStage spawns stage).elim 0 amountOf := by
          rw [Buckets.sum_collect Spawn.stage Bucket.add {}
            (fun bucket => (roundCost bucket.costUsd).elim 0 amountOf) spawns]
          apply Finset.sum_congr rfl
          intro stage _
          rw [foldl_bucket_costUsd]
          rfl
    _ = reportMicros spawns / 10 ^ costDigits := by
          rw [reportMicros, Int.cast_sum, Finset.sum_div]
          exact Finset.sum_congr rfl fun stage _ => amount_costOfStage spawns hfinite stage

private theorem totalCost_of_finite (hfinite : ∀ cost ∈ costs spawns, cost.isFinite = true) :
    totalCost (stageCosts spawns) =
      if costs spawns = [] then none
      else some (.finite (reportMicros spawns / 10 ^ costDigits)) := by
  have hpriced : ∀ cost ∈ (stageCosts spawns).filterMap StageCost.costUsd,
      cost.isFinite = true := by
    intro cost hcost
    obtain ⟨spawn, -, hstage⟩ := (mem_priced spawns).mp hcost
    exact isFinite_of_costOfStage spawns hfinite hstage
  have hround : PyFloat.round exactly costDigits (.finite (reportMicros spawns / 10 ^ costDigits)) =
      .finite (reportMicros spawns / 10 ^ costDigits) :=
    congrArg PyFloat.finite (roundTo_intCast_div (by positivity) _)
  simp only [totalCost, priced_eq_nil_iff]
  rw [foldl_add_finite hpriced, sum_priced spawns hfinite, zero_add, hround]

/-! ### The aggregator's total -/

/-- What the aggregator makes of the same spawns. -/
private def aggregated : Option PyFloat :=
  (((costs spawns).filter CostAggregator.isCost).foldl (addCost exactly) none).map
    (PyFloat.round exactly costDigits)

private theorem aggregated_eq :
    aggregated spawns =
      if (costs spawns).filter CostAggregator.isCost = [] then none
      else some (.finite (roundTo (10 ^ costDigits)
        (spawns.map fun spawn => max spawn.amount 0).sum)) := by
  have hfinite : ∀ cost ∈ (costs spawns).filter CostAggregator.isCost, cost.isFinite = true := by
    intro cost hcost
    have hcounted := List.of_mem_filter hcost
    rw [CostAggregator.isCost, Bool.and_eq_true] at hcounted
    exact hcounted.1
  rw [aggregated, spent_finite hfinite, amountOf_counted]
  split
  · rfl
  · rfl

/-- The report's micro-dollars are the ones the aggregator rounds, and the
drift. -/
private theorem drift_eq :
    drift spawns = reportMicros spawns -
      (spawns.map fun spawn => max spawn.amount 0).sum * 10 ^ costDigits := by
  have hstages : ∑ stage ∈ (spawns.map Spawn.stage).toFinset, stageAmount spawns stage =
      (spawns.map Spawn.amount).sum :=
    Buckets.sum_keys Spawn.stage Spawn.amount spawns
  have hsigns : (spawns.map fun spawn => min spawn.amount 0).sum +
      (spawns.map fun spawn => max spawn.amount 0).sum = (spawns.map Spawn.amount).sum := by
    rw [← List.sum_map_add]
    congr 1
    apply List.map_congr_left
    intro spawn _
    rw [min_add_max, add_zero]
  rw [drift, Finset.sum_sub_distrib, ← Finset.sum_mul, hstages, ← hsigns, reportMicros,
    Int.cast_sum]
  ring

private theorem roundsTo_iff_small :
    RoundsTo ((spawns.map fun spawn => max spawn.amount 0).sum * 10 ^ costDigits)
        (reportMicros spawns) ↔
      2 * |drift spawns| < 1 ∨ 2 * |drift spawns| = 1 ∧ Even (reportMicros spawns) := by
  rw [RoundsTo, drift_eq, abs_sub_comm, two_mul]

private theorem roundsTo_of_unpriced (h : costs spawns = []) :
    RoundsTo ((spawns.map fun spawn => max spawn.amount 0).sum * 10 ^ costDigits)
      (reportMicros spawns) := by
  have hsum : (spawns.map fun spawn => max spawn.amount 0).sum = 0 := by
    rw [← amountOf_counted, h]
    rfl
  have hmicros : reportMicros spawns = 0 := by
    apply Finset.sum_eq_zero
    intro stage _
    have hstage : costs (spawns.filter fun spawn => spawn.stage = stage) = [] := by
      apply List.eq_nil_iff_forall_not_mem.mpr
      intro cost hcost
      have hmember := mem_costs_of_stage hcost
      rw [h] at hmember
      cases hmember
    have hamount : stageAmount spawns stage = 0 := by
      rw [stageAmount, ← amountOf_costs, hstage]
      rfl
    rw [stageMicros, hamount, zero_mul, halfEven_zero]
  rw [hsum, hmicros, zero_mul]
  exact Or.inl (by simp)

private theorem costs_eq_nil_iff :
    costs spawns = [] ↔ ∀ spawn ∈ spawns, spawn.cost = none :=
  List.filterMap_eq_nil_iff

private theorem costs_finite_iff :
    (∀ cost ∈ costs spawns, cost.isFinite = true) ↔
      ∀ spawn ∈ spawns, ∀ cost ∈ spawn.cost, cost.isFinite = true := by
  simp only [mem_costs]
  exact ⟨fun h spawn hspawn cost hcost => h cost ⟨spawn, hspawn, hcost⟩,
    fun h cost ⟨spawn, hspawn, hcost⟩ => h spawn hspawn cost hcost⟩

private theorem counted_eq_nil_iff :
    (costs spawns).filter CostAggregator.isCost = [] ↔
      ¬∃ spawn ∈ spawns, ∃ cost ∈ spawn.cost, CostAggregator.isCost cost = true := by
  rw [List.filter_eq_nil_iff]
  constructor
  · rintro hnone ⟨spawn, hspawn, cost, hcost, hvalid⟩
    exact hnone cost ((mem_costs _).mpr ⟨spawn, hspawn, hcost⟩) hvalid
  · intro hnone cost hcost hvalid
    obtain ⟨spawn, hspawn, hspawnCost⟩ := (mem_costs _).mp hcost
    exact hnone ⟨spawn, hspawn, cost, hspawnCost, hvalid⟩

/-- The report's total and the aggregator's, of the same spawns. -/
private theorem totalCost_eq_aggregated_iff :
    totalCost (stageCosts spawns) = aggregated spawns ↔ SameSpend spawns := by
  by_cases hfinite : ∀ cost ∈ costs spawns, cost.isFinite = true
  · have hspawns := (costs_finite_iff spawns).mp hfinite
    rw [totalCost_of_finite spawns hfinite, aggregated_eq]
    by_cases hcosts : costs spawns = []
    · have hsmall := (roundsTo_iff_small spawns).mp (roundsTo_of_unpriced spawns hcosts)
      simp only [hcosts, List.filter_nil, if_true, true_iff]
      exact ⟨hspawns, Or.inl ((costs_eq_nil_iff spawns).mp hcosts), hsmall⟩
    · rw [if_neg hcosts]
      by_cases hcounted : (costs spawns).filter CostAggregator.isCost = []
      · rw [if_pos hcounted]
        refine iff_of_false (Option.some_ne_none _) ?_
        rintro ⟨-, hnone | hsome, -⟩
        · exact hcosts ((costs_eq_nil_iff spawns).mpr hnone)
        · exact (counted_eq_nil_iff spawns).mp hcounted hsome
      · have hsome := not_not.mp (mt (counted_eq_nil_iff spawns).mpr hcounted)
        rw [if_neg hcounted, Option.some.injEq, PyFloat.finite.injEq, eq_comm,
          roundTo_eq_intCast_div_iff (by positivity), roundsTo_iff_small]
        exact ⟨fun hsmall => ⟨hspawns, Or.inr hsome, hsmall⟩, SameSpend.small⟩
  · refine iff_of_false ?_ fun h => hfinite ((costs_finite_iff spawns).mpr h.finite)
    push Not at hfinite
    obtain ⟨cost, hcost, hinfinite⟩ := hfinite
    obtain ⟨total, htotal, hnot⟩ :=
      totalCost_of_not_finite spawns hcost (Bool.eq_false_iff.mpr hinfinite)
    rw [htotal, aggregated_eq]
    split
    · exact Option.some_ne_none _
    · intro heq
      rw [Option.some.inj heq] at hnot
      cases hnot

/-! ### From the rows -/

/-- Where the report can read a row, the aggregator reads the same cost. -/
private theorem readCost_of_readSpawn {stages : Dict String (Option String)} {event : SpendEvent}
    {read : Option Spawn} (h : readSpawn stages none event = .ok read) :
    CostAggregator.readCost exactly event =
      .ok (read.map fun spawn => spawn.cost.filter CostAggregator.isCost) := by
  obtain ⟨decoded, hdecode, h⟩ := bind_eq_ok_iff.mp h
  unfold CostAggregator.readCost
  rw [hdecode]
  cases decoded with
  | none =>
      rw [← Except.ok.inj h]
      rfl
  | some payload =>
      simp only [Option.all_none, if_true] at h
      obtain ⟨inputTokens, -, h⟩ := bind_eq_ok_iff.mp h
      obtain ⟨outputTokens, -, h⟩ := bind_eq_ok_iff.mp h
      obtain ⟨cost, hcost, h⟩ := bind_eq_ok_iff.mp h
      have hfloat : (recordedCost payload).asFloat exactly = .ok cost :=
        mapError_eq_ok_iff.mp hcost
      rw [← Except.ok.inj h]
      simp [CostAggregator.asCost, hfloat, Except.mapError, bind, Except.bind, pure, Except.pure]

private theorem filterMap_join_reads (reads : List (Option Spawn)) :
    (reads.map fun read => read.map fun spawn =>
        spawn.cost.filter CostAggregator.isCost).filterMap Option.join =
      (costs (reads.filterMap id)).filter CostAggregator.isCost := by
  unfold costs
  induction reads with
  | nil => rfl
  | cons read rest ih =>
      cases read with
      | none => simpa using ih
      | some spawn =>
          cases hcost : spawn.cost with
          | none => simpa [hcost] using ih
          | some cost =>
              by_cases hvalid : CostAggregator.isCost cost = true
              · simpa [hcost, hvalid, Option.filter] using ih
              · simpa [hcost, hvalid, Option.filter] using ih

/-- The report is made of the spawns read, and raises where they cannot be. -/
private theorem report_totalCostUsd {db : EventsDb} (hdb : db ≠ .missing) :
    (report db none).map CostReport.totalCostUsd =
      (recordedSpawns db).map fun spawns => totalCost (stageCosts spawns) := by
  have hcollected : ∀ reads : List (Option Spawn),
      (reads.foldl Collected.add {}).report.totalCostUsd =
        totalCost (stageCosts (reads.filterMap id)) := by
    intro reads
    change totalCost (((reads.foldl Collected.add {}).buckets.insertionSort _).map stageCost) = _
    rw [foldl_collected_buckets]
    rfl
  rw [report_of_read hdb, recordedSpawns]
  cases db.readByType startedType with
  | error error => rfl
  | ok started =>
      cases db.readByType completedType with
      | error error => rfl
      | ok completed =>
          cases hstages : stageByRun started with
          | error error => simp [hstages, bind, Except.bind, Except.map]
          | ok stages =>
              cases hreads : completed.mapM (readSpawn stages none) with
              | error error => simp [hstages, hreads, bind, Except.bind, Except.map]
              | ok reads =>
                  simp [hstages, hreads, bind, Except.bind, pure, Except.pure, Except.map,
                    hcollected]

private theorem recordedSpawns_eq_ok {db : EventsDb} {spawns : List Spawn}
    (h : recordedSpawns db = .ok spawns) :
    ∃ completed stages reads, db.readByType completedType = .ok completed ∧
      completed.mapM (readSpawn stages none) = .ok reads ∧ reads.filterMap id = spawns := by
  obtain ⟨started, -, h⟩ := bind_eq_ok_iff.mp h
  obtain ⟨completed, hcompleted, h⟩ := bind_eq_ok_iff.mp h
  obtain ⟨stages, -, h⟩ := bind_eq_ok_iff.mp h
  obtain ⟨reads, hreads, h⟩ := bind_eq_ok_iff.mp h
  exact ⟨completed, stages, reads, hcompleted, hreads, Except.ok.inj h⟩

/-- The aggregator counts the spawns the report reads. -/
private theorem totals_totalCostUsd {db : EventsDb} {spawns : List Spawn} (hdb : db ≠ .missing)
    (h : recordedSpawns db = .ok spawns) :
    (CostAggregator.totals exactly db).map CostTotals.totalCostUsd = .ok (aggregated spawns) := by
  obtain ⟨completed, stages, reads, hcompleted, hreads, hspawns⟩ := recordedSpawns_eq_ok h
  have hcosts := mapM_eq_ok_map (fun _ _ => readCost_of_readSpawn) hreads
  rw [CostAggregator.totals_of_read exactly hdb hcompleted, hcosts]
  simp only [bind, Except.bind, pure, Except.pure, Except.map, CostAggregator.Tally.totals,
    CostAggregator.foldl_tally_total, filterMap_join_reads, hspawns]
  rfl

/-- Where the aggregator cannot convert a cost, neither can the report. -/
private theorem readCost_eq_ok {db : EventsDb} {spawns : List Spawn}
    (h : recordedSpawns db = .ok spawns) {completed : List SpendEvent}
    (hcompleted : db.readByType completedType = .ok completed) :
    ∃ costs, completed.mapM (CostAggregator.readCost exactly) = .ok costs := by
  obtain ⟨completed', stages, reads, hcompleted', hreads, -⟩ := recordedSpawns_eq_ok h
  rw [hcompleted, Except.ok.injEq] at hcompleted'
  subst hcompleted'
  exact ⟨_, mapM_eq_ok_map (fun _ _ => readCost_of_readSpawn) hreads⟩

private theorem report_error {db : EventsDb} (hdb : db ≠ .missing) {error : SpendError}
    (h : recordedSpawns db = .error error) : report db none = .error error := by
  have hreport := report_totalCostUsd hdb
  rw [h] at hreport
  cases hreported : report db none with
  | error error' =>
      rw [hreported] at hreport
      exact congrArg Except.error (Except.error.inj hreport)
  | ok reported =>
      rw [hreported] at hreport
      cases hreport

private theorem agree_of_map {reported : Except SpendError CostReport}
    {totals : Except SpendError CostTotals} {total total' : Option PyFloat}
    (h : reported.map CostReport.totalCostUsd = .ok total)
    (h' : totals.map CostTotals.totalCostUsd = .ok total') :
    Agree reported totals ↔ total = total' := by
  cases reported with
  | error error => cases h
  | ok reported =>
      cases totals with
      | error error => cases h'
      | ok totals =>
          obtain rfl := Except.ok.inj h
          obtain rfl := Except.ok.inj h'
          rfl

/-- Where the report raises, the aggregator agrees if a cost makes it raise
as well. -/
private theorem agree_of_error {db : EventsDb} (hdb : db ≠ .missing) {error : SpendError} :
    Agree (.error error) (CostAggregator.totals exactly db) ↔
      ∃ completed, db.readByType completedType = .ok completed ∧
        ∃ event ∈ completed, ∃ error, CostAggregator.readCost exactly event = .error error := by
  cases hcompleted : db.readByType completedType with
  | error error =>
      have htotals : CostAggregator.totals exactly db = .ok CostAggregator.unreadableTotals := by
        cases db with
        | missing => exact absurd rfl hdb
        | unreadable => rfl
        | rows events => simp only [CostAggregator.totals, hcompleted]
      rw [htotals]
      refine iff_of_false id ?_
      rintro ⟨completed, hread, -⟩
      cases hread
  | ok completed =>
      rw [CostAggregator.totals_of_read exactly hdb hcompleted]
      cases hcosts : completed.mapM (CostAggregator.readCost exactly) with
      | error error =>
          exact iff_of_true trivial ⟨completed, rfl, mapM_eq_error_iff.mp ⟨error, hcosts⟩⟩
      | ok costs =>
          refine iff_of_false id ?_
          rintro ⟨completed', hread, hraises⟩
          obtain rfl := Except.ok.inj hread
          obtain ⟨error, herror⟩ := mapM_eq_error_iff.mpr hraises
          rw [hcosts] at herror
          cases herror

end Sums

/-- The report and the aggregator name the same total exactly when they count
alike. They differ in the costs they skip, and in where they round. -/
theorem totals_agree_iff (db : EventsDb) :
    Agree (report db none) (CostAggregator.totals exactly db) ↔ CountedAlike db := by
  by_cases hdb : db = .missing
  · rw [hdb]
    exact iff_of_true rfl (Or.inl rfl)
  cases hspawns : recordedSpawns db with
  | error error =>
      rw [report_error hdb hspawns, agree_of_error hdb]
      constructor
      · rintro ⟨completed, hcompleted, hraises⟩
        exact Or.inr ⟨completed, hcompleted, Or.inl hraises⟩
      · rintro (hmissing | ⟨completed, hcompleted, hraises | ⟨spawns, hread, -⟩⟩)
        · exact absurd hmissing hdb
        · exact ⟨completed, hcompleted, hraises⟩
        · rw [hspawns] at hread
          cases hread
  | ok spawns =>
      have hreport := report_totalCostUsd hdb
      rw [hspawns] at hreport
      rw [agree_of_map hreport (totals_totalCostUsd hdb hspawns), totalCost_eq_aggregated_iff]
      obtain ⟨completed, -, -, hcompleted, -, -⟩ := recordedSpawns_eq_ok hspawns
      constructor
      · intro hsame
        exact Or.inr ⟨completed, hcompleted, Or.inr ⟨spawns, hspawns, hsame⟩⟩
      · rintro (hmissing | ⟨completed', hcompleted', hraises | ⟨spawns', hread, hsame⟩⟩)
        · exact absurd hmissing hdb
        · obtain ⟨costs, hcosts⟩ := readCost_eq_ok hspawns hcompleted'
          obtain ⟨error, herror⟩ := mapM_eq_error_iff.mpr hraises
          rw [hcosts] at herror
          cases herror
        · obtain rfl := Except.ok.inj (hspawns.symm.trans hread)
          exact hsame

/-- One completed spawn that says it cost -1 dollar. -/
def refundedSpawn : EventsDb :=
  .rows [⟨"run", completedType, some (.json (.obj
    [("metadata", .obj [("total_cost_usd", .float (.finite (-1)))])]))⟩]

/-- A negative cost is part of the report's total, while the aggregator takes
the spawn for an unpriced one. -/
theorem negative_cost_is_reported :
    ¬Agree (report refundedSpawn none) (CostAggregator.totals exactly refundedSpawn) := by
  have hreport : (report refundedSpawn none).map CostReport.totalCostUsd =
      .ok (some (.finite (-1))) := by decide +kernel
  have htotals : (CostAggregator.totals exactly refundedSpawn).map CostTotals.totalCostUsd =
      .ok none := by decide +kernel
  rw [agree_of_map hreport htotals]
  exact Option.some_ne_none _

end CostUseCases

end ForgeOS
