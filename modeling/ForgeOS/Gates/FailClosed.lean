import ForgeOS.Core.Runs

/-!
Which failing gates keep a stage from completing. A gate blocks only under the
exact severity `blocking`; the theorem says when a failing gate of another
severity is ignored, apart from the two advisory ones.
-/

namespace ForgeOS

open Library

/-! ### Verdicts of the checkers -/

/-- A checker passes, fails or errors; it never warns or skips. -/
def GateStatus.IsVerdict (status : GateStatus) : Prop :=
  status = .pass ∨ status = .fail ∨ status = .error

/-- Whatever a check reports, if it reports at all, is a verdict. -/
def Verdicts (result : Except String CheckOutcome) : Prop :=
  ∀ outcome, result = .ok outcome → outcome.status.IsVerdict

private theorem Verdicts.ok {outcome : CheckOutcome} (h : outcome.status.IsVerdict) :
    Verdicts (.ok outcome) := by
  intro other heq
  cases heq
  exact h

private theorem Verdicts.error (message : String) : Verdicts (.error message) := by
  intro outcome heq
  cases heq

private theorem Verdicts.bind {α : Type} {m : Except String α}
    {f : α → Except String CheckOutcome} (h : ∀ a, Verdicts (f a)) : Verdicts (m >>= f) := by
  cases m with
  | error message => exact Verdicts.error message
  | ok a => exact h a

private theorem GateStatus.pass_isVerdict : GateStatus.pass.IsVerdict := Or.inl rfl

private theorem GateStatus.fail_isVerdict : GateStatus.fail.IsVerdict := Or.inr (Or.inl rfl)

private theorem GateStatus.error_isVerdict : GateStatus.error.IsVerdict := Or.inr (Or.inr rfl)

/-- The verdict of a test. -/
private theorem GateStatus.ite_isVerdict (p : Prop) [Decidable p] :
    (if p then GateStatus.pass else GateStatus.fail).IsVerdict := by
  split
  · exact pass_isVerdict
  · exact fail_isVerdict

private theorem checkRequiredFile_verdicts (check : GateCheck) (gate : GateCriterion) :
    Verdicts (checkRequiredFile check gate) := by
  unfold checkRequiredFile
  split
  · exact .ok GateStatus.error_isVerdict
  · split
    · exact .ok GateStatus.error_isVerdict
    · refine .bind fun isFile => ?_
      split
      · exact .ok GateStatus.pass_isVerdict
      · exact .ok GateStatus.fail_isVerdict

private theorem checkPattern_verdicts (check : GateCheck) (gate : GateCriterion) :
    Verdicts (checkPattern check gate) := by
  unfold checkPattern
  split
  · exact .ok GateStatus.error_isVerdict
  · split
    · exact .ok GateStatus.error_isVerdict
    · split
      · exact .ok GateStatus.error_isVerdict
      · split
        · exact .ok GateStatus.error_isVerdict
        · refine .bind fun isFile => ?_
          split
          · exact .ok GateStatus.fail_isVerdict
          · refine .bind fun content => .bind fun found => ?_
            split
            · exact .ok GateStatus.pass_isVerdict
            · exact .ok GateStatus.fail_isVerdict

private theorem evaluateExternalCommand_isVerdict (check : GateCheck)
    (gate : ExternalCommandGate) : (evaluateExternalCommand check gate).status.IsVerdict := by
  unfold evaluateExternalCommand
  split
  · exact GateStatus.ite_isVerdict _
  · exact GateStatus.error_isVerdict
  · exact GateStatus.error_isVerdict

private theorem measureMetric_verdicts (check : GateCheck) (gate : MetricThresholdGate) :
    Verdicts (measureMetric check gate) := by
  unfold measureMetric
  refine .bind fun fileExists => ?_
  split
  · exact .ok GateStatus.error_isVerdict
  · refine .bind fun document => ?_
    split
    · split
      · exact .ok GateStatus.error_isVerdict
      · exact .bind fun passed => .ok (GateStatus.ite_isVerdict _)
    · exact .error _

private theorem evaluateMetricThreshold_isVerdict (check : GateCheck)
    (gate : MetricThresholdGate) : (evaluateMetricThreshold check gate).status.IsVerdict := by
  unfold evaluateMetricThreshold
  split
  · rename_i outcome h
    exact measureMetric_verdicts check gate outcome h
  · exact GateStatus.error_isVerdict

theorem runChecker_verdicts (check : GateCheck) (gate : GateCriterion) :
    Verdicts (runChecker check gate) := by
  unfold runChecker
  split
  · exact checkRequiredFile_verdicts check gate
  · split
    · exact checkPattern_verdicts check gate
    · split
      · dsimp only
        split
        · exact .bind fun commandGate => .ok (evaluateExternalCommand_isVerdict check commandGate)
        · exact .error _
      · split
        · exact .bind fun metricGate => .ok (evaluateMetricThreshold_isVerdict check metricGate)
        · exact .ok GateStatus.error_isVerdict

/-- Outside the two advisory severities the result carries the verdict. -/
theorem evaluateGate_isVerdict {check : GateCheck} {gate : GateCriterion}
    (hwarning : gate.severity ≠ "warning") (hadvisory : gate.severity ≠ "advisory") :
    (evaluateGate check gate).status.IsVerdict := by
  have hkept (status : GateStatus) : downgrade gate.severity status = status := by
    simp [downgrade, hwarning, hadvisory]
  simp only [evaluateGate, hkept]
  split
  · rename_i outcome h
    exact runChecker_verdicts check gate outcome h
  · exact GateStatus.error_isVerdict

/-! ### Which gates block -/

/-- A gate of severity `blocking` blocks exactly when it does not pass. -/
theorem evaluateGate_blocking_iff {check : GateCheck} {gate : GateCriterion} :
    (evaluateGate check gate).blocking = true ↔
      gate.severity = "blocking" ∧ (evaluateGate check gate).status ≠ .pass := by
  have hblocking : (evaluateGate check gate).blocking =
      (((evaluateGate check gate).status = .fail || (evaluateGate check gate).status = .error) &&
        gate.severity = "blocking") := rfl
  rw [hblocking]
  simp only [Bool.and_eq_true, Bool.or_eq_true, decide_eq_true_eq]
  constructor
  · rintro ⟨hstatus, hseverity⟩
    refine ⟨hseverity, ?_⟩
    rcases hstatus with hstatus | hstatus <;> rw [hstatus] <;> decide
  · rintro ⟨hseverity, hstatus⟩
    refine ⟨?_, hseverity⟩
    have hverdict : (evaluateGate check gate).status.IsVerdict :=
      evaluateGate_isVerdict (by rw [hseverity]; decide) (by rw [hseverity]; decide)
    exact hverdict.resolve_left hstatus

def GateCriterion.AppliesTo (gate : GateCriterion) (stageId : String) : Prop :=
  gate.enabled = true ∧ (gate.stageId = none ∨ gate.stageId = some stageId)

theorem mem_gatesForStage {gates : List GateCriterion} {stageId : String}
    {gate : GateCriterion} :
    gate ∈ gatesForStage gates stageId ↔ gate ∈ gates ∧ gate.AppliesTo stageId := by
  unfold gatesForStage
  rw [(List.perm_insertionSort _ _).mem_iff]
  simp [GateCriterion.AppliesTo]

/-- The gate is evaluated, and every evaluation of it passes. -/
def Passes (env : GateEnv) (gates : List GateCriterion) (stageId : String)
    (gate : GateCriterion) : Prop :=
  gate ∈ gatesForStage gates stageId ∧
    ∀ position, (gatesForStage gates stageId)[position]? = some gate →
      (evaluateGate (env.checks position) gate).status = .pass

/-- The call found the stage active and left it complete. -/
def MovesToComplete (manager : StateManager) (env : CompleteEnv) (stageId : String)
    (d : Disk) : Prop :=
  d.stateJson.view.status? stageId = some .active ∧
    ((manager.completeStage env stageId).exec d).2.stateJson.view.status? stageId =
      some .complete

/-- `complete_stage` moves the stage to complete only if every gate that
applies passes, unless its severity is `warning` or `advisory`. -/
def FailsClosed (manager : StateManager) (env : CompleteEnv) (stageId : String)
    (d : Disk) : Prop :=
  MovesToComplete manager env stageId d → ∀ gates, env.gates.gates = .ok gates →
    ∀ gate ∈ gates, gate.AppliesTo stageId → gate.severity ≠ "warning" →
      gate.severity ≠ "advisory" → Passes env.gates gates stageId gate

/-- A severity the schema does not name. -/
def Unrecognised (severity : String) : Prop :=
  severity ≠ "blocking" ∧ severity ≠ "warning" ∧ severity ≠ "advisory"

/-- The call gets to write the completion: the stage is active, the gates are
evaluated, those of severity `blocking` pass, and `state.json` is writable. -/
structure WritesCompletion (manager : StateManager) (env : CompleteEnv) (stageId : String)
    (gates : List GateCriterion) (d : Disk) : Prop where
  active : d.stateJson.view.status? stageId = some .active
  started : env.gates.started.Succeeds manager.hookRegistry .gateStarted
  loaded : env.gates.gates = .ok gates
  completed : env.gates.completed.Succeeds manager.hookRegistry .gateCompleted
  written : env.transition.save.stateWrite = .written
  blocking : ∀ gate ∈ gates, gate.AppliesTo stageId → gate.severity = "blocking" →
    Passes env.gates gates stageId gate

/-- The results of the evaluation, gate by gate. -/
private theorem mem_results {env : GateEnv} {gates : List GateCriterion} {stageId : String}
    {results : List GateResult} (hgates : env.gates = .ok gates)
    (hresults : gateResults env stageId = .ok results) (result : GateResult) :
    result ∈ results ↔ ∃ position gate, (gatesForStage gates stageId)[position]? = some gate ∧
      result = evaluateGate (env.checks position) gate := by
  rw [gateResults, hgates] at hresults
  cases hresults
  rw [List.mem_iff_getElem?]
  constructor
  · rintro ⟨position, hposition⟩
    rw [List.getElem?_mapIdx, Option.map_eq_some_iff] at hposition
    obtain ⟨gate, hgate, rfl⟩ := hposition
    exact ⟨position, gate, hgate, rfl⟩
  · rintro ⟨position, gate, hgate, rfl⟩
    exact ⟨position, by rw [List.getElem?_mapIdx, hgate]; rfl⟩

/-- No result blocks exactly when the gates of severity `blocking` pass. -/
private theorem any_blocking_iff {env : GateEnv} {gates : List GateCriterion} {stageId : String}
    {results : List GateResult} (hgates : env.gates = .ok gates)
    (hresults : gateResults env stageId = .ok results) :
    results.any GateResult.blocking = false ↔ ∀ gate ∈ gates, gate.AppliesTo stageId →
      gate.severity = "blocking" → Passes env gates stageId gate := by
  rw [List.any_eq_false]
  constructor
  · intro hnone gate hmember happlies hseverity
    refine ⟨mem_gatesForStage.mpr ⟨hmember, happlies⟩, fun position hposition => ?_⟩
    by_contra hstatus
    apply hnone (evaluateGate (env.checks position) gate)
    · exact (mem_results hgates hresults _).mpr ⟨position, gate, hposition, rfl⟩
    · exact evaluateGate_blocking_iff.mpr ⟨hseverity, hstatus⟩
  · intro hpass result hresult hblocking
    obtain ⟨position, gate, hposition, rfl⟩ := (mem_results hgates hresults result).mp hresult
    obtain ⟨hseverity, hstatus⟩ := evaluateGate_blocking_iff.mp hblocking
    obtain ⟨hmember, happlies⟩ := mem_gatesForStage.mp (List.mem_of_getElem? hposition)
    exact hstatus ((hpass gate hmember happlies hseverity).2 position hposition)

/-- `complete_stage` moves a stage to complete exactly when it gets to write
the completion. -/
theorem movesToComplete_iff (manager : StateManager) (env : CompleteEnv) (stageId : String)
    {gates : List GateCriterion} (hgates : env.gates.gates = .ok gates) (d : Disk) :
    MovesToComplete manager env stageId d ↔ WritesCompletion manager env stageId gates d := by
  have hstuck {d' : Disk} (hactive : d.stateJson.view.status? stageId = some .active)
      (hview : d'.stateJson.view = d.stateJson.view) :
      d'.stateJson.view.status? stageId ≠ some .complete := by
    rw [hview, hactive]
    decide
  cases manager.completeStage_outcome env stageId d with
  | refused message hnot hexec =>
      exact ⟨fun h => absurd h.1 hnot, fun h => absurd h.active hnot⟩
  | interrupted failure d₁ hactive hquiet hfailure hnot hexec =>
      constructor
      · rintro ⟨-, hcomplete⟩
        rw [hexec] at hcomplete
        exact absurd hcomplete (hstuck hactive (congrArg _ hquiet.stateJson))
      · intro h
        obtain ⟨results, hresults⟩ : ∃ results, gateResults env.gates stageId = .ok results := by
          rw [gateResults, h.loaded]
          exact ⟨_, rfl⟩
        exact absurd ⟨h.started, hresults, h.completed⟩ (hnot results)
  | blocks results next d₁ hactive hquiet hevaluates hblocking hfollows hexec =>
      constructor
      · rintro ⟨-, hcomplete⟩
        rw [hexec, manager.exec_commit_bind_snd _ _ _ _ _ _ fun _ _ => rfl,
          manager.commit_view] at hcomplete
        split at hcomplete
        · rw [hfollows.view, View.status?, Transition.apply, Dict.get?_set, if_pos rfl] at hcomplete
          cases hcomplete
        · exact absurd hcomplete (hstuck hactive (congrArg _ hquiet.stateJson))
      · intro h
        rw [(any_blocking_iff hgates hevaluates.results).mpr h.blocking] at hblocking
        cases hblocking
  | completes results next d₁ hactive hquiet hevaluates hblocking hfollows hexec =>
      have hview : ((manager.completeStage env stageId).exec d).2.stateJson.view =
          if env.transition.save.stateWrite = .written then next.view
          else d₁.stateJson.view := by
        rw [hexec, manager.exec_commit_bind_snd _ _ _ _ _ _ (StateManager.exec_reflection_snd env),
          manager.commit_view]
      constructor
      · rintro ⟨-, hcomplete⟩
        refine ⟨hactive, hevaluates.started, hgates, hevaluates.completed, ?_,
          (any_blocking_iff hgates hevaluates.results).mp hblocking⟩
        by_contra hunwritten
        rw [if_neg hunwritten] at hview
        exact hstuck hactive (hview.trans (congrArg _ hquiet.stateJson)) hcomplete
      · intro h
        refine ⟨hactive, ?_⟩
        rw [hview, if_pos h.written, hfollows.view, View.status?, Transition.apply,
          Dict.get?_set, if_pos rfl]

/-- `complete_stage` fails closed exactly when no gate of an unrecognised
severity fails while the call gets to write the completion. A failed gate blocks
only if its severity is literally `blocking`. -/
theorem failsClosed_iff (manager : StateManager) (env : CompleteEnv) (stageId : String)
    (d : Disk) :
    FailsClosed manager env stageId d ↔
      ∀ gates, WritesCompletion manager env stageId gates d →
        ∀ gate ∈ gates, gate.AppliesTo stageId → Unrecognised gate.severity →
          Passes env.gates gates stageId gate := by
  constructor
  · intro hclosed gates hwrites gate hmember happlies hseverity
    have hmoves := (movesToComplete_iff manager env stageId hwrites.loaded d).mpr hwrites
    exact hclosed hmoves gates hwrites.loaded gate hmember happlies hseverity.2.1 hseverity.2.2
  · intro hpasses hmoves gates hgates gate hmember happlies hwarning hadvisory
    have hwrites := (movesToComplete_iff manager env stageId hgates d).mp hmoves
    by_cases hblocking : gate.severity = "blocking"
    · exact hwrites.blocking gate hmember happlies hblocking
    · exact hpasses gates hwrites gate hmember happlies ⟨hblocking, hwarning, hadvisory⟩

/-- Two gates on a missing file, of severities the schema does not name. -/
def misspelledGates : List GateCriterion := [
  { id := "design", name := "Design", type := "required_file", severity := "critical"
    criteria := [("path", .str "docs/design.md")] },
  { id := "tests", name := "Tests", type := "required_file", severity := "Blocking"
    criteria := [("path", .str "docs/tests.md")] }]

/-- Both gates fail, and the stage completes. -/
theorem not_failsClosed :
    ¬ FailsClosed .demo (.calm "1" misspelledGates) "srs" .demo := by
  intro hclosed
  have hmoves : MovesToComplete .demo (.calm "1" misspelledGates) "srs" .demo := by
    refine ⟨?_, ?_⟩ <;> decide
  have hpasses := hclosed hmoves misspelledGates rfl misspelledGates[0]
    (List.getElem_mem _) ⟨rfl, Or.inl rfl⟩ (by decide) (by decide)
  have hstatus := hpasses.2 0 rfl
  exact absurd hstatus (by decide)

end ForgeOS
