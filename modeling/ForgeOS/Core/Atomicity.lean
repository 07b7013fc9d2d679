import ForgeOS.Core.Invariants

/-!
What a call that raises leaves in `state.json`. An `advance` that is refused
in its second half keeps the first half, and a side effect that fails after
`state.json` was written keeps the transition. Both theorems say exactly when.
-/

namespace ForgeOS

open Library

/-- The files after some run of calls on a scaffolded project, whose stages
are distinct. -/
def Reachable (d : Disk) : Prop :=
  ∃ profile uuid timestamp markdown, ∃ stages : List String, ∃ calls : List Call,
    stages.Nodup ∧
      d = run Call.step (Disk.scaffolded (buildStateOf profile uuid timestamp stages) markdown)
        calls

theorem Reachable.view {d : Disk} (h : Reachable d) :
    d.stateJson.view.ids.Nodup ∧ d.stateJson.view.SingleActive := by
  obtain ⟨profile, uuid, timestamp, markdown, stages, calls, hstages, rfl⟩ := h
  exact (run_singleActive profile uuid timestamp markdown hstages calls).now

theorem Reachable.of_run (calls : List Call) : Reachable (run Call.step Disk.demo calls) :=
  ⟨"minimal", "0", "2025-01-01T00:00:00Z", "", minimalStages, calls, by decide, rfl⟩

/-! ### A refused advance -/

/-- An `advance` that is refused leaves the lifecycle as it was, except that
a failing gate may have blocked the active stage. -/
def AdvanceAtomic (manager : StateManager) (env : AdvanceEnv) (d : Disk) : Prop :=
  ∀ message d', (manager.advance env).exec d = (.error (.stateTransition message), d') →
    d'.stateJson.view = d.stateJson.view ∨
      ∃ stageId results, d.stateJson.currentStageId = some stageId ∧
        d.stateJson.view.status? stageId = some .active ∧
        env.complete.gates.Evaluates manager.hookRegistry stageId results ∧
        results.any GateResult.blocking = true ∧
        d'.stateJson.view = (Transition.blocked stageId).apply d.stateJson.view

/-- The current stage is active and would complete, and the stage after it is
complete already. -/
def AdvancesOntoComplete (manager : StateManager) (env : AdvanceEnv) (d : Disk) : Prop :=
  ∃ stageId next, d.stateJson.currentStageId = some stageId ∧
    d.stateJson.view.status? stageId = some .active ∧
    env.complete.GoesThrough manager.hookRegistry stageId ∧
    d.stateJson.view.next? stageId = some (next, .complete)

/-- A start is refused, and leaves the files as they were, exactly when the
stage cannot start. -/
theorem StateManager.startStage_refused_iff (manager : StateManager) (env : TransitionEnv)
    (stageId : String) (d : Disk) :
    (∃ message d', (manager.startStage env stageId).exec d =
        (.error (.stateTransition message), d')) ↔ ¬ d.stateJson.view.CanStart stageId := by
  cases manager.startStage_outcome env stageId d with
  | refused message hnot hexec => exact ⟨fun _ => hnot, fun _ => ⟨message, d, hexec⟩⟩
  | commits next hcan hfollows hexec =>
      refine ⟨?_, fun hnot => absurd hcan hnot⟩
      rintro ⟨message, d', h⟩
      exact absurd (hexec.symm.trans h) commit_not_refused

/-- A refused `complete_stage` of an active stage was blocked by a gate. -/
theorem StateManager.completeStage_refused {manager : StateManager} {env : CompleteEnv}
    {stageId message : String} {d d' : Disk}
    (hactive : d.stateJson.view.status? stageId = some .active)
    (h : (manager.completeStage env stageId).exec d = (.error (.stateTransition message), d')) :
    ∃ results, env.gates.Evaluates manager.hookRegistry stageId results ∧
      results.any GateResult.blocking = true ∧
      d'.stateJson.view = (Transition.blocked stageId).apply d.stateJson.view := by
  cases manager.completeStage_outcome env stageId d with
  | refused message' hnot hexec => exact absurd hactive hnot
  | interrupted failure d₁ hactive hquiet hfailure hnot hexec =>
      cases h.symm.trans hexec
      exact absurd rfl (hfailure message)
  | blocks results next d₁ hactive hquiet hevaluates hblocking hfollows hexec =>
      refine ⟨results, hevaluates, hblocking, ?_⟩
      rw [h, Effect.exec_bind] at hexec
      rcases hcommit : (manager.commit env.transition next (.blocked stageId) none).exec d₁ with
        ⟨failure | returned, d₂⟩
      · rw [hcommit] at hexec
        cases hexec
        exact absurd hcommit commit_not_refused
      · obtain ⟨d₃, hcommitted, hwrote, -⟩ := commit_of_commits (commits_of_ok hcommit) next none d₁
        rw [hcommitted] at hexec
        cases hexec
        rw [hwrote.stateJson, ← hfollows.view]
        rfl
  | completes results next d₁ hactive hquiet hevaluates hblocking hfollows hexec =>
      rw [h, Effect.exec_bind] at hexec
      rcases hcommit : (manager.commit env.transition next (.completed stageId) none).exec d₁ with
        ⟨failure | returned, d₂⟩
      · rw [hcommit] at hexec
        cases hexec
        exact absurd hcommit commit_not_refused
      · rw [hcommit] at hexec
        simp only [Effect.exec_bind, Effect.exec_ofExcept] at hexec
        cases hreflect : env.reflection <;> rw [hreflect] at hexec <;> cases hexec

theorem StateManager.save_not_refused {manager : StateManager} {env : SaveEnv}
    {state : PipelineState} {d d' : Disk} {message : String} :
    (manager.save env state).exec d ≠ (.error (.stateTransition message), d') := by
  intro h
  cases manager.save_outcome env state d with
  | notWritten failure hfailure hstate hexec =>
      cases h.symm.trans hexec
      exact hfailure
  | configFailed message hstate hconfig hexec => cases h.symm.trans hexec
  | mirrorFailed failure hfailure hstate hconfig hmarkdown hexec =>
      cases h.symm.trans hexec
      exact hfailure
  | saved markdown hsaves hexec => cases h.symm.trans hexec

/-- The statuses of a stage before and after it completes differ. -/
private theorem completed_ne {v : View} {stageId : String}
    (hactive : v.status? stageId = some .active) :
    (Transition.completed stageId).apply v ≠ v := by
  intro h
  have hstatus : ((Transition.completed stageId).apply v).status? stageId = some .complete := by
    rw [View.status?, Transition.apply, Dict.get?_set, if_pos rfl]
  rw [h, hactive] at hstatus
  cases hstatus

/-- An `advance` onto a complete stage completes the current one, and is then
refused. -/
private theorem advance_ontoComplete {manager : StateManager} {env : AdvanceEnv} {d : Disk}
    (hids : d.stateJson.view.ids.Nodup) (hsingle : d.stateJson.view.SingleActive)
    {stageId next : String} (hcurrent : d.stateJson.currentStageId = some stageId)
    (hactive : d.stateJson.view.status? stageId = some .active)
    (hthrough : env.complete.GoesThrough manager.hookRegistry stageId)
    (hnext : d.stateJson.view.next? stageId = some (next, .complete)) :
    ∃ message d', (manager.advance env).exec d = (.error (.stateTransition message), d') ∧
      d'.stateJson.view = (Transition.completed stageId).apply d.stateJson.view := by
  obtain ⟨completed, d₁, hcomplete⟩ := StateManager.completeStage_of_goesThrough hactive hthrough
  have hcompleted := StateManager.completeStage_ok hcomplete
  have hview : d₁.stateJson.view = (Transition.completed stageId).apply d.stateJson.view := by
    rw [hcompleted.stateJson, hcompleted.view]
  cases manager.advance_outcome env d with
  | continues stageId' completed' next' status d₂ hcurrent' hactive' hnext' hcomplete' hexec =>
      cases Option.some.inj (hcurrent.symm.trans hcurrent')
      cases hcomplete.symm.trans hcomplete'
      cases hnext.symm.trans hnext'
      have hcannot : ¬ d₁.stateJson.view.CanStart next := by
        rw [hview, hsingle.canStart_next hids hactive hnext]
        exact fun hne => hne rfl
      cases manager.startStage_outcome env.start next d₁ with
      | commits _ hcan _ _ => exact absurd hcan hcannot
      | refused message hnot hrefused => exact ⟨message, d₁, hexec.trans hrefused, hview⟩
  | finished message hcurrent' hnone hexec => cases hcurrent.symm.trans hcurrent'
  | starts stage hcurrent' hfirst hexec => cases hcurrent.symm.trans hcurrent'
  | refused stageId' message hcurrent' hnot hexec =>
      cases Option.some.inj (hcurrent.symm.trans hcurrent')
      exact absurd hactive hnot
  | stopped stageId' failure d₂ hcurrent' hactive' hcomplete' hexec =>
      cases Option.some.inj (hcurrent.symm.trans hcurrent')
      cases hcomplete.symm.trans hcomplete'
  | ends stageId' completed' d₂ hcurrent' hactive' hlast hcomplete' hexec =>
      cases Option.some.inj (hcurrent.symm.trans hcurrent')
      cases hnext.symm.trans hlast

/-- From every reachable state, a refused `advance` is atomic unless it completes
the current stage and then meets a next stage that is complete already. The
completion has been saved by then, and is not taken back. -/
theorem advanceAtomic_iff (manager : StateManager) (env : AdvanceEnv) (d : Disk)
    (h : Reachable d) :
    AdvanceAtomic manager env d ↔ ¬ AdvancesOntoComplete manager env d := by
  obtain ⟨hids, hsingle⟩ := h.view
  constructor
  · rintro hatomic ⟨stageId, next, hcurrent, hactive, hthrough, hnext⟩
    obtain ⟨message, d', hrefused, hview⟩ :=
      advance_ontoComplete hids hsingle hcurrent hactive hthrough hnext
    rcases hatomic message d' hrefused with
      hsame | ⟨stageId', results, hcurrent', -, hevaluates, hblocking, -⟩
    · exact completed_ne hactive (hview.symm.trans hsame)
    · -- gates that let the stage through do not block it
      cases Option.some.inj (hcurrent.symm.trans hcurrent')
      obtain ⟨results', hevaluates', hpass⟩ := hthrough.gates
      rw [hevaluates.unique hevaluates', hpass] at hblocking
      cases hblocking
  · intro hnot message d' hrefused
    cases manager.advance_outcome env d with
    | finished message' hcurrent hnone hexec =>
        cases hrefused.symm.trans hexec
        exact Or.inl rfl
    | refused stageId message' hcurrent hnot' hexec =>
        cases hrefused.symm.trans hexec
        exact Or.inl rfl
    | starts stage hcurrent hfirst hexec =>
        cases manager.startStage_outcome env.start stage.stageId d with
        | refused message' hnot' hstart =>
            cases hrefused.symm.trans (hexec.trans hstart)
            exact Or.inl rfl
        | commits next hcan hfollows hstart =>
            exact absurd ((hexec.trans hstart).symm.trans hrefused)
              StateManager.commit_not_refused
    | stopped stageId failure d₁ hcurrent hactive hcomplete hexec =>
        cases hrefused.symm.trans hexec
        obtain ⟨results, hevaluates, hblocking, hview⟩ :=
          StateManager.completeStage_refused hactive hcomplete
        exact Or.inr ⟨stageId, results, hcurrent, hactive, hevaluates, hblocking, hview⟩
    | continues stageId completed next status d₁ hcurrent hactive hnext hcomplete hexec =>
        have hcompleted := StateManager.completeStage_ok hcomplete
        have hincomplete : status ≠ .complete := by
          rintro rfl
          exact hnot ⟨stageId, next, hcurrent, hactive, hcompleted.through, hnext⟩
        have hcan : d₁.stateJson.view.CanStart next := by
          rw [hcompleted.stateJson, hcompleted.view, hsingle.canStart_next hids hactive hnext]
          exact hincomplete
        exact absurd hcan ((manager.startStage_refused_iff env.start next d₁).mp
          ⟨message, d', hexec.symm.trans hrefused⟩)
    | ends stageId completed d₁ hcurrent hactive hlast hcomplete hexec =>
        exact absurd (hexec.symm.trans hrefused) StateManager.save_not_refused

/-- Two advances, an override back to the first stage, and a third advance:
the first stage completes and the start of the second is refused. -/
def backAndForth : List Call := [
  ⟨.demo, .advance (.calm "1" "2")⟩,
  ⟨.demo, .advance (.calm "3" "4")⟩,
  ⟨.demo, .overrideStage (.calm "5") "srs" "rework"⟩]

theorem advanceAtomic_iff_backAndForth :
    AdvanceAtomic .demo (.calm "6" "7") (run Call.step .demo backAndForth) ↔
      ¬ AdvancesOntoComplete .demo (.calm "6" "7") (run Call.step .demo backAndForth) :=
  advanceAtomic_iff _ _ _ (.of_run backAndForth)

theorem not_advanceAtomic :
    Reachable (run Call.step .demo backAndForth) ∧
      ¬ AdvanceAtomic .demo (.calm "6" "7") (run Call.step .demo backAndForth) := by
  refine ⟨.of_run backAndForth, fun hatomic => ?_⟩
  have hbefore : (run Call.step .demo backAndForth).stateJson.view =
      ⟨[("srs", .active), ("build", .complete), ("deploy", .blocked)], some "srs"⟩ := by decide
  let after := (StateManager.demo.advance (.calm "6" "7")).exec (run Call.step .demo backAndForth)
  have hrefused : after.1 = .error (.stateTransition "Stage `build` is already complete.") := rfl
  have hafter : after.2.stateJson.view =
      ⟨[("srs", .complete), ("build", .complete), ("deploy", .blocked)], none⟩ := by decide
  rcases hatomic _ after.2 (Prod.ext hrefused rfl) with hsame | ⟨stageId, -, -, -, -, -, hblocked⟩
  · rw [hafter, hbefore] at hsame
    exact absurd hsame (by decide)
  · rw [hafter, hbefore] at hblocked
    have hcurrent := congrArg View.current hblocked
    cases hcurrent

/-! ### A failed side effect -/

/-- A computation that raises because a hook, the configuration or the memory
stores failed leaves the lifecycle as it was. -/
def SideEffectSafe (m : Forge PipelineState) (d : Disk) : Prop :=
  ∀ failure d', m.exec d = (.error failure, d') → failure.IsSideEffect →
    d'.stateJson.view = d.stateJson.view

/-- The gates are evaluated, and a side effect fails after the decision was
written: in the transition they decided on, or in the reflection after it. -/
def CompleteEnv.Aborts (env : CompleteEnv) (registry : HookRegistry) (stageId : String) : Prop :=
  ∃ results, env.gates.Evaluates registry stageId results ∧
    if results.any GateResult.blocking then env.transition.Aborts registry .stageBlocked
    else env.transition.Aborts registry .stageCompleted ∨
      (env.transition.Commits registry .stageCompleted ∧
        ∃ message, env.reflection = .error message)

/-- The configuration cannot be loaded after the final write of `state.json`. -/
def SaveEnv.Aborts (env : SaveEnv) : Prop :=
  env.stateWrite = .written ∧ ∃ message, env.config = .error message

/-- The second half of an `advance` aborts after the first one has completed
the stage. -/
def AdvanceEnv.AbortsAfter (env : AdvanceEnv) (registry : HookRegistry)
    (next : Option (String × StageStatus)) : Prop :=
  match next with
  | some (_, status) => status ≠ .complete ∧ env.start.Aborts registry .stageStarted
  | none => env.final.Aborts

/-- A request that passes its guards, writes a changed lifecycle, and then
meets a failing side effect. -/
def Request.Aborts (registry : HookRegistry) (d : Disk) : Request → Prop
  | .startStage env stageId =>
      d.stateJson.view.CanStart stageId ∧ env.Aborts registry .stageStarted
  | .completeStage env stageId =>
      d.stateJson.view.status? stageId = some .active ∧ env.Aborts registry stageId
  | .advance env =>
      match d.stateJson.currentStageId with
      | none => ∃ stage, firstNotStartedStage d.stateJson = some stage ∧
          d.stateJson.view.CanStart stage.stageId ∧ env.start.Aborts registry .stageStarted
      | some stageId => d.stateJson.view.status? stageId = some .active ∧
          (env.complete.Aborts registry stageId ∨
            (env.complete.GoesThrough registry stageId ∧
              env.AbortsAfter registry (d.stateJson.view.next? stageId)))
  | .overrideStage env stageId reason =>
      pyStrip reason ≠ "" ∧ stageId ∈ d.stateJson.view.ids ∧
        ¬ (d.stateJson.currentStageId = some stageId ∧
          d.stateJson.view.status? stageId = some .active) ∧
        env.Aborts registry .stageOverride

/-- The computation raises the error of a side effect and has changed the
lifecycle. -/
def Breaks (m : Forge PipelineState) (d : Disk) : Prop :=
  ∃ failure d', m.exec d = (.error failure, d') ∧ failure.IsSideEffect ∧
    d'.stateJson.view ≠ d.stateJson.view

theorem sideEffectSafe_iff (m : Forge PipelineState) (d : Disk) :
    SideEffectSafe m d ↔ ¬ Breaks m d := by
  constructor
  · rintro hsafe ⟨failure, d', hexec, hside, hchanged⟩
    exact hchanged (hsafe failure d' hexec hside)
  · intro hnot failure d' hexec hside
    by_contra hchanged
    exact hnot ⟨failure, d', hexec, hside, hchanged⟩

section SideEffects

variable (manager : StateManager)

/-- A commit that changes the lifecycle breaks exactly when it aborts, or when
what follows it raises a side effect's error. -/
private theorem commit_bind_breaks_iff {env : TransitionEnv} {state : PipelineState}
    {t : Transition} {reason : Option String} {d : Disk}
    (hchanged : state.view ≠ d.stateJson.view) (next : PipelineState → Forge PipelineState)
    (result : PipelineState → Except Failure PipelineState)
    (hnext : ∀ logged d', (next logged).exec d' = (result logged, d')) :
    Breaks (manager.commit env state t reason >>= next) d ↔
      env.Aborts manager.hookRegistry t.eventType ∨
        (env.Commits manager.hookRegistry t.eventType ∧ ∃ failure : Failure,
          failure.IsSideEffect ∧
            result (env.log.stamp (env.save.stamp state)) = .error failure) := by
  constructor
  · rintro ⟨failure, d', hexec, hside, -⟩
    rw [Effect.exec_bind] at hexec
    rcases hcommit : (manager.commit env state t reason).exec d with ⟨failure' | logged, d₁⟩
    · rw [hcommit] at hexec
      cases hexec
      exact Or.inl ((manager.commit_sideEffect_iff env state t reason d).mp
        ⟨failure, d', hcommit, hside⟩)
    · have hcommits := StateManager.commits_of_ok hcommit
      obtain ⟨d₂, hcommitted, -⟩ := StateManager.commit_of_commits hcommits state reason d
      rw [hcommitted] at hexec
      simp only [hnext, Prod.mk.injEq] at hexec
      exact Or.inr ⟨hcommits, failure, hside, hexec.1⟩
  · rintro (haborts | ⟨hcommits, failure, hside, hresult⟩)
    · obtain ⟨failure, d', hcommit, hside⟩ :=
        (manager.commit_sideEffect_iff env state t reason d).mpr haborts
      refine ⟨failure, d', Effect.exec_bind_error _ hcommit, hside, ?_⟩
      rcases StateManager.commit_error hcommit with ⟨hwrite, -⟩ | ⟨-, -, -, hview⟩
      · exact absurd hside hwrite.not_sideEffect
      · rw [hview]
        exact hchanged
    · obtain ⟨d', hcommit, hwrote, -⟩ := StateManager.commit_of_commits hcommits state reason d
      refine ⟨failure, d', ?_, hside, ?_⟩
      · rw [Effect.exec_bind_ok _ hcommit, hnext, hresult]
      · rw [hwrote.stateJson]
        exact hchanged

private theorem commit_breaks_iff {env : TransitionEnv} {state : PipelineState}
    {t : Transition} {reason : Option String} {d : Disk}
    (hchanged : state.view ≠ d.stateJson.view) :
    Breaks (manager.commit env state t reason) d ↔
      env.Aborts manager.hookRegistry t.eventType := by
  rw [← bind_pure (manager.commit env state t reason),
    commit_bind_breaks_iff manager hchanged pure .ok fun _ _ => rfl]
  simp

/-- An operation breaks when what it reduces to does. -/
private theorem Breaks.congr {m m' : Forge PipelineState} {d d₁ : Disk}
    (hexec : m.exec d = m'.exec d₁) (hstate : d₁.stateJson = d.stateJson) :
    Breaks m d ↔ Breaks m' d₁ := by
  unfold Breaks
  rw [hexec, hstate]

private theorem not_breaks_of_refused {m : Forge PipelineState} {d d' : Disk} {message : String}
    (hexec : m.exec d = (.error (.stateTransition message), d')) : ¬ Breaks m d := by
  rintro ⟨failure, d'', h, hside, -⟩
  cases h.symm.trans hexec
  exact hside

/-- A view whose status of some stage differs is another view. -/
private theorem view_ne {v w : View} (stageId : String)
    (h : v.status? stageId ≠ w.status? stageId) : v ≠ w := by
  rintro rfl
  exact h rfl

private theorem status?_set (stages : Dict String StageStatus) (current : Option String)
    (stageId : String) (status : StageStatus) :
    View.status? ⟨stages.set stageId status, current⟩ stageId = some status := by
  rw [View.status?, Dict.get?_set, if_pos rfl]

private theorem startStage_breaks_iff (env : TransitionEnv) (stageId : String) (d : Disk) :
    Breaks (manager.startStage env stageId) d ↔
      d.stateJson.view.CanStart stageId ∧ env.Aborts manager.hookRegistry .stageStarted := by
  cases manager.startStage_outcome env stageId d with
  | refused message hnot hexec =>
      exact ⟨fun h => absurd h (not_breaks_of_refused hexec), fun h => absurd h.1 hnot⟩
  | commits next hcan hfollows hexec =>
      have hchanged : next.view ≠ d.stateJson.view := by
        obtain ⟨status, hstatus, hinactive, -⟩ := hcan.status
        apply view_ne stageId
        rw [hfollows.view, Transition.apply, status?_set, hstatus]
        exact fun h => hinactive (Option.some.inj h).symm
      rw [Breaks.congr hexec rfl, commit_breaks_iff manager hchanged]
      exact ⟨fun h => ⟨hcan, h⟩, fun h => h.2⟩

private theorem startStage_raises_iff (env : TransitionEnv) (stageId : String) (d : Disk) :
    (∃ failure d', (manager.startStage env stageId).exec d = (.error failure, d') ∧
        failure.IsSideEffect) ↔
      d.stateJson.view.CanStart stageId ∧ env.Aborts manager.hookRegistry .stageStarted := by
  cases manager.startStage_outcome env stageId d with
  | refused message hnot hexec =>
      refine ⟨?_, fun h => absurd h.1 hnot⟩
      rintro ⟨failure, d', h, hside⟩
      cases h.symm.trans hexec
      exact absurd hside id
  | commits next hcan hfollows hexec =>
      rw [hexec, manager.commit_sideEffect_iff env next (.started stageId) none d]
      exact ⟨fun h => ⟨hcan, h⟩, fun h => h.2⟩

private theorem completeStage_breaks_iff (env : CompleteEnv) (stageId : String) (d : Disk) :
    Breaks (manager.completeStage env stageId) d ↔
      d.stateJson.view.status? stageId = some .active ∧
        env.Aborts manager.hookRegistry stageId := by
  cases manager.completeStage_outcome env stageId d with
  | refused message hnot hexec =>
      exact ⟨fun h => absurd h (not_breaks_of_refused hexec), fun h => absurd h.1 hnot⟩
  | interrupted failure d₁ hactive hquiet hfailure hnot hexec =>
      constructor
      · rintro ⟨failure', d', h, -, hchanged⟩
        cases h.symm.trans hexec
        exact absurd (congrArg PipelineState.view hquiet.stateJson) hchanged
      · rintro ⟨-, results, hevaluates, -⟩
        exact absurd hevaluates (hnot results)
  | blocks results next d₁ hactive hquiet hevaluates hblocking hfollows hexec =>
      have hchanged : next.view ≠ d₁.stateJson.view := by
        apply view_ne stageId
        rw [hquiet.stateJson, hactive, hfollows.view, Transition.apply, status?_set]
        decide
      have hthrow (logged : PipelineState) (d' : Disk) :
          (throw (.stateTransition (gateBlockReason results)) : Forge PipelineState).exec d' =
            (.error (.stateTransition (gateBlockReason results)), d') := rfl
      rw [Breaks.congr hexec hquiet.stateJson,
        commit_bind_breaks_iff manager hchanged _ _ hthrow]
      constructor
      · rintro (haborts | ⟨-, failure, hside, hfailure⟩)
        · exact ⟨hactive, results, hevaluates, by rw [if_pos hblocking]; exact haborts⟩
        · cases hfailure
          exact absurd hside id
      · rintro ⟨-, results', hevaluates', haborts⟩
        rw [hevaluates'.unique hevaluates, if_pos hblocking] at haborts
        exact Or.inl haborts
  | completes results next d₁ hactive hquiet hevaluates hblocking hfollows hexec =>
      have hchanged : next.view ≠ d₁.stateJson.view := by
        apply view_ne stageId
        rw [hquiet.stateJson, hactive, hfollows.view, Transition.apply, status?_set]
        decide
      have hreflect (logged : PipelineState) (d' : Disk) :
          (do Effect.ofExcept (env.reflection.mapError .memory)
              return logged : Forge PipelineState).exec d' =
            ((env.reflection.mapError .memory).map fun _ => logged, d') := by
        rw [Effect.exec_bind, Effect.exec_ofExcept]
        cases env.reflection <;> rfl
      rw [Breaks.congr hexec hquiet.stateJson,
        commit_bind_breaks_iff manager hchanged _ _ hreflect]
      constructor
      · intro h
        refine ⟨hactive, results, hevaluates, ?_⟩
        rw [hblocking, if_neg (by decide)]
        rcases h with haborts | ⟨hcommits, failure, -, hfailure⟩
        · exact Or.inl haborts
        · refine Or.inr ⟨hcommits, ?_⟩
          cases hreflection : env.reflection with
          | error message => exact ⟨message, rfl⟩
          | ok _ =>
              rw [hreflection] at hfailure
              cases hfailure
      · rintro ⟨-, results', hevaluates', haborts⟩
        rw [hevaluates'.unique hevaluates, hblocking, if_neg (by decide)] at haborts
        rcases haborts with htransition | ⟨hcommits, message, hreflection⟩
        · exact Or.inl htransition
        · refine Or.inr ⟨hcommits, .memory message, trivial, ?_⟩
          rw [hreflection]
          rfl

/-- In a reachable state an override changes nothing only when its stage is
the active one already. -/
private theorem overridden_eq_iff {v : View} (hsingle : v.SingleActive) {stageId : String}
    (hids : v.ids.Nodup) (hknown : stageId ∈ v.ids) :
    (Transition.overridden stageId).apply v = v ↔
      v.current = some stageId ∧ v.status? stageId = some .active := by
  constructor
  · intro h
    refine ⟨(congrArg View.current h).symm, ?_⟩
    obtain ⟨entry, hentry, rfl⟩ := List.mem_map.mp hknown
    have hmember : (entry.1, StageStatus.active) ∈ v.stages := by
      rw [← congrArg View.stages h]
      exact List.mem_map.mpr ⟨entry, hentry, by simp [overriddenStatus]⟩
    exact Dict.get?_of_mem hids hmember
  · rintro ⟨hcurrent, hactive⟩
    have hstages : v.stages.map (fun entry => (entry.1, overriddenStatus stageId entry)) =
        v.stages := by
      conv_rhs => rw [← List.map_id v.stages]
      apply List.map_congr_left
      intro entry hentry
      by_cases hid : entry.1 = stageId
      · have hvalue := Dict.get?_of_mem hids hentry
        rw [hid] at hvalue
        have hstatus : entry.2 = .active := Option.some.inj (hvalue.symm.trans hactive)
        simp [overriddenStatus, hid, ← hstatus, Prod.ext_iff]
      · have hinactive : entry.2 ≠ .active := by
          intro hstatus
          have hpointer := hsingle.current entry hentry hstatus
          exact hid (Option.some.inj (hpointer.symm.trans hcurrent))
        simp [overriddenStatus, hid, hinactive]
    rw [Transition.apply, hstages, ← hcurrent]

private theorem overrideStage_breaks_iff (env : TransitionEnv) (stageId reason : String)
    {d : Disk} (h : Reachable d) :
    Breaks (manager.overrideStage env stageId reason) d ↔
      Request.Aborts manager.hookRegistry d (.overrideStage env stageId reason) := by
  obtain ⟨hids, hsingle⟩ := h.view
  cases manager.overrideStage_outcome env stageId reason d with
  | refused message hnot hexec =>
      exact ⟨fun h => absurd h (not_breaks_of_refused hexec),
        fun h => absurd ⟨h.1, h.2.1⟩ hnot⟩
  | commits next hreason hknown hfollows hexec =>
      have hsame := overridden_eq_iff hsingle hids hknown
      rw [Breaks.congr hexec rfl]
      by_cases hchanged : next.view = d.stateJson.view
      · have hunchanged := hsame.mp (hfollows.view.symm.trans hchanged)
        constructor
        · rintro ⟨failure, d', hcommit, -, hviews⟩
          have hmoved := manager.commit_moved env next (.overridden stageId)
            (some (pyStrip reason)) d
          rw [hcommit, hchanged] at hmoved
          exact absurd (or_self_iff.mp hmoved.view) hviews
        · rintro ⟨-, -, hnot, -⟩
          exact absurd hunchanged hnot
      · rw [commit_breaks_iff manager hchanged]
        refine ⟨fun haborts => ⟨hreason, hknown, fun hunchanged => ?_, haborts⟩, fun h => h.2.2.2⟩
        exact hchanged (hfollows.view.trans (hsame.mpr hunchanged))

private theorem save_raises_iff (env : SaveEnv) (state : PipelineState) (d : Disk) :
    (∃ failure d', (manager.save env state).exec d = (.error failure, d') ∧
      failure.IsSideEffect) ↔ env.Aborts := by
  constructor
  · rintro ⟨failure, d', h, hside⟩
    cases manager.save_outcome env state d with
    | notWritten failure' hfailure hstate hexec =>
        cases h.symm.trans hexec
        exact absurd hside hfailure.not_sideEffect
    | configFailed message hstate hconfig hexec => exact ⟨hstate, message, hconfig⟩
    | mirrorFailed failure' hfailure hstate hconfig hmarkdown hexec =>
        cases h.symm.trans hexec
        exact absurd hside hfailure.not_sideEffect
    | saved markdown hsaves hexec => cases h.symm.trans hexec
  · rintro ⟨hwritten, message, hconfig⟩
    cases manager.save_outcome env state d with
    | notWritten failure' hfailure hstate hexec => exact absurd hwritten hstate
    | configFailed message hstate hconfig hexec => exact ⟨_, _, hexec, trivial⟩
    | mirrorFailed failure' hfailure hstate hok hmarkdown hexec =>
        obtain ⟨config, hok⟩ := hok
        cases hconfig.symm.trans hok
    | saved markdown hsaves hexec =>
        obtain ⟨config, hok⟩ := hsaves.config
        cases hconfig.symm.trans hok

/-- After the first half of an `advance`, the lifecycle has changed, and
whatever a start does afterwards does not undo it. -/
private theorem startStage_after_changed {env : CompleteEnv} {stageId : String}
    {d d₁ : Disk} {completed : PipelineState} (h : Completed manager env stageId d completed d₁)
    (start : TransitionEnv) (next : String) :
    ((manager.startStage start next).exec d₁).2.stateJson.view ≠ d.stateJson.view := by
  have hcomplete : d₁.stateJson.view.status? stageId = some .complete := by
    rw [h.stateJson, h.view, Transition.apply, status?_set]
  apply view_ne stageId
  rw [manager.startStage_keeps_complete start next stageId hcomplete, h.active]
  decide

/-- A `complete_stage` that returned did not abort. -/
private theorem completed_not_aborts {env : CompleteEnv} {stageId : String} {d d₁ : Disk}
    {completed : PipelineState}
    (h : (manager.completeStage env stageId).exec d = (.ok completed, d₁)) :
    ¬ env.Aborts manager.hookRegistry stageId := by
  intro haborts
  obtain ⟨failure, d', hfailed, -⟩ := (completeStage_breaks_iff manager env stageId d).mpr
    ⟨(StateManager.completeStage_ok h).active, haborts⟩
  cases h.symm.trans hfailed

private theorem advance_breaks_iff (env : AdvanceEnv) {d : Disk} (h : Reachable d) :
    Breaks (manager.advance env) d ↔ Request.Aborts manager.hookRegistry d (.advance env) := by
  obtain ⟨hids, hsingle⟩ := h.view
  cases manager.advance_outcome env d with
  | finished message hcurrent hnone hexec =>
      simp only [Request.Aborts, hcurrent, hnone]
      exact ⟨fun h => absurd h (not_breaks_of_refused hexec), by simp⟩
  | starts stage hcurrent hfirst hexec =>
      rw [Breaks.congr hexec rfl, startStage_breaks_iff]
      simp [Request.Aborts, hcurrent, hfirst]
  | refused stageId message hcurrent hnot hexec =>
      simp only [Request.Aborts, hcurrent]
      exact ⟨fun h => absurd h (not_breaks_of_refused hexec), fun h => absurd h.1 hnot⟩
  | stopped stageId failure d₁ hcurrent hactive hcomplete hexec =>
      rw [Breaks.congr (hexec.trans hcomplete.symm) rfl, completeStage_breaks_iff]
      simp only [Request.Aborts, hcurrent]
      refine ⟨fun h => ⟨h.1, Or.inl h.2⟩, ?_⟩
      rintro ⟨-, haborts | ⟨hthrough, -⟩⟩
      · exact ⟨hactive, haborts⟩
      · obtain ⟨completed, d₂, hok⟩ := StateManager.completeStage_of_goesThrough hactive hthrough
        cases hok.symm.trans hcomplete
  | continues stageId completed next status d₁ hcurrent hactive hnext hcomplete hexec =>
      have hcompleted := StateManager.completeStage_ok hcomplete
      have hwhole := completed_not_aborts manager hcomplete
      have hraises := startStage_raises_iff manager env.start next d₁
      rw [hcompleted.stateJson, hcompleted.view, hsingle.canStart_next hids hactive hnext]
        at hraises
      simp only [Request.Aborts, hcurrent, hnext, AdvanceEnv.AbortsAfter]
      constructor
      · rintro ⟨failure, d', hfailed, hside, -⟩
        exact ⟨hactive, Or.inr ⟨hcompleted.through,
          hraises.mp ⟨failure, d', hexec.symm.trans hfailed, hside⟩⟩⟩
      · rintro ⟨-, habort⟩
        obtain ⟨failure, d', hfailed, hside⟩ := hraises.mpr (habort.resolve_left hwhole).2
        have hchanged := startStage_after_changed manager hcompleted env.start next
        rw [hfailed] at hchanged
        exact ⟨failure, d', hexec.trans hfailed, hside, hchanged⟩
  | ends stageId completed d₁ hcurrent hactive hlast hcomplete hexec =>
      have hcompleted := StateManager.completeStage_ok hcomplete
      have hwhole := completed_not_aborts manager hcomplete
      have hraises := save_raises_iff manager env.final
        { d₁.stateJson with currentStageId := none } d₁
      simp only [Request.Aborts, hcurrent, hlast, AdvanceEnv.AbortsAfter]
      constructor
      · rintro ⟨failure, d', hfailed, hside, -⟩
        exact ⟨hactive, Or.inr ⟨hcompleted.through,
          hraises.mp ⟨failure, d', hexec.symm.trans hfailed, hside⟩⟩⟩
      · rintro ⟨-, habort⟩
        obtain ⟨failure, d', hfailed, hside⟩ := hraises.mpr (habort.resolve_left hwhole).2
        refine ⟨failure, d', hexec.trans hfailed, hside, ?_⟩
        have hmoved := manager.save_moved env.final { d₁.stateJson with currentStageId := none } d₁
        rw [hfailed, hcompleted.view_cleared] at hmoved
        rw [or_self_iff.mp hmoved.view, hcompleted.stateJson, hcompleted.view]
        exact completed_ne hactive

end SideEffects

/-- From every reachable state, a call that raises because a blocking hook,
the configuration or the memory stores failed leaves the lifecycle as it was,
unless that failure comes after the call has written a changed lifecycle. -/
theorem sideEffectSafe_iff_not_aborts (manager : StateManager) (request : Request) (d : Disk)
    (h : Reachable d) :
    SideEffectSafe (request.perform manager) d ↔ ¬ request.Aborts manager.hookRegistry d := by
  rw [sideEffectSafe_iff, not_iff_not]
  cases request with
  | startStage env stageId => exact startStage_breaks_iff manager env stageId d
  | completeStage env stageId => exact completeStage_breaks_iff manager env stageId d
  | advance env => exact advance_breaks_iff manager env h
  | overrideStage env stageId reason => exact overrideStage_breaks_iff manager env stageId reason h

theorem sideEffectSafe_iff_demo :
    SideEffectSafe (Request.perform .demo (.completeStage (.calm "1" []) "srs")) .demo ↔
      ¬ Request.Aborts [] .demo (.completeStage (.calm "1" []) "srs") :=
  sideEffectSafe_iff_not_aborts .demo _ .demo (.of_run [])

/-- The blocking hook fails, the call raises, and the stage stays complete. -/
theorem not_sideEffectSafe :
    Reachable .demo ∧
      ¬ SideEffectSafe (Request.perform .guarded (.completeStage .hookRaises "srs")) .demo := by
  refine ⟨.of_run [], fun hsafe => ?_⟩
  let after := (Request.perform .guarded (.completeStage .hookRaises "srs")).exec .demo
  have hraised : after.1 = .error (.blockingHook "Blocking hook `audit` failed: denied") := rfl
  have hafter : after.2.stateJson.view =
      ⟨[("srs", .complete), ("build", .notStarted), ("deploy", .notStarted)], none⟩ := by decide
  have hsame := hsafe _ after.2 (Prod.ext hraised rfl) trivial
  rw [hafter] at hsame
  exact absurd hsame (by decide)

end ForgeOS
