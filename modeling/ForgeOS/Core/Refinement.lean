import ForgeOS.Core.Persistence

/-!
The state manager refines the lifecycle: each operation either is refused
because its transition is not enabled, or persists exactly that transition.
The theorems reduce every operation to the transitions it commits, with the
guards read off the view of `state.json`.
-/

namespace ForgeOS

open Library

/-! ### Finding a stage -/

private theorem view_split (state : PipelineState) (index : Fin state.stages.length) :
    state.view.stages = (state.stages.take index).map StageState.entry ++
      (state.stages.get index).entry :: (state.stages.drop (index + 1)).map StageState.entry := by
  rw [← List.map_cons, ← List.map_append]
  exact congrArg (List.map StageState.entry)
    ((List.take_append_drop index.val state.stages).symm.trans
      (congrArg _ (List.drop_eq_getElem_cons index.isLt)))

private theorem stageIndex_ok {state : PipelineState} {stageId : String}
    {index : Fin state.stages.length} (h : stageIndex state stageId = .ok index) :
    (state.stages.get index).stageId = stageId ∧
      stageId ∉ ((state.stages.take index).map StageState.entry).map Prod.fst := by
  unfold stageIndex at h
  split at h
  · rename_i found hfound
    cases h
    rw [List.findFinIdx?_eq_some_iff] at hfound
    simp only [decide_eq_true_eq] at hfound
    refine ⟨hfound.1, fun hmember => ?_⟩
    simp only [List.map_map, List.mem_map, List.mem_take_iff_getElem] at hmember
    obtain ⟨stage, ⟨j, hj, rfl⟩, hid⟩ := hmember
    have hlt : j < index.val := by omega
    exact hfound.2 ⟨j, by omega⟩ hlt hid
  · cases h

private theorem stageIndex_error {state : PipelineState} {stageId : String} {failure : Failure}
    (h : stageIndex state stageId = .error failure) :
    (∃ message, failure = .stateTransition message) ∧ stageId ∉ state.view.ids := by
  unfold stageIndex at h
  split at h
  · cases h
  · rename_i hnone
    cases h
    refine ⟨⟨_, rfl⟩, ?_⟩
    rw [List.findFinIdx?_eq_none_iff] at hnone
    rw [PipelineState.view_ids, List.mem_map]
    rintro ⟨stage, hstage, rfl⟩
    exact hnone stage hstage (by simp)

/-- The split of the view at the stage `stageIndex` finds. -/
private theorem stageIndex_split {state : PipelineState} {stageId : String}
    {index : Fin state.stages.length} (h : stageIndex state stageId = .ok index) :
    state.view.stages = (state.stages.take index).map StageState.entry ++
      (stageId, (state.stages.get index).status) ::
        (state.stages.drop (index + 1)).map StageState.entry := by
  rw [view_split state index, StageState.entry, (stageIndex_ok h).1]

theorem stageIndex_status {state : PipelineState} {stageId : String}
    {index : Fin state.stages.length} (h : stageIndex state stageId = .ok index) :
    state.view.status? stageId = some (state.stages.get index).status :=
  Dict.get?_of_split (stageIndex_split h) (stageIndex_ok h).2

/-- Writing a stage back in place assigns its status in the view. -/
private theorem view_set {state : PipelineState} {stageId : String}
    {index : Fin state.stages.length} (h : stageIndex state stageId = .ok index)
    (stage : StageState) (hstage : stage.stageId = stageId) :
    (state.stages.set index stage).map StageState.entry =
      state.view.stages.set stageId stage.status := by
  rw [Dict.set_of_split (stageIndex_split h) (stageIndex_ok h).2,
    List.set_eq_take_append_cons_drop, if_pos index.isLt, List.map_append, List.map_cons,
    StageState.entry, hstage]

/-! ### What the operations go on to persist -/

/-- `next` is the state after a transition, before it is stamped. -/
structure PipelineState.Follows (next state : PipelineState) (t : Transition) : Prop where
  view : next.view = t.apply state.view
  projectId : next.projectId = state.projectId
  lastEventId : next.lastEventId = state.lastEventId

/-- The stage before an index, in the split of the view at that index. -/
private theorem getLast?_take (state : PipelineState) (index : Fin state.stages.length)
    (hpositive : 0 < index.val) :
    ((state.stages.take index).map StageState.entry).getLast? =
      some (previousStage state index).entry := by
  have hlast : state.stages[index.val - 1]? = some state.stages[index.val - 1] :=
    List.getElem?_eq_getElem (by omega)
  rw [List.getLast?_map, List.getLast?_take, if_neg (by omega), hlast]
  rfl

/-- What lets `stageIndex`'s stage start, guard by guard. -/
private theorem canStart_iff {state : PipelineState} {stageId : String}
    {index : Fin state.stages.length} (h : stageIndex state stageId = .ok index) :
    state.view.CanStart stageId ↔
      (state.stages.get index).status ≠ .active ∧ (state.stages.get index).status ≠ .complete ∧
      (∀ stage ∈ state.stages, stage.status ≠ .active) ∧
      (0 < index.val → (previousStage state index).status = .complete) := by
  have hsplit := stageIndex_split h
  have hfresh := (stageIndex_ok h).2
  constructor
  · rintro ⟨⟨before, status, rest, hsplit', hfresh', hactive, hcomplete, hprevious⟩, hidle⟩
    obtain ⟨hbefore, hstatus⟩ := Dict.split_unique (hsplit.symm.trans hsplit') hfresh hfresh'
    refine ⟨hstatus ▸ hactive, hstatus ▸ hcomplete, ?_, ?_⟩
    · intro stage hstage
      exact hidle stage.entry (List.mem_map_of_mem hstage)
    · intro hpositive
      exact hprevious _ (hbefore ▸ getLast?_take state index hpositive)
  · rintro ⟨hactive, hcomplete, hidle, hprevious⟩
    refine ⟨⟨_, _, _, hsplit, hfresh, hactive, hcomplete, ?_⟩, ?_⟩
    · intro previous hlast
      by_cases hpositive : 0 < index.val
      · rw [getLast?_take state index hpositive, Option.some.injEq] at hlast
        rw [← hlast]
        exact hprevious hpositive
      · have hzero : index.val = 0 := by omega
        rw [hzero, List.take_zero] at hlast
        cases hlast
    · intro entry hentry
      obtain ⟨stage, hstage, rfl⟩ := List.mem_map.mp hentry
      exact hidle stage hstage

private theorem markStarted_cases (now : String) (state : PipelineState) (stageId : String) :
    (¬ state.view.CanStart stageId ∧
        ∃ message, markStarted now state stageId = .error (.stateTransition message)) ∨
      (state.view.CanStart stageId ∧ ∃ next : PipelineState,
        next.Follows state (.started stageId) ∧ markStarted now state stageId = .ok next) := by
  cases hindex : stageIndex state stageId with
  | error failure =>
      obtain ⟨⟨message, rfl⟩, hunknown⟩ := stageIndex_error hindex
      refine Or.inl ⟨fun hcan => ?_, message, ?_⟩
      · obtain ⟨before, status, rest, hsplit, -⟩ := hcan.startable
        apply hunknown
        rw [View.ids, hsplit]
        simp
      · simp only [markStarted, hindex]
        rfl
  | ok index =>
      have hguards := canStart_iff hindex
      simp only [markStarted, hindex, ok_bind]
      split
      · rename_i hactive
        exact Or.inl ⟨fun hcan => (hguards.mp hcan).1 hactive, _, rfl⟩
      · rename_i hactive
        split
        · rename_i hcomplete
          exact Or.inl ⟨fun hcan => (hguards.mp hcan).2.1 hcomplete, _, rfl⟩
        · rename_i hcomplete
          split
          · rename_i hany
            simp only [List.any_eq_true, decide_eq_true_eq] at hany
            obtain ⟨stage, hstage, hstatus⟩ := hany
            exact Or.inl ⟨fun hcan => (hguards.mp hcan).2.2.1 stage hstage hstatus, _, rfl⟩
          · rename_i hidle
            simp only [List.any_eq_true, decide_eq_true_eq, not_exists, not_and] at hidle
            split
            · rename_i hprevious
              exact Or.inl ⟨fun hcan => hprevious.2 ((hguards.mp hcan).2.2.2 hprevious.1), _, rfl⟩
            · rename_i hprevious
              rw [not_and, not_not] at hprevious
              refine Or.inr ⟨hguards.mpr ⟨hactive, hcomplete, hidle, hprevious⟩, _, ?_, rfl⟩
              refine ⟨?_, rfl, rfl⟩
              have hid := (stageIndex_ok hindex).1
              simp only [PipelineState.view, Transition.apply, View.mk.injEq]
              exact ⟨view_set hindex _ hid, by rw [hid]⟩

private theorem markBlocked_follows {state : PipelineState} {stageId : String}
    {index : Fin state.stages.length} (h : stageIndex state stageId = .ok index)
    (results : List GateResult) :
    (markBlocked state index stageId results).Follows state (.blocked stageId) := by
  refine ⟨?_, rfl, rfl⟩
  simp only [PipelineState.view, Transition.apply, View.mk.injEq]
  exact ⟨view_set h _ (stageIndex_ok h).1, rfl⟩

private theorem markCompleted_follows {state : PipelineState} {stageId : String}
    {index : Fin state.stages.length} (h : stageIndex state stageId = .ok index) (now : String)
    (results : List GateResult) :
    (markCompleted now state index stageId results).Follows state (.completed stageId) := by
  refine ⟨?_, rfl, rfl⟩
  simp only [PipelineState.view, Transition.apply, View.mk.injEq]
  exact ⟨view_set h _ (stageIndex_ok h).1, rfl⟩

private theorem markOverridden_follows (now : String) (state : PipelineState)
    (stageId : String) :
    (markOverridden now state stageId).Follows state (.overridden stageId) := by
  refine ⟨?_, rfl, rfl⟩
  simp only [PipelineState.view, Transition.apply, markOverridden, View.mk.injEq, and_true,
    List.map_map]
  apply List.map_congr_left
  intro stage _
  simp only [Function.comp_apply, StageState.entry, overriddenStatus]
  by_cases hid : stage.stageId = stageId
  · simp only [hid, if_true]
  · by_cases hactive : stage.status = .active
    · simp only [hid, hactive, if_true, if_false]
    · simp only [hid, hactive, if_false]

/-! ### Outcomes of the operations -/

/-- Where `start_stage` stops, or the transition it goes on to commit. -/
inductive StartOutcome (manager : StateManager) (env : TransitionEnv) (stageId : String)
    (d : Disk) : Prop
  | refused (message : String) (hnot : ¬ d.stateJson.view.CanStart stageId)
      (hexec : (manager.startStage env stageId).exec d =
        (.error (.stateTransition message), d))
  | commits (next : PipelineState) (hcan : d.stateJson.view.CanStart stageId)
      (hfollows : next.Follows d.stateJson (.started stageId))
      (hexec : (manager.startStage env stageId).exec d =
        (manager.commit env next (.started stageId) none).exec d)

/-- Where `complete_stage` stops, or the transition it goes on to commit. -/
inductive CompleteOutcome (manager : StateManager) (env : CompleteEnv) (stageId : String)
    (d : Disk) : Prop
  | refused (message : String) (hnot : d.stateJson.view.status? stageId ≠ some .active)
      (hexec : (manager.completeStage env stageId).exec d =
        (.error (.stateTransition message), d))
  | interrupted (failure : Failure) (d₁ : Disk)
      (hactive : d.stateJson.view.status? stageId = some .active) (hquiet : d.Quiet d₁)
      (hfailure : ∀ message, failure ≠ .stateTransition message)
      (hnot : ∀ results, ¬ env.gates.Evaluates manager.hookRegistry stageId results)
      (hexec : (manager.completeStage env stageId).exec d = (.error failure, d₁))
  | blocks (results : List GateResult) (next : PipelineState) (d₁ : Disk)
      (hactive : d.stateJson.view.status? stageId = some .active) (hquiet : d.Quiet d₁)
      (hevaluates : env.gates.Evaluates manager.hookRegistry stageId results)
      (hblocking : results.any GateResult.blocking = true)
      (hfollows : next.Follows d.stateJson (.blocked stageId))
      (hexec : (manager.completeStage env stageId).exec d =
        (manager.commit env.transition next (.blocked stageId) none >>= fun _ =>
          throw (.stateTransition (gateBlockReason results))).exec d₁)
  | completes (results : List GateResult) (next : PipelineState) (d₁ : Disk)
      (hactive : d.stateJson.view.status? stageId = some .active) (hquiet : d.Quiet d₁)
      (hevaluates : env.gates.Evaluates manager.hookRegistry stageId results)
      (hblocking : results.any GateResult.blocking = false)
      (hfollows : next.Follows d.stateJson (.completed stageId))
      (hexec : (manager.completeStage env stageId).exec d =
        (manager.commit env.transition next (.completed stageId) none >>= fun logged => do
          Effect.ofExcept (env.reflection.mapError .memory)
          return logged).exec d₁)

/-- Where `override_stage` stops, or the transition it goes on to commit. -/
inductive OverrideOutcome (manager : StateManager) (env : TransitionEnv)
    (stageId reason : String) (d : Disk) : Prop
  | refused (message : String)
      (hnot : ¬ (pyStrip reason ≠ "" ∧ stageId ∈ d.stateJson.view.ids))
      (hexec : (manager.overrideStage env stageId reason).exec d =
        (.error (.stateTransition message), d))
  | commits (next : PipelineState) (hreason : pyStrip reason ≠ "")
      (hknown : stageId ∈ d.stateJson.view.ids)
      (hfollows : next.Follows d.stateJson (.overridden stageId))
      (hexec : (manager.overrideStage env stageId reason).exec d =
        (manager.commit env next (.overridden stageId) (some (pyStrip reason))).exec d)

/-- Where `advance` stops, or how it continues after its first half. -/
inductive AdvanceOutcome (manager : StateManager) (env : AdvanceEnv) (d : Disk) : Prop
  | finished (message : String) (hcurrent : d.stateJson.currentStageId = none)
      (hnone : firstNotStartedStage d.stateJson = none)
      (hexec : (manager.advance env).exec d = (.error (.stateTransition message), d))
  | starts (stage : StageState) (hcurrent : d.stateJson.currentStageId = none)
      (hfirst : firstNotStartedStage d.stateJson = some stage)
      (hexec : (manager.advance env).exec d =
        (manager.startStage env.start stage.stageId).exec d)
  | refused (stageId message : String) (hcurrent : d.stateJson.currentStageId = some stageId)
      (hnot : d.stateJson.view.status? stageId ≠ some .active)
      (hexec : (manager.advance env).exec d = (.error (.stateTransition message), d))
  | stopped (stageId : String) (failure : Failure) (d₁ : Disk)
      (hcurrent : d.stateJson.currentStageId = some stageId)
      (hactive : d.stateJson.view.status? stageId = some .active)
      (hcomplete : (manager.completeStage env.complete stageId).exec d = (.error failure, d₁))
      (hexec : (manager.advance env).exec d = (.error failure, d₁))
  | continues (stageId : String) (completed : PipelineState) (next : String)
      (status : StageStatus) (d₁ : Disk)
      (hcurrent : d.stateJson.currentStageId = some stageId)
      (hactive : d.stateJson.view.status? stageId = some .active)
      (hnext : d.stateJson.view.next? stageId = some (next, status))
      (hcomplete : (manager.completeStage env.complete stageId).exec d = (.ok completed, d₁))
      (hexec : (manager.advance env).exec d = (manager.startStage env.start next).exec d₁)
  | ends (stageId : String) (completed : PipelineState) (d₁ : Disk)
      (hcurrent : d.stateJson.currentStageId = some stageId)
      (hactive : d.stateJson.view.status? stageId = some .active)
      (hlast : d.stateJson.view.next? stageId = none)
      (hcomplete : (manager.completeStage env.complete stageId).exec d = (.ok completed, d₁))
      (hexec : (manager.advance env).exec d =
        (manager.save env.final { d₁.stateJson with currentStageId := none }).exec d₁)

namespace StateManager

variable (manager : StateManager)

@[simp]
theorem exec_load (d : Disk) : load.exec d = (.ok d.stateJson, d) := rfl

theorem startStage_outcome (env : TransitionEnv) (stageId : String) (d : Disk) :
    StartOutcome manager env stageId d := by
  rcases markStarted_cases env.now d.stateJson stageId with
    ⟨hnot, message, hmark⟩ | ⟨hcan, next, hfollows, hmark⟩
  · refine .refused message hnot ?_
    simp only [startStage, Effect.exec_bind, exec_load, Effect.exec_ofExcept, hmark]
  · refine .commits next hcan hfollows ?_
    simp only [startStage, commit, Effect.exec_bind, exec_load, Effect.exec_ofExcept, hmark]
    rfl

theorem completeStage_outcome (env : CompleteEnv) (stageId : String) (d : Disk) :
    CompleteOutcome manager env stageId d := by
  cases hindex : stageIndex d.stateJson stageId with
  | error failure =>
      obtain ⟨⟨message, rfl⟩, hunknown⟩ := stageIndex_error hindex
      refine .refused message (fun hactive => hunknown ?_) ?_
      · exact List.mem_map_of_mem (f := Prod.fst) (Dict.mem_of_get? hactive)
      · simp only [completeStage, Effect.exec_bind, exec_load, Effect.exec_ofExcept, hindex]
  | ok index =>
      have hstatus := stageIndex_status hindex
      by_cases hactive : (d.stateJson.stages.get index).status = .active
      · rw [hactive] at hstatus
        cases evaluateStage_outcome manager.hookRegistry env.gates stageId d with
        | interrupted failure d₁ hquiet hfailure hnot hevaluate =>
            refine .interrupted failure d₁ hstatus hquiet hfailure hnot ?_
            simp only [completeStage, Effect.exec_bind, exec_load, Effect.exec_ofExcept, hindex,
              hactive, ne_eq, not_true_eq_false, if_false, hevaluate]
        | evaluated results d₁ hquiet hevaluates hevaluate =>
            cases hblocking : results.any GateResult.blocking with
            | true =>
                refine .blocks results _ d₁ hstatus hquiet hevaluates hblocking
                  (markBlocked_follows hindex results) ?_
                simp only [completeStage, commit, bind_assoc, Effect.exec_bind, exec_load,
                  Effect.exec_ofExcept, hindex, hactive, ne_eq, not_true_eq_false, if_false,
                  hevaluate, hblocking, if_true]
                rfl
            | false =>
                refine .completes results _ d₁ hstatus hquiet hevaluates hblocking
                  (markCompleted_follows hindex env.transition.now results) ?_
                simp only [completeStage, commit, bind_assoc, Effect.exec_bind, exec_load,
                  Effect.exec_ofExcept, hindex, hactive, ne_eq, not_true_eq_false, if_false,
                  hevaluate, hblocking, Bool.false_eq_true]
                rfl
      · refine .refused s!"Stage `{stageId}` must be active before it can complete." ?_ ?_
        · rw [hstatus]
          exact fun h => hactive (Option.some.inj h)
        · simp only [completeStage, Effect.exec_bind, exec_load, Effect.exec_ofExcept, hindex,
            hactive, ne_eq, not_false_eq_true, if_true, Effect.exec_throw]

theorem overrideStage_outcome (env : TransitionEnv) (stageId reason : String) (d : Disk) :
    OverrideOutcome manager env stageId reason d := by
  by_cases hreason : pyStrip reason = ""
  · refine .refused "Override requires a non-empty reason." (fun h => h.1 hreason) ?_
    simp only [overrideStage, hreason, if_true, Effect.exec_throw]
  · cases hindex : stageIndex d.stateJson stageId with
    | error failure =>
        obtain ⟨⟨message, rfl⟩, hunknown⟩ := stageIndex_error hindex
        refine .refused message (fun h => hunknown h.2) ?_
        simp only [overrideStage, hreason, if_false, Effect.exec_bind, exec_load,
          Effect.exec_ofExcept, hindex]
    | ok index =>
        have hknown : stageId ∈ d.stateJson.view.ids :=
          List.mem_map_of_mem (f := Prod.fst) (Dict.mem_of_get? (stageIndex_status hindex))
        refine .commits _ hreason hknown (markOverridden_follows env.now d.stateJson stageId) ?_
        simp only [overrideStage, commit, hreason, if_false, Effect.exec_bind, exec_load,
          Effect.exec_ofExcept, hindex]
        rfl

theorem advance_outcome (env : AdvanceEnv) (d : Disk) : AdvanceOutcome manager env d := by
  cases hcurrent : d.stateJson.currentStageId with
  | none =>
      cases hfirst : firstNotStartedStage d.stateJson with
      | none =>
          refine .finished "Pipeline is already complete." hcurrent hfirst ?_
          simp only [advance, Effect.exec_bind, exec_load, hcurrent, hfirst, Effect.exec_throw]
      | some stage =>
          refine .starts stage hcurrent hfirst ?_
          simp only [advance, Effect.exec_bind, exec_load, hcurrent, hfirst]
  | some stageId =>
      cases hindex : stageIndex d.stateJson stageId with
      | error failure =>
          obtain ⟨⟨message, rfl⟩, hunknown⟩ := stageIndex_error hindex
          refine .refused stageId message hcurrent (fun hactive => hunknown ?_) ?_
          · exact List.mem_map_of_mem (f := Prod.fst) (Dict.mem_of_get? hactive)
          · simp only [advance, Effect.exec_bind, exec_load, Effect.exec_ofExcept, hcurrent,
              hindex]
      | ok index =>
          have hstatus := stageIndex_status hindex
          have hnext := View.next?_of_split (stageIndex_split hindex) (stageIndex_ok hindex).2
          by_cases hactive : (d.stateJson.stages.get index).status = .active
          · rw [hactive] at hstatus
            rcases hcomplete : (manager.completeStage env.complete stageId).exec d with ⟨result, d₁⟩
            cases result with
            | error failure =>
                refine .stopped stageId failure d₁ hcurrent hstatus hcomplete ?_
                simp only [advance, Effect.exec_bind, exec_load, Effect.exec_ofExcept, hcurrent,
                  hindex, hactive, ne_eq, not_true_eq_false, if_false, hcomplete]
            | ok completed =>
                by_cases hlast : index.val + 1 < d.stateJson.stages.length
                · rw [List.drop_eq_getElem_cons hlast, List.map_cons, List.head?_cons] at hnext
                  refine .continues stageId completed _ _ d₁ hcurrent hstatus hnext hcomplete ?_
                  simp only [advance, Effect.exec_bind, exec_load, Effect.exec_ofExcept, hcurrent,
                    hindex, hactive, ne_eq, not_true_eq_false, if_false, hcomplete, hlast,
                    dite_true]
                · rw [List.drop_eq_nil_of_le (by omega), List.map_nil, List.head?_nil] at hnext
                  refine .ends stageId completed d₁ hcurrent hstatus hnext hcomplete ?_
                  simp only [advance, Effect.exec_bind, exec_load, Effect.exec_ofExcept, hcurrent,
                    hindex, hactive, ne_eq, not_true_eq_false, if_false, hcomplete, hlast,
                    dite_false]
          · refine .refused stageId s!"Current stage `{stageId}` is not active." hcurrent ?_ ?_
            · rw [hstatus]
              exact fun h => hactive (Option.some.inj h)
            · simp only [advance, Effect.exec_bind, exec_load, Effect.exec_ofExcept, hcurrent,
                hindex, hactive, ne_eq, not_false_eq_true, if_true, Effect.exec_throw]

end StateManager

end ForgeOS
