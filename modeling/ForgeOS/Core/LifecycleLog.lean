import ForgeOS.Core.Runs

/-!
The lifecycle log determines the pipeline state. When files can be written
and the configuration loads, every change of the lifecycle in `state.json` has
exactly one event in `events.jsonl`, in the same order, even when a blocking
hook raises in the middle of a call.
-/

namespace ForgeOS

open Library

theorem View.replay_concat (v : View) (transitions : List Transition) (t : Transition) :
    v.replay (transitions ++ [t]) = t.apply (v.replay transitions) := by
  simp only [replay, List.foldl_append, List.foldl_cons, List.foldl_nil]

/-- `state.json` shows the initial lifecycle after the logged transitions. -/
def Disk.LogAgrees (initial : View) (d : Disk) : Prop :=
  d.stateJson.view = initial.replay d.lifecycle

/-- The files a request's transitions are written to can be written, and the
configuration loads. Hooks, gates, the event store and the memory stores are
free. -/
def Request.FilesOk : Request → Prop
  | .startStage env _ => env.FilesOk
  | .completeStage env _ => env.transition.FilesOk
  | .advance env => env.complete.transition.FilesOk ∧ env.start.FilesOk
  | .overrideStage env _ _ => env.FilesOk

section Step

variable {initial : View} {d d' : Disk}

theorem Disk.Quiet.logAgrees (hquiet : d.Quiet d') (h : d.LogAgrees initial) :
    d'.LogAgrees initial := by
  unfold LogAgrees
  rw [hquiet.stateJson, hquiet.lifecycle]
  exact h

variable (manager : StateManager)

/-- A transition is written and logged together. -/
private theorem commit_logAgrees {env : TransitionEnv} (hfiles : env.FilesOk)
    {state : PipelineState} {t : Transition} (hview : state.view = t.apply d.stateJson.view)
    (reason : Option String) (h : d.LogAgrees initial) :
    ((manager.commit env state t reason).exec d).2.LogAgrees initial := by
  have hboth {d' : Disk} {states : List PipelineState} (hwrote : d.Wrote d' states [t])
      (hlast : (states.getLastD d.stateJson).view = state.view) : d'.LogAgrees initial := by
    unfold Disk.LogAgrees
    rw [hwrote.stateJson, hwrote.lifecycle, View.replay_concat, hlast, hview, h]
  cases manager.commit_outcome env state t reason d with
  | unwritten failure hfailure hstate hexec => exact absurd hfiles.saves.state hstate
  | unconfigured message d' hstate hconfig hwrote hdb hexec =>
      obtain ⟨config, hok⟩ := hfiles.saves.config
      cases hconfig.symm.trans hok
  | unlogged failure d' hfailure hstate hconfig hnot hwrote hdb hexec =>
      exact absurd ⟨hfiles.saves, hfiles.appends⟩ hnot
  | hookFailed message d' hsaves happend hrun hwrote hdb hexec =>
      rw [hexec]
      exact hboth hwrote rfl
  | unstamped failure d' hfailure hsaves hemits hrelog hwrote hdb hexec =>
      exact absurd hfiles.relogs hrelog
  | committed d' hcommits hwrote hdb hexec =>
      rw [hexec]
      exact hboth hwrote rfl

private theorem startStage_logAgrees {env : TransitionEnv} (hfiles : env.FilesOk)
    (stageId : String) (h : d.LogAgrees initial) :
    ((manager.startStage env stageId).exec d).2.LogAgrees initial := by
  cases manager.startStage_outcome env stageId d with
  | refused message hnot hexec =>
      rw [hexec]
      exact h
  | commits next hcan hfollows hexec =>
      rw [hexec]
      exact commit_logAgrees manager hfiles hfollows.view none h

private theorem completeStage_logAgrees {env : CompleteEnv} (hfiles : env.transition.FilesOk)
    (stageId : String) (h : d.LogAgrees initial) :
    ((manager.completeStage env stageId).exec d).2.LogAgrees initial := by
  cases manager.completeStage_outcome env stageId d with
  | refused message hnot hexec =>
      rw [hexec]
      exact h
  | interrupted failure d₁ hactive hquiet hfailure hnot hexec =>
      rw [hexec]
      exact hquiet.logAgrees h
  | blocks results next d₁ hactive hquiet hevaluates hblocking hfollows hexec =>
      rw [hexec, manager.exec_commit_bind_snd _ _ _ _ _ _ fun _ _ => rfl]
      refine commit_logAgrees manager hfiles ?_ none (hquiet.logAgrees h)
      rw [hfollows.view, hquiet.stateJson]
  | completes results next d₁ hactive hquiet hevaluates hblocking hfollows hexec =>
      rw [hexec, manager.exec_commit_bind_snd _ _ _ _ _ _ (StateManager.exec_reflection_snd env)]
      refine commit_logAgrees manager hfiles ?_ none (hquiet.logAgrees h)
      rw [hfollows.view, hquiet.stateJson]

private theorem overrideStage_logAgrees {env : TransitionEnv} (hfiles : env.FilesOk)
    (stageId reason : String) (h : d.LogAgrees initial) :
    ((manager.overrideStage env stageId reason).exec d).2.LogAgrees initial := by
  cases manager.overrideStage_outcome env stageId reason d with
  | refused message hnot hexec =>
      rw [hexec]
      exact h
  | commits next hreason hknown hfollows hexec =>
      rw [hexec]
      exact commit_logAgrees manager hfiles hfollows.view _ h

private theorem save_lifecycle (env : SaveEnv) (state : PipelineState) (d : Disk) :
    ((manager.save env state).exec d).2.lifecycle = d.lifecycle := by
  cases manager.save_outcome env state d with
  | notWritten failure hfailure hstate hexec => rw [hexec]
  | configFailed message hstate hconfig hexec => rw [hexec]; rfl
  | mirrorFailed failure hfailure hstate hconfig hmarkdown hexec => rw [hexec]; rfl
  | saved markdown hsaves hexec =>
      rw [hexec, Disk.lifecycle, Disk.storeState_eventsJsonl]
      rfl

private theorem advance_logAgrees {env : AdvanceEnv}
    (hcompleteFiles : env.complete.transition.FilesOk) (hstartFiles : env.start.FilesOk)
    (h : d.LogAgrees initial) :
    ((manager.advance env).exec d).2.LogAgrees initial := by
  refine manager.advance_keeps env h
    (fun stageId => completeStage_logAgrees manager hcompleteFiles stageId h)
    (fun next d₁ hd₁ => startStage_logAgrees manager hstartFiles next hd₁) ?_
  intro d₁ hd₁ hview
  have hmoved := manager.save_moved env.final { d₁.stateJson with currentStageId := none } d₁
  rw [hview] at hmoved
  unfold Disk.LogAgrees
  rw [or_self_iff.mp hmoved.view, save_lifecycle]
  exact hd₁

/-- The step lemma: a call keeps the log in agreement, wherever it stops. -/
theorem Request.logAgrees {request : Request} (hfiles : request.FilesOk)
    (h : d.LogAgrees initial) : ((request.perform manager).exec d).2.LogAgrees initial := by
  cases request with
  | startStage env stageId => exact startStage_logAgrees manager hfiles stageId h
  | completeStage env stageId => exact completeStage_logAgrees manager hfiles stageId h
  | advance env => exact advance_logAgrees manager hfiles.1 hfiles.2 h
  | overrideStage env stageId reason =>
      exact overrideStage_logAgrees manager hfiles stageId reason h

end Step

/-- After every run of calls whose files can be written, folding the recorded
transitions over the initial lifecycle gives the persisted one. Hooks, gates and
the stores may fail in any way. -/
theorem lifecycleLog_of_run (profile uuid timestamp markdown : String) (stages : List String)
    (calls : List Call) (hfiles : ∀ call ∈ calls, call.request.FilesOk) :
    (run Call.step (Disk.scaffolded (buildStateOf profile uuid timestamp stages) markdown)
      calls).stateJson.view =
    (buildStateOf profile uuid timestamp stages).view.replay
      (run Call.step (Disk.scaffolded (buildStateOf profile uuid timestamp stages) markdown)
        calls).lifecycle := by
  have h : (run Call.step
      (Disk.scaffolded (buildStateOf profile uuid timestamp stages) markdown) calls).LogAgrees
        (buildStateOf profile uuid timestamp stages).view := by
    apply run_invariant
    · rfl
    · intro d call hcall hd
      exact Request.logAgrees call.manager (hfiles call hcall) hd
  exact h

theorem lifecycleLog_of_demo :
    (run Call.step Disk.demo troubledCalls).stateJson.view =
      (buildStateOf "minimal" "0" "2025-01-01T00:00:00Z" minimalStages).view.replay
        (run Call.step Disk.demo troubledCalls).lifecycle := by
  have hcalm (uuid : String) : (TransitionEnv.calm uuid).FilesOk :=
    ⟨⟨rfl, ⟨_, rfl⟩, rfl⟩, rfl, rfl⟩
  have hraises : CompleteEnv.hookRaises.transition.FilesOk := ⟨⟨rfl, ⟨_, rfl⟩, rfl⟩, rfl, rfl⟩
  have hfiles : ∀ call ∈ troubledCalls, call.request.FilesOk := by
    simp only [troubledCalls, List.forall_mem_cons]
    exact ⟨⟨hcalm "1", hcalm "2"⟩, hcalm "3", hraises, List.forall_mem_nil _⟩
  exact lifecycleLog_of_run "minimal" "0" "2025-01-01T00:00:00Z" "" minimalStages _ hfiles

end ForgeOS
