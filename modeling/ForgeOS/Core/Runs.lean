import ForgeOS.Core.Refinement

/-!
What a call writes to `state.json`, and the rule for invariants of every
content `state.json` has over a run of calls.
-/

namespace ForgeOS

open Library

/-- `state.json` was written any number of times, always with the view `v`. -/
def Disk.Moved (d d' : Disk) (v : View) : Prop :=
  ∃ states : List PipelineState, d'.persisted = d.persisted ++ states ∧
    d'.stateJson = states.getLastD d.stateJson ∧ ∀ state ∈ states, state.view = v

theorem Disk.Moved.refl (d : Disk) (v : View) : d.Moved d v :=
  ⟨[], (List.append_nil _).symm, rfl, by simp⟩

theorem Disk.Quiet.moved {d d₁ d' : Disk} {v : View} (h : d.Quiet d₁) (h' : d₁.Moved d' v) :
    d.Moved d' v := by
  obtain ⟨states, hpersisted, hstate, hview⟩ := h'
  exact ⟨states, h.persisted ▸ hpersisted, h.stateJson ▸ hstate, hview⟩

theorem Disk.Wrote.moved {d d' : Disk} {states : List PipelineState}
    {transitions : List Transition} {v : View} (h : d.Wrote d' states transitions)
    (hview : ∀ state ∈ states, state.view = v) : d.Moved d' v :=
  ⟨states, h.persisted, h.stateJson, hview⟩

/-- The view afterwards is the old one or the one written. -/
theorem Disk.Moved.view {d d' : Disk} {v : View} (h : d.Moved d' v) :
    d'.stateJson.view = d.stateJson.view ∨ d'.stateJson.view = v := by
  obtain ⟨states, -, hstate, hview⟩ := h
  rcases List.eq_nil_or_concat' states with rfl | ⟨init, last, rfl⟩
  · exact Or.inl (congrArg _ hstate)
  · rw [List.getLastD_eq_getLast?, List.getLast?_concat, Option.getD_some] at hstate
    exact Or.inr (hstate ▸ hview last (by simp))

/-! ### The state manager's operations -/

namespace StateManager

variable (manager : StateManager)

theorem commit_moved (env : TransitionEnv) (state : PipelineState) (t : Transition)
    (reason : Option String) (d : Disk) :
    d.Moved ((manager.commit env state t reason).exec d).2 state.view := by
  have hsaved : ∀ s ∈ [env.save.stamp state], s.view = state.view := by simp
  have hlogged : ∀ s ∈ [env.save.stamp state, env.log.stamp (env.save.stamp state)],
      s.view = state.view := by simp
  cases manager.commit_outcome env state t reason d with
  | unwritten failure hfailure hstate hexec =>
      rw [hexec]
      exact .refl d _
  | unconfigured message d' hstate hconfig hwrote hdb hexec =>
      rw [hexec]
      exact hwrote.moved hsaved
  | unlogged failure d' hfailure hstate hconfig hnot hwrote hdb hexec =>
      rw [hexec]
      exact hwrote.moved hsaved
  | hookFailed message d' hsaves happend hrun hwrote hdb hexec =>
      rw [hexec]
      exact hwrote.moved hsaved
  | unstamped failure d' hfailure hsaves hemits hrelog hwrote hdb hexec =>
      rw [hexec]
      exact hwrote.moved hsaved
  | committed d' hcommits hwrote hdb hexec =>
      rw [hexec]
      exact hwrote.moved hlogged

/-- The lifecycle after a commit is the new one exactly when `state.json`
could be written. -/
theorem commit_view (env : TransitionEnv) (state : PipelineState) (t : Transition)
    (reason : Option String) (d : Disk) :
    ((manager.commit env state t reason).exec d).2.stateJson.view =
      if env.save.stateWrite = .written then state.view else d.stateJson.view := by
  cases manager.commit_outcome env state t reason d with
  | unwritten failure hfailure hstate hexec => rw [hexec, if_neg hstate]
  | unconfigured message d' hstate hconfig hwrote hdb hexec =>
      rw [hexec, if_pos hstate, hwrote.stateJson]
      rfl
  | unlogged failure d' hfailure hstate hconfig hnot hwrote hdb hexec =>
      rw [hexec, if_pos hstate, hwrote.stateJson]
      rfl
  | hookFailed message d' hsaves happend hrun hwrote hdb hexec =>
      rw [hexec, if_pos hsaves.state, hwrote.stateJson]
      rfl
  | unstamped failure d' hfailure hsaves hemits hrelog hwrote hdb hexec =>
      rw [hexec, if_pos hsaves.state, hwrote.stateJson]
      rfl
  | committed d' hcommits hwrote hdb hexec =>
      rw [hexec, if_pos hcommits.saves.state, hwrote.stateJson]
      rfl

/-- Whatever follows a commit without touching the files, they are as the
commit left them. -/
theorem exec_commit_bind_snd (env : TransitionEnv) (state : PipelineState) (t : Transition)
    (reason : Option String) (d : Disk) {α : Type} (next : PipelineState → Forge α)
    (hnext : ∀ logged d', ((next logged).exec d').2 = d') :
    ((manager.commit env state t reason >>= next).exec d).2 =
      ((manager.commit env state t reason).exec d).2 := by
  rw [Effect.exec_bind]
  rcases (manager.commit env state t reason).exec d with ⟨result, d'⟩
  cases result with
  | ok logged => exact hnext logged d'
  | error failure => rfl

/-- The reflection after a completion touches none of the modelled files. -/
theorem exec_reflection_snd (env : CompleteEnv) (logged : PipelineState) (d : Disk) :
    ((do Effect.ofExcept (env.reflection.mapError .memory)
         return logged : Forge PipelineState).exec d).2 = d := by
  rw [Effect.exec_bind, Effect.exec_ofExcept]
  cases env.reflection <;> rfl

theorem save_moved (env : SaveEnv) (state : PipelineState) (d : Disk) :
    d.Moved ((manager.save env state).exec d).2 state.view := by
  have hmoved {d' : Disk} (hpersisted : d'.persisted = d.persisted ++ [env.stamp state])
      (hstate : d'.stateJson = env.stamp state) : d.Moved d' state.view :=
    ⟨[env.stamp state], hpersisted, hstate, by simp⟩
  cases manager.save_outcome env state d with
  | notWritten failure hfailure hstate hexec =>
      rw [hexec]
      exact .refl d _
  | configFailed message hstate hconfig hexec =>
      rw [hexec]
      exact hmoved rfl rfl
  | mirrorFailed failure hfailure hstate hconfig hmarkdown hexec =>
      rw [hexec]
      exact hmoved rfl rfl
  | saved markdown hsaves hexec =>
      rw [hexec]
      apply hmoved
      · rw [Disk.storeState_persisted]
        rfl
      · rw [Disk.storeState_stateJson]
        rfl

/-- What a refused or persisted start leaves behind. -/
theorem startStage_moved (env : TransitionEnv) (stageId : String) (d : Disk) :
    ((manager.startStage env stageId).exec d).2 = d ∨
      (d.stateJson.view.CanStart stageId ∧
        d.Moved ((manager.startStage env stageId).exec d).2
          ((Transition.started stageId).apply d.stateJson.view)) := by
  cases manager.startStage_outcome env stageId d with
  | refused message hnot hexec => exact Or.inl (by rw [hexec])
  | commits next hcan hfollows hexec =>
      refine Or.inr ⟨hcan, ?_⟩
      rw [hexec, ← hfollows.view]
      exact manager.commit_moved env next _ none d

/-- A stage that is complete stays complete when another one starts. -/
theorem startStage_keeps_complete (env : TransitionEnv) (next stageId : String)
    {d : Disk} (h : d.stateJson.view.status? stageId = some .complete) :
    ((manager.startStage env next).exec d).2.stateJson.view.status? stageId =
      some .complete := by
  rcases manager.startStage_moved env next d with hsame | ⟨hcan, hmoved⟩
  · rw [hsame]
    exact h
  · rcases hmoved.view with hsame | hnew
    · rw [hsame]
      exact h
    · have hne : next ≠ stageId := by
        rintro rfl
        obtain ⟨status, hstatus, -, hincomplete⟩ := hcan.status
        rw [h, Option.some.injEq] at hstatus
        exact hincomplete hstatus.symm
      rw [hnew, View.status?, Transition.apply, Dict.get?_set, if_neg hne]
      exact h

/-- What `complete_stage` leaves behind: at most gate events when it does not
get to its decision, else the transition the gates decided. -/
theorem completeStage_moved (env : CompleteEnv) (stageId : String) (d : Disk) :
    d.Quiet ((manager.completeStage env stageId).exec d).2 ∨
      (d.stateJson.view.status? stageId = some .active ∧
        ∃ results, env.gates.Evaluates manager.hookRegistry stageId results ∧
          d.Moved ((manager.completeStage env stageId).exec d).2
            ((if results.any GateResult.blocking then Transition.blocked stageId
              else Transition.completed stageId).apply d.stateJson.view)) := by
  cases manager.completeStage_outcome env stageId d with
  | refused message hnot hexec =>
      rw [hexec]
      exact Or.inl (.refl d)
  | interrupted failure d₁ hactive hquiet hfailure hnot hexec =>
      rw [hexec]
      exact Or.inl hquiet
  | blocks results next d₁ hactive hquiet hevaluates hblocking hfollows hexec =>
      refine Or.inr ⟨hactive, results, hevaluates, ?_⟩
      rw [hexec, manager.exec_commit_bind_snd _ _ _ _ _ _ fun _ _ => rfl, hblocking, if_pos rfl,
        ← hfollows.view]
      exact hquiet.moved (manager.commit_moved env.transition next _ none d₁)
  | completes results next d₁ hactive hquiet hevaluates hblocking hfollows hexec =>
      refine Or.inr ⟨hactive, results, hevaluates, ?_⟩
      rw [hexec, manager.exec_commit_bind_snd _ _ _ _ _ _ (exec_reflection_snd env), hblocking,
        if_neg (by decide), ← hfollows.view]
      exact hquiet.moved (manager.commit_moved env.transition next _ none d₁)

theorem overrideStage_moved (env : TransitionEnv) (stageId reason : String) (d : Disk) :
    ((manager.overrideStage env stageId reason).exec d).2 = d ∨
      (stageId ∈ d.stateJson.view.ids ∧
        d.Moved ((manager.overrideStage env stageId reason).exec d).2
          ((Transition.overridden stageId).apply d.stateJson.view)) := by
  cases manager.overrideStage_outcome env stageId reason d with
  | refused message hnot hexec => exact Or.inl (by rw [hexec])
  | commits next hreason hknown hfollows hexec =>
      refine Or.inr ⟨hknown, ?_⟩
      rw [hexec, ← hfollows.view]
      exact manager.commit_moved env next _ _ d

end StateManager

/-! ### When a stage completes -/

/-- Everything `complete_stage` depends on lets an active stage complete. -/
structure CompleteEnv.GoesThrough (env : CompleteEnv) (registry : HookRegistry)
    (stageId : String) : Prop where
  gates : ∃ results, env.gates.Evaluates registry stageId results ∧
    results.any GateResult.blocking = false
  commits : env.transition.Commits registry .stageCompleted
  reflects : env.reflection = .ok ()

/-- The files a successful `complete_stage` returns with. -/
structure Completed (manager : StateManager) (env : CompleteEnv) (stageId : String)
    (d : Disk) (completed : PipelineState) (d' : Disk) : Prop where
  active : d.stateJson.view.status? stageId = some .active
  through : env.GoesThrough manager.hookRegistry stageId
  stateJson : d'.stateJson = completed
  view : completed.view = (Transition.completed stageId).apply d.stateJson.view
  projectId : completed.projectId = d.stateJson.projectId
  eventId : completed.lastEventId = some env.transition.log.eventId

/-- Completing leaves no current stage, so clearing the pointer again changes
nothing. -/
theorem Completed.view_cleared {manager : StateManager} {env : CompleteEnv} {stageId : String}
    {d d' : Disk} {completed : PipelineState}
    (h : Completed manager env stageId d completed d') :
    PipelineState.view { d'.stateJson with currentStageId := none } = d'.stateJson.view := by
  have hcleared : d'.stateJson.currentStageId = none := by
    rw [h.stateJson]
    exact congrArg View.current h.view
  simp only [PipelineState.view, hcleared]

theorem GateEnv.Evaluates.unique {env : GateEnv} {registry : HookRegistry} {stageId : String}
    {results results' : List GateResult} (h : env.Evaluates registry stageId results)
    (h' : env.Evaluates registry stageId results') : results = results' :=
  Except.ok.inj (h.results.symm.trans h'.results)

theorem StateManager.completeStage_ok {manager : StateManager} {env : CompleteEnv}
    {stageId : String} {d d' : Disk} {completed : PipelineState}
    (h : (manager.completeStage env stageId).exec d = (.ok completed, d')) :
    Completed manager env stageId d completed d' := by
  cases manager.completeStage_outcome env stageId d with
  | refused message hnot hexec => cases h.symm.trans hexec
  | interrupted failure d₁ hactive hquiet hfailure hnot hexec => cases h.symm.trans hexec
  | blocks results next d₁ hactive hquiet hevaluates hblocking hfollows hexec =>
      rw [h, Effect.exec_bind] at hexec
      rcases hcommit : (manager.commit env.transition next (.blocked stageId) none).exec d₁ with
        ⟨result, d₂⟩
      rw [hcommit] at hexec
      cases result <;> cases hexec
  | completes results next d₁ hactive hquiet hevaluates hblocking hfollows hexec =>
      rw [h, Effect.exec_bind] at hexec
      rcases hcommit : (manager.commit env.transition next (.completed stageId) none).exec d₁ with
        ⟨_ | logged, d₂⟩
      · rw [hcommit] at hexec
        cases hexec
      · have hcommits := commits_of_ok hcommit
        obtain ⟨d₃, hcommitted, hwrote, -⟩ :=
          commit_of_commits (t := .completed stageId) hcommits next none d₁
        rw [hcommitted] at hexec
        simp only [Effect.exec_bind, Effect.exec_ofExcept] at hexec
        cases hreflect : env.reflection with
        | error message => rw [hreflect] at hexec; cases hexec
        | ok _ =>
            rw [hreflect] at hexec
            cases hexec
            exact ⟨hactive, ⟨⟨results, hevaluates, hblocking⟩, hcommits, hreflect⟩,
              hwrote.stateJson, hfollows.view, hfollows.projectId, rfl⟩

theorem StateManager.completeStage_of_goesThrough {manager : StateManager} {env : CompleteEnv}
    {stageId : String} {d : Disk} (hactive : d.stateJson.view.status? stageId = some .active)
    (h : env.GoesThrough manager.hookRegistry stageId) :
    ∃ completed d', (manager.completeStage env stageId).exec d = (.ok completed, d') := by
  obtain ⟨⟨results, hevaluates, hblocking⟩, hcommits, hreflect⟩ := h
  cases manager.completeStage_outcome env stageId d with
  | refused message hnot hexec => exact absurd hactive hnot
  | interrupted failure d₁ hactive hquiet hfailure hnot hexec =>
      exact absurd hevaluates (hnot results)
  | blocks results' next d₁ hactive hquiet hevaluates' hblocking' hfollows hexec =>
      rw [hevaluates'.unique hevaluates, hblocking] at hblocking'
      cases hblocking'
  | completes results' next d₁ hactive hquiet hevaluates' hblocking' hfollows hexec =>
      obtain ⟨d₂, hcommit, -⟩ := commit_of_commits (t := .completed stageId) hcommits next none d₁
      refine ⟨env.transition.log.stamp (env.transition.save.stamp next), d₂, ?_⟩
      rw [hexec, Effect.exec_bind_ok _ hcommit, Effect.exec_bind, Effect.exec_ofExcept, hreflect]
      rfl

/-- The invariant rule of `advance`: what its two halves and the save after the
last stage keep, the call keeps wherever it stops. -/
theorem StateManager.advance_keeps (manager : StateManager) (env : AdvanceEnv)
    {P : Disk → Prop} {d : Disk} (h : P d)
    (hcompletes : ∀ stageId, P ((manager.completeStage env.complete stageId).exec d).2)
    (hstarts : ∀ next d₁, P d₁ → P ((manager.startStage env.start next).exec d₁).2)
    (hsaves : ∀ d₁, P d₁ →
      PipelineState.view { d₁.stateJson with currentStageId := none } = d₁.stateJson.view →
      P ((manager.save env.final { d₁.stateJson with currentStageId := none }).exec d₁).2) :
    P ((manager.advance env).exec d).2 := by
  have hhalf (stageId : String) {result : Except Failure PipelineState} {d₁ : Disk}
      (hexec : (manager.completeStage env.complete stageId).exec d = (result, d₁)) : P d₁ := by
    have hkept := hcompletes stageId
    rwa [hexec] at hkept
  cases manager.advance_outcome env d with
  | finished message hcurrent hnone hexec =>
      rw [hexec]
      exact h
  | starts stage hcurrent hfirst hexec =>
      rw [hexec]
      exact hstarts stage.stageId d h
  | refused stageId message hcurrent hnot hexec =>
      rw [hexec]
      exact h
  | stopped stageId failure d₁ hcurrent hactive hcomplete hexec =>
      rw [hexec]
      exact hhalf stageId hcomplete
  | continues stageId completed next status d₁ hcurrent hactive hnext hcomplete hexec =>
      rw [hexec]
      exact hstarts next d₁ (hhalf stageId hcomplete)
  | ends stageId completed d₁ hcurrent hactive hlast hcomplete hexec =>
      rw [hexec]
      exact hsaves d₁ (hhalf stageId hcomplete)
        (StateManager.completeStage_ok hcomplete).view_cleared

end ForgeOS
