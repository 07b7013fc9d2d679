import ForgeOS.Core.Runs
import Mathlib.Data.List.Induction

/-!
Invariants of every content `state.json` has, over runs of calls of any
length: a single active stage, and without overrides the pipeline order.
-/

namespace ForgeOS

open Library

/-- A property of the lifecycle holds of `state.json`, and of every content
it has had. -/
structure Disk.Everywhere (I : View → Prop) (d : Disk) : Prop where
  now : I d.stateJson.view
  ever : ∀ state ∈ d.persisted, I state.view

section Everywhere

variable {I : View → Prop} {d d' : Disk}

theorem Disk.Everywhere.imp {J : View → Prop} (h : d.Everywhere I) (hIJ : ∀ v, I v → J v) :
    d.Everywhere J :=
  ⟨hIJ _ h.now, fun state hstate => hIJ _ (h.ever state hstate)⟩

/-- Writes of the view `v` keep a property that holds of `v`, if they happen. -/
theorem Disk.Moved.everywhere {v : View} (h : d.Moved d' v) (hd : d.Everywhere I)
    (hv : d'.stateJson.view = v → I v) : d'.Everywhere I := by
  obtain ⟨states, hpersisted, hstate, hviews⟩ := h
  rcases List.eq_nil_or_concat' states with rfl | ⟨init, last, rfl⟩
  · rw [List.append_nil] at hpersisted
    exact ⟨hstate ▸ hd.now, hpersisted ▸ hd.ever⟩
  · rw [List.getLastD_eq_getLast?, List.getLast?_concat, Option.getD_some] at hstate
    have hview : d'.stateJson.view = v := hstate ▸ hviews last (by simp)
    refine ⟨hview ▸ hv hview, ?_⟩
    rw [hpersisted]
    intro state hmember
    rcases List.mem_append.mp hmember with hold | hnew
    · exact hd.ever state hold
    · rw [hviews state hnew]
      exact hv hview

theorem Disk.Quiet.everywhere (h : d.Quiet d') (hd : d.Everywhere I) : d'.Everywhere I :=
  ⟨h.stateJson ▸ hd.now, h.persisted ▸ hd.ever⟩

theorem Disk.scaffolded_everywhere {state : PipelineState} (h : I state.view)
    (markdown : String) : (Disk.scaffolded state markdown).Everywhere I := by
  refine ⟨h, fun other hother => ?_⟩
  rw [List.mem_singleton.mp hother]
  exact h

end Everywhere

/-- The kinds of transition a request can commit: an override nothing but an
override, the others no override. -/
def Request.MayCommit : Request → Transition → Prop
  | .overrideStage _ stageId _, t => t = .overridden stageId
  | _, t => ∀ stageId, t ≠ .overridden stageId

section Step

variable {I : View → Prop} (manager : StateManager)

private theorem startStage_everywhere
    (hI : ∀ v stageId, v.CanStart stageId → I v → I ((Transition.started stageId).apply v))
    (env : TransitionEnv) (stageId : String) {d : Disk} (h : d.Everywhere I) :
    ((manager.startStage env stageId).exec d).2.Everywhere I := by
  rcases manager.startStage_moved env stageId d with hsame | ⟨hcan, hmoved⟩
  · rw [hsame]
    exact h
  · exact hmoved.everywhere h fun _ => hI _ _ hcan h.now

private theorem completeStage_everywhere
    (hI : ∀ v stageId, v.status? stageId = some .active → I v →
      I ((Transition.completed stageId).apply v) ∧ I ((Transition.blocked stageId).apply v))
    (env : CompleteEnv) (stageId : String) {d : Disk} (h : d.Everywhere I) :
    ((manager.completeStage env stageId).exec d).2.Everywhere I := by
  rcases manager.completeStage_moved env stageId d with hquiet | ⟨hactive, results, -, hmoved⟩
  · exact hquiet.everywhere h
  · obtain ⟨hcompleted, hblocked⟩ := hI _ _ hactive h.now
    refine hmoved.everywhere h fun _ => ?_
    split
    · exact hblocked
    · exact hcompleted

/-- The step lemma: what every transition of a request keeps, the request
keeps, at each of its writes and wherever it stops. -/
theorem Request.everywhere {request : Request}
    (hI : ∀ v t, request.MayCommit t → v.Enabled t → I v → I (t.apply v))
    {d : Disk} (h : d.Everywhere I) : ((request.perform manager).exec d).2.Everywhere I := by
  cases request with
  | startStage env stageId =>
      exact startStage_everywhere manager (fun v id => hI v (.started id) (by simp [MayCommit]))
        env stageId h
  | completeStage env stageId =>
      exact completeStage_everywhere manager
        (fun v id hactive hv => ⟨hI v (.completed id) (by simp [MayCommit]) hactive hv,
          hI v (.blocked id) (by simp [MayCommit]) hactive hv⟩) env stageId h
  | advance env =>
      have hstarted (v : View) (id : String) := hI v (.started id) (by simp [MayCommit])
      have hcompleted (v : View) (id : String) (hactive : v.status? id = some .active) (hv : I v) :=
        And.intro (hI v (.completed id) (by simp [MayCommit]) hactive hv)
          (hI v (.blocked id) (by simp [MayCommit]) hactive hv)
      refine manager.advance_keeps env h
        (fun id => completeStage_everywhere manager hcompleted env.complete id h)
        (fun next d₁ hd₁ => startStage_everywhere manager hstarted env.start next hd₁) ?_
      intro d₁ hd₁ hview
      refine (manager.save_moved env.final _ d₁).everywhere hd₁ fun _ => ?_
      rw [hview]
      exact hd₁.now
  | overrideStage env stageId reason =>
      rcases manager.overrideStage_moved env stageId reason d with hsame | ⟨hknown, hmoved⟩
      · simp only [perform]
        rw [hsame]
        exact h
      · exact hmoved.everywhere h fun _ => hI _ (.overridden stageId) rfl hknown h.now

end Step

/-- The run lemma: an invariant of the transitions that the calls of a run can
commit holds of every content `state.json` has during the run. -/
theorem run_everywhere {I : View → Prop} {calls : List Call}
    (hI : ∀ call ∈ calls, ∀ v t, call.request.MayCommit t → v.Enabled t → I v → I (t.apply v))
    {d : Disk} (h : d.Everywhere I) : (run Call.step d calls).Everywhere I := by
  apply run_invariant h
  intro d' call hcall hd'
  exact Request.everywhere call.manager (hI call hcall) hd'

/-- Every stage content `state.json` ever has lists the stages of the initial
one, in the same order. -/
theorem run_ids (state : PipelineState) (markdown : String) (calls : List Call) :
    (run Call.step (Disk.scaffolded state markdown) calls).Everywhere
      fun v => v.ids = state.view.ids := by
  apply run_everywhere
  · intro call _ v t _ henabled hv
    rw [View.ids_apply henabled, hv]
  · exact Disk.scaffolded_everywhere (I := fun v => v.ids = state.view.ids) rfl markdown

/-! ### One active stage -/

private theorem buildStateOf_singleActive (profile uuid timestamp : String)
    {stages : List String} (hstages : stages.Nodup) :
    (buildStateOf profile uuid timestamp stages).view.SingleActive := by
  apply View.SingleActive.of_current
  · rw [buildStateOf_ids]
    exact hstages
  · rw [buildStateOf_view]
    cases stages with
    | nil => simp
    | cons first rest =>
        intro entry hentry hactive
        rcases List.mem_cons.mp hentry with rfl | hrest
        · rfl
        · obtain ⟨id, -, rfl⟩ := List.mem_map.mp hrest
          cases hactive

/-- The single-active invariant of a whole run. -/
theorem run_singleActive (profile uuid timestamp markdown : String) {stages : List String}
    (hstages : stages.Nodup) (calls : List Call) :
    (run Call.step (Disk.scaffolded (buildStateOf profile uuid timestamp stages) markdown)
      calls).Everywhere fun v => v.ids.Nodup ∧ v.SingleActive := by
  apply run_everywhere
  · rintro call _ v t _ henabled ⟨hids, hactive⟩
    exact ⟨(View.ids_apply henabled).symm ▸ hids, hactive.apply hids henabled⟩
  · apply Disk.scaffolded_everywhere
    refine ⟨?_, buildStateOf_singleActive profile uuid timestamp hstages⟩
    rw [buildStateOf_ids]
    exact hstages

/-- In every persisted state of every run from a scaffolded project, at most one
stage is active, and an active stage is the current one. This holds of the states
that a call persists on its way as well, wherever it stops. -/
theorem singleActive_of_run (profile uuid timestamp markdown : String)
    (stages : List String) (hstages : stages.Nodup) (calls : List Call) :
    (run Call.step (Disk.scaffolded (buildStateOf profile uuid timestamp stages) markdown)
      calls).Everywhere View.SingleActive := by
  have h := run_singleActive profile uuid timestamp markdown hstages calls
  exact ⟨h.now.2, fun state hstate => (h.ever state hstate).2⟩

theorem singleActive_of_demo :
    (run Call.step Disk.demo [⟨.demo, .advance (.calm "1" "2")⟩,
      ⟨.demo, .overrideStage (.calm "3") "srs" "back"⟩]).Everywhere View.SingleActive :=
  singleActive_of_run "minimal" "0" "2025-01-01T00:00:00Z" "" minimalStages (by decide) _

/-! ### Pipeline order -/

/-- The `complete_stage` a request makes: what it meets, and its stage. -/
def Request.completing (d : Disk) : Request → Option (CompleteEnv × String)
  | .completeStage env stageId => some (env, stageId)
  | .advance env => d.stateJson.currentStageId.map fun stageId => (env.complete, stageId)
  | _ => none

/-- A `complete_stage` met an active stage and no blocking gate result. -/
structure PassedGates (registry : HookRegistry) (env : CompleteEnv) (stageId : String)
    (d : Disk) : Prop where
  active : d.stateJson.view.status? stageId = some .active
  results : ∃ results, env.gates.Evaluates registry stageId results ∧
    ∀ result ∈ results, result.blocking = false

/-- The call moved the stage to complete, in a `complete_stage` in which no
gate result was blocking. -/
structure CompletedBy (call : Call) (stageId : String) (d : Disk) : Prop where
  passed : ∃ env, call.request.completing d = some (env, stageId) ∧
    PassedGates call.manager.hookRegistry env stageId d
  complete : (call.step d).stateJson.view.status? stageId = some .complete

section Completions

variable {Q : String → Prop} (manager : StateManager)

/-- Every complete stage has the property `Q`. -/
private def Complete (Q : String → Prop) (v : View) : Prop :=
  ∀ stageId, (stageId, .complete) ∈ v.stages → Q stageId

private theorem startStage_complete (env : TransitionEnv) (stageId : String) {d : Disk}
    (h : d.Everywhere (Complete Q)) :
    ((manager.startStage env stageId).exec d).2.Everywhere (Complete Q) := by
  apply startStage_everywhere manager _ env stageId h
  intro v id _ hv other hother
  rcases Dict.mem_set hother with heq | hold
  · cases heq
  · exact hv other hold

/-- What a `complete_stage` adds to the complete stages: only its own, and
only through its gates. -/
private theorem completeStage_complete (env : CompleteEnv) (stageId : String) {d : Disk}
    (h : d.Everywhere (Complete Q)) :
    ((manager.completeStage env stageId).exec d).2.Everywhere (Complete fun id =>
      Q id ∨ (id = stageId ∧ PassedGates manager.hookRegistry env stageId d ∧
        ((manager.completeStage env stageId).exec d).2.stateJson.view.status? stageId =
          some .complete)) := by
  have hold : d.Everywhere (Complete fun id =>
      Q id ∨ (id = stageId ∧ PassedGates manager.hookRegistry env stageId d ∧
        ((manager.completeStage env stageId).exec d).2.stateJson.view.status? stageId =
          some .complete)) :=
    h.imp fun v hv id hid => Or.inl (hv id hid)
  rcases manager.completeStage_moved env stageId d with
    hquiet | ⟨hactive, results, hevaluates, hmoved⟩
  · exact hquiet.everywhere hold
  · refine hmoved.everywhere hold fun hview id hid => ?_
    cases hblocking : results.any GateResult.blocking with
    | true =>
        rw [hblocking, if_pos rfl] at hid
        rcases Dict.mem_set hid with heq | hmember
        · cases heq
        · exact Or.inl (h.now id hmember)
    | false =>
        rw [hblocking, if_neg (by decide)] at hid hview
        rcases Dict.mem_set hid with heq | hmember
        · refine Or.inr ⟨congrArg Prod.fst heq, ⟨hactive, results, hevaluates, ?_⟩, ?_⟩
          · simpa using hblocking
          · rw [hview, View.status?, Transition.apply, Dict.get?_set, if_pos rfl]
        · exact Or.inl (h.now id hmember)

/-- What the first half of an `advance` completes is still complete where the
call ends, and so was completed by it. -/
private theorem advance_completes (manager : StateManager) (env : AdvanceEnv) {d d₁ d₂ : Disk}
    (h : d.Everywhere (Complete Q)) {stageId : String} {result : Except Failure PipelineState}
    (hcurrent : d.stateJson.currentStageId = some stageId)
    (hcomplete : (manager.completeStage env.complete stageId).exec d = (result, d₁))
    (hexec : ((manager.advance env).exec d).2 = d₂)
    (hafter : d₁.stateJson.view.status? stageId = some .complete →
      d₂.stateJson.view.status? stageId = some .complete) :
    d₁.Everywhere (Complete fun id => Q id ∨ CompletedBy ⟨manager, .advance env⟩ id d) := by
  have hcompleted := completeStage_complete manager env.complete stageId h
  rw [hcomplete] at hcompleted
  refine hcompleted.imp fun v hv id hid => (hv id hid).imp_right ?_
  rintro ⟨rfl, hpassed, hstatus⟩
  refine ⟨⟨env.complete, by simp only [Request.completing, hcurrent, Option.map_some],
    hpassed⟩, ?_⟩
  change ((manager.advance env).exec d).2.stateJson.view.status? _ = _
  rw [hexec]
  exact hafter hstatus

private theorem advance_complete (manager : StateManager) (env : AdvanceEnv) {d : Disk}
    (h : d.Everywhere (Complete Q)) :
    ((manager.advance env).exec d).2.Everywhere
      (Complete fun id => Q id ∨ CompletedBy ⟨manager, .advance env⟩ id d) := by
  have hkeep (call : Call) : d.Everywhere (Complete fun id => Q id ∨ CompletedBy call id d) :=
    h.imp fun v hv id hid => Or.inl (hv id hid)
  cases manager.advance_outcome env d with
  | finished message hcurrent hnone hexec =>
      rw [hexec]
      exact hkeep _
  | starts stage hcurrent hfirst hexec =>
      rw [hexec]
      exact startStage_complete manager env.start _ (hkeep _)
  | refused stageId message hcurrent hnot hexec =>
      rw [hexec]
      exact hkeep _
  | stopped stageId failure d₁ hcurrent hactive hcomplete hexec =>
      have hd₁ := advance_completes manager env h hcurrent hcomplete (congrArg Prod.snd hexec) id
      rw [hexec]
      exact hd₁
  | continues stageId completed next status d₁ hcurrent hactive hnext hcomplete hexec =>
      have hd₁ := advance_completes manager env h hcurrent hcomplete (congrArg Prod.snd hexec)
        (manager.startStage_keeps_complete env.start next stageId)
      rw [hexec]
      exact startStage_complete manager env.start next hd₁
  | ends stageId completed d₁ hcurrent hactive hlast hcomplete hexec =>
      have hmoved := manager.save_moved env.final
        { d₁.stateJson with currentStageId := none } d₁
      rw [(StateManager.completeStage_ok hcomplete).view_cleared] at hmoved
      have hd₁ := advance_completes manager env h hcurrent hcomplete (congrArg Prod.snd hexec)
        fun hstatus => by rcases hmoved.view with hsame | hsame <;> rw [hsame] <;> exact hstatus
      rw [hexec]
      exact hmoved.everywhere hd₁ fun _ => hd₁.now

/-- The step lemma: a call other than an override adds to the complete stages
only those it completes through their gates. -/
private theorem step_complete {call : Call} (hcall : ∀ env stageId reason,
      call.request ≠ .overrideStage env stageId reason) {d : Disk}
    (h : d.Everywhere (Complete Q)) :
    (call.step d).Everywhere (Complete fun id => Q id ∨ CompletedBy call id d) := by
  obtain ⟨manager, request⟩ := call
  cases request with
  | startStage env stageId =>
      exact (startStage_complete manager env stageId h).imp fun v hv id hid => Or.inl (hv id hid)
  | completeStage env stageId =>
      refine (completeStage_complete manager env stageId h).imp fun v hv id hid => ?_
      refine (hv id hid).imp_right ?_
      rintro ⟨rfl, hpassed, hcomplete⟩
      exact ⟨⟨env, rfl, hpassed⟩, hcomplete⟩
  | advance env => exact advance_complete manager env h
  | overrideStage env stageId reason => exact absurd rfl (hcall env stageId reason)

end Completions

/-- The run lemma: every stage that is ever complete was completed by one of
the calls. -/
private theorem run_complete {state : PipelineState}
    (hstate : ∀ entry ∈ state.view.stages, entry.2 ≠ .complete) (markdown : String)
    (calls : List Call) (hcalls : ∀ call ∈ calls, ∀ env stageId reason,
      call.request ≠ .overrideStage env stageId reason) :
    (run Call.step (Disk.scaffolded state markdown) calls).Everywhere (Complete fun stageId =>
      ∃ before call after, calls = before ++ call :: after ∧
        CompletedBy call stageId (run Call.step (Disk.scaffolded state markdown) before)) := by
  induction calls using List.reverseRecOn with
  | nil =>
      apply Disk.scaffolded_everywhere
      intro stageId hmember
      exact absurd rfl (hstate _ hmember)
  | append_singleton calls last ih =>
      have hbefore := ih fun call hcall => hcalls call (by simp [hcall])
      rw [run_snoc]
      refine (step_complete (hcalls last (by simp)) hbefore).imp fun v hv stageId hid => ?_
      rcases hv stageId hid with ⟨before, call, after, heq, hcompleted⟩ | hcompleted
      · exact ⟨before, call, after ++ [last], by simp [heq], hcompleted⟩
      · exact ⟨calls, last, [], rfl, hcompleted⟩

private theorem buildStateOf_fresh (profile uuid timestamp : String) (stages : List String) :
    (buildStateOf profile uuid timestamp stages).view.Ordered ∧
      ∀ entry ∈ (buildStateOf profile uuid timestamp stages).view.stages,
        entry.2 ≠ .complete := by
  rw [buildStateOf_view]
  cases stages with
  | nil => exact ⟨⟨List.Pairwise.nil, by simp [View.statuses]⟩, by simp⟩
  | cons first rest =>
      refine ⟨⟨?_, ?_⟩, ?_⟩
      · simp only [View.statuses, List.map_cons, List.map_map, List.pairwise_cons,
          List.pairwise_map]
        exact ⟨by simp, List.pairwise_of_forall fun _ _ h => absurd rfl h⟩
      · simp [View.statuses]
      · simp

/-- Without overrides, every persisted state of every run reads `complete*`,
then at most one active or blocked stage, then `not_started*`; and every
complete stage was completed by a call of the run, through its gates. -/
theorem pipelineOrder_of_run (profile uuid timestamp markdown : String)
    (stages : List String) (calls : List Call) (hcalls : ∀ call ∈ calls,
      ∀ env stageId reason, call.request ≠ .overrideStage env stageId reason) :
    (run Call.step (Disk.scaffolded (buildStateOf profile uuid timestamp stages) markdown)
      calls).Everywhere fun v => v.InOrder ∧ ∀ stageId, (stageId, .complete) ∈ v.stages →
        ∃ before call after, calls = before ++ call :: after ∧ CompletedBy call stageId
          (run Call.step (Disk.scaffolded (buildStateOf profile uuid timestamp stages) markdown)
            before) := by
  obtain ⟨hordered, hfresh⟩ := buildStateOf_fresh profile uuid timestamp stages
  have horder : (run Call.step
      (Disk.scaffolded (buildStateOf profile uuid timestamp stages) markdown)
      calls).Everywhere View.Ordered := by
    apply run_everywhere _ (Disk.scaffolded_everywhere hordered markdown)
    intro call hcall v t hmay henabled hv
    apply hv.apply henabled
    cases hrequest : call.request with
    | overrideStage env stageId reason => exact absurd hrequest (hcalls call hcall _ _ _)
    | startStage env stageId => rwa [hrequest] at hmay
    | completeStage env stageId => rwa [hrequest] at hmay
    | advance env => rwa [hrequest] at hmay
  have hcomplete := run_complete hfresh markdown calls hcalls
  exact ⟨⟨horder.now.inOrder, hcomplete.now⟩,
    fun state hstate => ⟨(horder.ever state hstate).inOrder, hcomplete.ever state hstate⟩⟩

theorem pipelineOrder_of_demo :
    (run Call.step Disk.demo troubledCalls).Everywhere fun v =>
      v.InOrder ∧ ∀ stageId, (stageId, .complete) ∈ v.stages →
        ∃ before call after, troubledCalls = before ++ call :: after ∧
          CompletedBy call stageId (run Call.step Disk.demo before) :=
  pipelineOrder_of_run "minimal" "0" "2025-01-01T00:00:00Z" "" minimalStages troubledCalls
    (by simp [troubledCalls])

end ForgeOS
