import ForgeOS.Core.Atomicity
import ForgeOS.Events.Replay

/-!
The event store next to `state.json`. `save` appends the state to the store,
but the write of the event id that follows it goes to `state.json` alone, so
after most calls replay lags behind by `last_event_id`. The theorem says after
which calls it does not.
-/

namespace ForgeOS

open Library

section DualWrite

variable (updateOther : JsonObject → Json → Except String JsonObject)

/-- Replaying the project's stream gives the contents of `state.json`. -/
def StoreAgrees (d : Disk) : Prop :=
  ∃ replayed, d.eventsDb.replayState updateOther (projectStream d.stateJson.projectId) =
      .ok (some replayed) ∧ replayed.Same d.stateJson.modelDump

/-! ### Replay of saved states -/

/-- The store as the state manager keeps it: numbered streams, no snapshots,
and only saved states as payloads. -/
structure StoreInv (db : Database) : Prop where
  numbered : db.Numbered
  fresh : db.snapshots = []
  rows : ∀ row ∈ db.events, ∃ state : PipelineState,
    row.payload = [("state", .obj state.modelDump)]

theorem StoreInv.empty : StoreInv Database.empty :=
  ⟨Database.empty_numbered, rfl, by simp [Database.empty]⟩

theorem StoreInv.appendStateEvent {db : Database} (h : StoreInv db) (createdAt streamId : String)
    (state : PipelineState) :
    StoreInv (db.appendStateEvent createdAt streamId state.modelDump).2 := by
  refine ⟨h.numbered.apply (.append createdAt streamId "StateSaved" _), h.fresh, ?_⟩
  intro row hrow
  rcases List.mem_append.mp hrow with hold | hnew
  · exact h.rows row hold
  · rw [List.mem_singleton.mp hnew]
    exact ⟨state, rfl⟩

/-- Folding saved states gives a document with the keys of one. -/
private theorem foldEvents_keys (reference : PipelineState) {rows : List EventRow}
    (hrows : ∀ row ∈ rows, ∃ state : PipelineState,
      row.payload = [("state", .obj state.modelDump)]) :
    ∃ folded, Database.foldEvents updateOther rows = .ok folded ∧
      ∀ key ∈ folded.map Prod.fst, key ∈ reference.modelDump.map Prod.fst := by
  induction rows using List.reverseRecOn with
  | nil => exact ⟨[], rfl, by simp⟩
  | append_singleton rows last ih =>
      obtain ⟨folded, hfolded, hkeys⟩ := ih fun row hrow => hrows row (by simp [hrow])
      obtain ⟨state, hpayload⟩ := hrows last (by simp)
      have hlast : Database.applyEvent updateOther folded last =
          .ok (folded.update state.modelDump) := by
        rw [Database.applyEvent, hpayload]
        rfl
      refine ⟨folded.update state.modelDump, ?_, fun key hkey => ?_⟩
      · unfold Database.foldEvents at hfolded ⊢
        rw [List.foldlM_append, hfolded]
        exact congrArg (fun next => next >>= pure) hlast
      · rcases Dict.keys_update folded state.modelDump key hkey with hold | hnew
        · exact hkeys key hold
        · rwa [PipelineState.modelDump_keys state reference] at hnew

/-- After a save, replay gives the saved state. -/
theorem StoreInv.replay_appendStateEvent {db : Database} (h : StoreInv db)
    (createdAt streamId : String) (state : PipelineState) :
    ∃ replayed, (db.appendStateEvent createdAt streamId state.modelDump).2.replayState
        updateOther streamId = .ok (some replayed) ∧ replayed.Same state.modelDump := by
  have hnext := h.appendStateEvent createdAt streamId state
  have hsound : Database.SnapshotSound updateOther
      (db.appendStateEvent createdAt streamId state.modelDump).2 streamId := by
    intro saved hsaved
    rw [Database.loadSnapshot, hnext.fresh] at hsaved
    cases hsaved
  have hrows : ∀ row ∈ db.readStream streamId, ∃ state : PipelineState,
      row.payload = [("state", .obj state.modelDump)] :=
    fun row hrow => h.rows row (List.mem_filter.mp hrow).1
  obtain ⟨folded, hfolded, hkeys⟩ := foldEvents_keys updateOther state hrows
  have hread : (db.appendStateEvent createdAt streamId state.modelDump).2.readStream streamId =
      db.readStream streamId ++ [⟨db.sequence + 1, streamId, "StateSaved",
        [("state", .obj state.modelDump)], db.nextVersion streamId, createdAt⟩] := by
    simp only [Database.appendStateEvent, Database.append, Database.readStream_insert,
      Option.getD_some, if_true]
  refine ⟨folded.update state.modelDump, ?_,
    Dict.update_same state.modelDump_keys_nodup hkeys⟩
  rw [hnext.numbered.replayState_eq updateOther hsound, Database.replayAll, hread]
  unfold Database.foldEvents at hfolded ⊢
  rw [if_neg (by simp), List.foldlM_append, hfolded]
  rfl

/-! ### The store over a run -/

section Keep

variable (manager : StateManager) {d d' : Disk}

private theorem Disk.storeState_inv (h : StoreInv d.eventsDb) (env : SaveEnv)
    (state : PipelineState) : StoreInv (d.storeState env state).eventsDb := by
  unfold Disk.storeState
  split
  · exact h.appendStateEvent _ _ _
  · exact h

private theorem save_storeInv (env : SaveEnv) (state : PipelineState)
    (h : StoreInv d.eventsDb) : StoreInv ((manager.save env state).exec d).2.eventsDb := by
  cases manager.save_outcome env state d with
  | notWritten failure hfailure hstate hexec => rw [hexec]; exact h
  | configFailed message hstate hconfig hexec => rw [hexec]; exact h
  | mirrorFailed failure hfailure hstate hconfig hmarkdown hexec => rw [hexec]; exact h
  | saved markdown hsaves hexec =>
      rw [hexec]
      exact Disk.storeState_inv (d := (d.writeState _).writeMarkdown markdown) h env _

private theorem commit_storeInv (env : TransitionEnv) (state : PipelineState) (t : Transition)
    (reason : Option String) (h : StoreInv d.eventsDb) :
    StoreInv ((manager.commit env state t reason).exec d).2.eventsDb := by
  have hstored := Disk.storeState_inv h env.save (env.save.stamp state)
  cases manager.commit_outcome env state t reason d with
  | unwritten failure hfailure hstate hexec =>
      rw [hexec]
      exact h
  | unconfigured message d' hstate hconfig hwrote hdb hexec =>
      rw [hexec, hdb]
      exact h
  | unlogged failure d' hfailure hstate hconfig hnot hwrote hdb hexec =>
      rw [hexec]
      rcases hdb with hdb | hdb <;> rw [hdb]
      · exact h
      · exact hstored
  | hookFailed message d' hsaves happend hrun hwrote hdb hexec =>
      rw [hexec, hdb]
      exact hstored
  | unstamped failure d' hfailure hsaves hemits hrelog hwrote hdb hexec =>
      rw [hexec, hdb]
      exact hstored
  | committed d' hcommits hwrote hdb hexec =>
      rw [hexec, hdb]
      exact hstored

private theorem startStage_storeInv (env : TransitionEnv) (stageId : String)
    (h : StoreInv d.eventsDb) : StoreInv ((manager.startStage env stageId).exec d).2.eventsDb := by
  cases manager.startStage_outcome env stageId d with
  | refused message hnot hexec =>
      rw [hexec]
      exact h
  | commits next hcan hfollows hexec =>
      rw [hexec]
      exact commit_storeInv manager env next _ none h

private theorem completeStage_storeInv (env : CompleteEnv) (stageId : String)
    (h : StoreInv d.eventsDb) :
    StoreInv ((manager.completeStage env stageId).exec d).2.eventsDb := by
  cases manager.completeStage_outcome env stageId d with
  | refused message hnot hexec =>
      rw [hexec]
      exact h
  | interrupted failure d₁ hactive hquiet hfailure hnot hexec =>
      rw [hexec, hquiet.eventsDb]
      exact h
  | blocks results next d₁ hactive hquiet hevaluates hblocking hfollows hexec =>
      rw [hexec, manager.exec_commit_bind_snd _ _ _ _ _ _ fun _ _ => rfl]
      exact commit_storeInv manager env.transition next _ none (hquiet.eventsDb ▸ h)
  | completes results next d₁ hactive hquiet hevaluates hblocking hfollows hexec =>
      rw [hexec, manager.exec_commit_bind_snd _ _ _ _ _ _
        (StateManager.exec_reflection_snd env)]
      exact commit_storeInv manager env.transition next _ none (hquiet.eventsDb ▸ h)

private theorem request_storeInv (request : Request) (h : StoreInv d.eventsDb) :
    StoreInv ((request.perform manager).exec d).2.eventsDb := by
  cases request with
  | startStage env stageId => exact startStage_storeInv manager env stageId h
  | completeStage env stageId => exact completeStage_storeInv manager env stageId h
  | overrideStage env stageId reason =>
      simp only [Request.perform]
      cases manager.overrideStage_outcome env stageId reason d with
      | refused message hnot hexec =>
          rw [hexec]
          exact h
      | commits next hreason hknown hfollows hexec =>
          rw [hexec]
          exact commit_storeInv manager env next _ _ h
  | advance env =>
      refine manager.advance_keeps env (P := fun d => StoreInv d.eventsDb) h ?_ ?_ ?_
      · exact fun stageId => completeStage_storeInv manager env.complete stageId h
      · exact fun next d₁ hd₁ => startStage_storeInv manager env.start next hd₁
      · exact fun d₁ hd₁ _ => save_storeInv manager env.final _ hd₁

end Keep

theorem Reachable.storeInv {d : Disk} (h : Reachable d) : StoreInv d.eventsDb := by
  obtain ⟨profile, uuid, timestamp, markdown, stages, calls, -, rfl⟩ := h
  apply run_invariant (I := fun d : Disk => StoreInv d.eventsDb)
  · exact StoreInv.empty
  · intro d call _ hd
    exact request_storeInv call.manager call.request hd

/-! ### After a successful call -/

/-- The store accepts the appends that a successful request makes. -/
def Request.StoreWrites (d : Disk) : Request → Prop
  | .startStage env _ => env.save.storeWrites = true
  | .completeStage env _ => env.transition.save.storeWrites = true
  | .advance env =>
      match d.stateJson.currentStageId with
      | none => env.start.save.storeWrites = true
      | some stageId => env.complete.transition.save.storeWrites = true ∧
          match d.stateJson.view.next? stageId with
          | some _ => env.start.save.storeWrites = true
          | none => env.final.storeWrites = true
  | .overrideStage env _ _ => env.save.storeWrites = true

/-- The request ends with a save, as an `advance` past the last stage does, or
the event id it records is the one `state.json` held already. -/
def Request.StoreCatchesUp (d : Disk) : Request → Prop
  | .startStage env _ => d.stateJson.lastEventId = some env.log.eventId
  | .completeStage env _ => d.stateJson.lastEventId = some env.transition.log.eventId
  | .advance env =>
      match d.stateJson.currentStageId with
      | none => d.stateJson.lastEventId = some env.start.log.eventId
      | some stageId =>
          match d.stateJson.view.next? stageId with
          | some _ => env.complete.transition.log.eventId = env.start.log.eventId
          | none => True
  | .overrideStage env _ _ => d.stateJson.lastEventId = some env.log.eventId

private theorem optional_injective {a b : Option String} (h : Json.optional a = Json.optional b) :
    a = b := by
  cases a <;> cases b <;> simp_all [Json.optional]

/-- Stamping the event id changes the document unless it was there. -/
private theorem same_stamp_iff (env : LogEnv) (state : PipelineState) :
    Dict.Same state.modelDump (env.stamp state).modelDump ↔
      state.lastEventId = some env.eventId := by
  constructor
  · intro hsame
    exact optional_injective (Option.some.inj (hsame "last_event_id"))
  · intro heq
    have hstamp : env.stamp state = state := by
      rw [LogEnv.stamp, ← heq]
    rw [hstamp]
    exact Dict.Same.refl _

variable (manager : StateManager)

/-- After a commit the store agrees exactly when the event id was there. -/
private theorem commit_agrees_iff {env : TransitionEnv} {state : PipelineState} {t : Transition}
    {reason : Option String} {d : Disk} (h : StoreInv d.eventsDb)
    (hok : ((manager.commit env state t reason).exec d).1.isOk = true)
    (hstore : env.save.storeWrites = true) :
    StoreAgrees updateOther ((manager.commit env state t reason).exec d).2 ↔
      state.lastEventId = some env.log.eventId := by
  rcases hexec : (manager.commit env state t reason).exec d with ⟨failure | returned, d'⟩
  · rw [hexec] at hok
    cases hok
  · obtain ⟨d'', hcommit, hwrote, hdb⟩ :=
      StateManager.commit_of_commits (StateManager.commits_of_ok hexec) state reason d
    cases hexec.symm.trans hcommit
    have hstate : d'.stateJson = env.log.stamp (env.save.stamp state) := hwrote.stateJson
    obtain ⟨replayed, hreplay, hsame⟩ := h.replay_appendStateEvent updateOther env.save.createdAt
      (projectStream state.projectId) (env.save.stamp state)
    have hiff := same_stamp_iff env.log (env.save.stamp state)
    have hdb' : d'.eventsDb = (d.eventsDb.appendStateEvent env.save.createdAt
        (projectStream state.projectId) (env.save.stamp state).modelDump).2 := by
      rw [hdb, Disk.storeState, if_pos hstore]
      rfl
    have hproject : d'.stateJson.projectId = state.projectId := by
      rw [hstate]
      rfl
    unfold StoreAgrees
    rw [hproject, hdb', hstate, hreplay]
    constructor
    · rintro ⟨other, hother, hothers⟩
      cases hother
      exact hiff.mp (hsame.symm.trans hothers)
    · intro heq
      exact ⟨replayed, rfl, hsame.trans (hiff.mpr heq)⟩

private theorem save_agrees {env : SaveEnv} {state : PipelineState} {d : Disk}
    (h : StoreInv d.eventsDb) (hok : ((manager.save env state).exec d).1.isOk = true)
    (hstore : env.storeWrites = true) :
    StoreAgrees updateOther ((manager.save env state).exec d).2 := by
  cases manager.save_outcome env state d with
  | notWritten failure hfailure hstate hexec => rw [hexec] at hok; cases hok
  | configFailed message hstate hconfig hexec => rw [hexec] at hok; cases hok
  | mirrorFailed failure hfailure hstate hconfig hmarkdown hexec => rw [hexec] at hok; cases hok
  | saved markdown hsaves hexec =>
      rw [hexec]
      obtain ⟨replayed, hreplay, hsame⟩ := h.replay_appendStateEvent updateOther env.createdAt
        (projectStream state.projectId) (env.stamp state)
      refine ⟨replayed, ?_, ?_⟩
      · rw [Disk.storeState_stateJson, Disk.storeState, if_pos hstore]
        exact hreplay
      · rw [Disk.storeState_stateJson]
        exact hsame

private theorem startStage_agrees_iff {env : TransitionEnv} {stageId : String} {d : Disk}
    (h : StoreInv d.eventsDb) (hok : ((manager.startStage env stageId).exec d).1.isOk = true)
    (hstore : env.save.storeWrites = true) :
    StoreAgrees updateOther ((manager.startStage env stageId).exec d).2 ↔
      d.stateJson.lastEventId = some env.log.eventId := by
  cases manager.startStage_outcome env stageId d with
  | refused message hnot hexec => rw [hexec] at hok; cases hok
  | commits next hcan hfollows hexec =>
      rw [hexec] at hok ⊢
      rw [commit_agrees_iff updateOther manager h hok hstore, hfollows.lastEventId]

private theorem completeStage_agrees_iff {env : CompleteEnv} {stageId : String} {d : Disk}
    (h : StoreInv d.eventsDb) (hok : ((manager.completeStage env stageId).exec d).1.isOk = true)
    (hstore : env.transition.save.storeWrites = true) :
    StoreAgrees updateOther ((manager.completeStage env stageId).exec d).2 ↔
      d.stateJson.lastEventId = some env.transition.log.eventId := by
  cases manager.completeStage_outcome env stageId d with
  | refused message hnot hexec => rw [hexec] at hok; cases hok
  | interrupted failure d₁ hactive hquiet hfailure hnot hexec => rw [hexec] at hok; cases hok
  | blocks results next d₁ hactive hquiet hevaluates hblocking hfollows hexec =>
      rw [hexec, Effect.exec_bind] at hok
      rcases hcommit : (manager.commit env.transition next (.blocked stageId) none).exec d₁ with
        ⟨failure | returned, d₂⟩ <;> rw [hcommit] at hok <;> cases hok
  | completes results next d₁ hactive hquiet hevaluates hblocking hfollows hexec =>
      rw [hexec] at hok
      rw [hexec, manager.exec_commit_bind_snd _ _ _ _ _ _
        (StateManager.exec_reflection_snd env),
        commit_agrees_iff updateOther manager (hquiet.eventsDb ▸ h)
          (Effect.exec_isOk_of_bind hok) hstore, hfollows.lastEventId]

/-- From every reachable state, after a successful call whose store appends
succeed, replaying the store gives `state.json` exactly when the call ended with
a save or recorded an event id that was already there. The id of the event is
written to `state.json` once more after the save, and the store does not hear of
it. -/
theorem storeAgrees_iff (call : Call) (d : Disk) (h : Reachable d)
    (hok : (call.exec d).1.isOk = true) (hstore : call.request.StoreWrites d) :
    StoreAgrees updateOther (call.step d) ↔ call.request.StoreCatchesUp d := by
  have hinv := h.storeInv
  obtain ⟨manager, request⟩ := call
  cases request with
  | startStage env stageId => exact startStage_agrees_iff updateOther manager hinv hok hstore
  | completeStage env stageId => exact completeStage_agrees_iff updateOther manager hinv hok hstore
  | overrideStage env stageId reason =>
      simp only [Call.step, Call.exec, Request.perform] at hok ⊢
      cases manager.overrideStage_outcome env stageId reason d with
      | refused message hnot hexec => rw [hexec] at hok; cases hok
      | commits next hreason hknown hfollows hexec =>
          rw [hexec] at hok ⊢
          rw [commit_agrees_iff updateOther manager hinv hok hstore, hfollows.lastEventId]
          rfl
  | advance env =>
      simp only [Call.step, Call.exec, Request.perform] at hok ⊢
      cases manager.advance_outcome env d with
      | finished message hcurrent hnone hexec => rw [hexec] at hok; cases hok
      | refused stageId message hcurrent hnot hexec => rw [hexec] at hok; cases hok
      | stopped stageId failure d₁ hcurrent hactive hcomplete hexec =>
          rw [hexec] at hok
          cases hok
      | starts stage hcurrent hfirst hexec =>
          simp only [Request.StoreWrites, hcurrent] at hstore
          simp only [Request.StoreCatchesUp, hcurrent]
          rw [hexec] at hok ⊢
          exact startStage_agrees_iff updateOther manager hinv hok hstore
      | continues stageId completed next status d₁ hcurrent hactive hnext hcomplete hexec =>
          have hcompleted := StateManager.completeStage_ok hcomplete
          have hinv₁ := completeStage_storeInv manager env.complete stageId hinv
          rw [hcomplete] at hinv₁
          simp only [Request.StoreWrites, hcurrent, hnext] at hstore
          simp only [Request.StoreCatchesUp, hcurrent, hnext]
          rw [hexec] at hok ⊢
          rw [startStage_agrees_iff updateOther manager hinv₁ hok hstore.2, hcompleted.stateJson,
            hcompleted.eventId, Option.some.injEq]
      | ends stageId completed d₁ hcurrent hactive hlast hcomplete hexec =>
          have hinv₁ := completeStage_storeInv manager env.complete stageId hinv
          rw [hcomplete] at hinv₁
          simp only [Request.StoreWrites, hcurrent, hlast] at hstore
          simp only [Request.StoreCatchesUp, hcurrent, hlast, iff_true]
          rw [hexec] at hok ⊢
          exact save_agrees updateOther manager hinv₁ hok hstore.2

end DualWrite

theorem storeAgrees_iff_demo :
    StoreAgrees (fun _ _ => .error "not a mapping")
        (Call.step .demo ⟨.demo, .completeStage (.calm "1" []) "srs"⟩) ↔
      Request.StoreCatchesUp .demo (.completeStage (.calm "1" []) "srs") :=
  storeAgrees_iff _ ⟨.demo, .completeStage (.calm "1" []) "srs"⟩ .demo (.of_run []) rfl rfl

/-- The first completion of a project: the store holds no event id, and
`state.json` holds the one of `StageCompleted`. -/
theorem not_storeAgrees :
    Reachable .demo ∧
      (Call.exec ⟨.demo, .completeStage (.calm "1" []) "srs"⟩ .demo).1.isOk = true ∧
      ¬ StoreAgrees (fun _ _ => .error "not a mapping")
        (Call.step .demo ⟨.demo, .completeStage (.calm "1" []) "srs"⟩) := by
  refine ⟨.of_run [], rfl, ?_⟩
  rintro ⟨replayed, hreplay, hsame⟩
  have hstored : replayed.get? "last_event_id" = some .null := by
    cases hreplay
    rfl
  have hwritten : (Call.step .demo
      ⟨.demo, .completeStage (.calm "1" []) "srs"⟩).stateJson.modelDump.get? "last_event_id" =
        some (.str "evt-1") := rfl
  cases hstored.symm.trans ((hsame "last_event_id").trans hwritten)

end ForgeOS
