import ForgeOS.Core.StateManager
import ForgeOS.Core.Lifecycle

/-!
How one transition is persisted: every place where `save` followed by
`log_transition` can stop, with the files it leaves behind there.
-/

namespace ForgeOS

open Library

def Transition.ofEvent (event : LifecycleEvent) : Option Transition :=
  match event.eventType, event.stageId with
  | .stageStarted, some stageId => some (.started stageId)
  | .stageCompleted, some stageId => some (.completed stageId)
  | .stageBlocked, some stageId => some (.blocked stageId)
  | .stageOverride, some stageId => some (.overridden stageId)
  | _, _ => none

def Transition.eventType : Transition → EventType
  | .started _ => .stageStarted
  | .completed _ => .stageCompleted
  | .blocked _ => .stageBlocked
  | .overridden _ => .stageOverride

def Transition.stageId : Transition → String
  | .started stageId => stageId
  | .completed stageId => stageId
  | .blocked stageId => stageId
  | .overridden stageId => stageId

theorem Transition.ofEvent_transitionEvent (t : Transition) (stamp : EventStamp)
    (projectId : String) (reason : Option String) :
    Transition.ofEvent (transitionEvent stamp t.eventType projectId t.stageId reason) =
      some t := by
  cases t <;> rfl

/-- The errors of a file that could not be written. -/
def Failure.IsWrite : Failure → Prop
  | .os _ => True
  | .atomicWrite _ => True
  | _ => False

/-- The errors of a side effect: a blocking hook, the configuration, or the
reflection and lesson stores. -/
def Failure.IsSideEffect : Failure → Prop
  | .blockingHook _ => True
  | .config _ => True
  | .memory _ => True
  | _ => False

@[simp]
theorem SaveEnv.stamp_view (env : SaveEnv) (state : PipelineState) :
    (env.stamp state).view = state.view := rfl

section StoreState

variable (d : Disk) (env : SaveEnv) (state : PipelineState)

@[simp]
theorem Disk.storeState_stateJson : (d.storeState env state).stateJson = d.stateJson := by
  unfold storeState
  split <;> rfl

@[simp]
theorem Disk.storeState_persisted : (d.storeState env state).persisted = d.persisted := by
  unfold storeState
  split <;> rfl

@[simp]
theorem Disk.storeState_eventsJsonl : (d.storeState env state).eventsJsonl = d.eventsJsonl := by
  unfold storeState
  split <;> rfl

end StoreState

/-! ### When each step goes through -/

/-- `state.json`, the configuration and the mirror cause no error. -/
structure SaveEnv.Saves (env : SaveEnv) : Prop where
  state : env.stateWrite = .written
  config : ∃ config, env.config = .ok config
  markdown : env.markdownWrite = .written

/-- A whole transition is persisted. -/
structure TransitionEnv.Commits (env : TransitionEnv) (registry : HookRegistry)
    (eventType : EventType) : Prop where
  saves : env.save.Saves
  emits : env.log.emit.Succeeds registry eventType
  relogs : env.log.stateWrite = .written

/-- `state.json` is written, and after it the configuration cannot be loaded
or a blocking hook fails. -/
structure TransitionEnv.Aborts (env : TransitionEnv) (registry : HookRegistry)
    (eventType : EventType) : Prop where
  written : env.save.stateWrite = .written
  fails : (∃ message, env.save.config = .error message) ∨
    (env.save.Saves ∧ env.log.emit.append = .ok () ∧
      ∃ message, registry.run env.log.emit.hookCalls eventType = .error message)

/-- Every file write of a transition succeeds, and the configuration loads.
Hooks may still fail, and so may the event store. -/
structure TransitionEnv.FilesOk (env : TransitionEnv) : Prop where
  saves : env.save.Saves
  appends : env.log.emit.append = .ok ()
  relogs : env.log.stateWrite = .written

/-! ### Outcomes -/

/-- Where `save` stops. -/
inductive SaveOutcome (manager : StateManager) (env : SaveEnv) (state : PipelineState)
    (d : Disk) : Prop
  | notWritten (failure : Failure) (hfailure : failure.IsWrite)
      (hstate : env.stateWrite ≠ .written)
      (hexec : (manager.save env state).exec d = (.error failure, d))
  | configFailed (message : String) (hstate : env.stateWrite = .written)
      (hconfig : env.config = .error message)
      (hexec : (manager.save env state).exec d =
        (.error (.config message), d.writeState (env.stamp state)))
  | mirrorFailed (failure : Failure) (hfailure : failure.IsWrite)
      (hstate : env.stateWrite = .written) (hconfig : ∃ config, env.config = .ok config)
      (hmarkdown : env.markdownWrite ≠ .written)
      (hexec : (manager.save env state).exec d =
        (.error failure, d.writeState (env.stamp state)))
  | saved (markdown : String) (hsaves : env.Saves)
      (hexec : (manager.save env state).exec d = (.ok (env.stamp state),
        ((d.writeState (env.stamp state)).writeMarkdown markdown).storeState env
          (env.stamp state)))

private theorem exec_atomicWrite_cases (outcome : WriteOutcome) (path : String)
    (write : Disk → Disk) (d : Disk) :
    (outcome = .written ∧ (atomicWrite outcome path write).exec d = (.ok (), write d)) ∨
      (outcome ≠ .written ∧ ∃ failure : Failure, failure.IsWrite ∧
        (atomicWrite outcome path write).exec d = (.error failure, d)) := by
  cases outcome with
  | written => exact Or.inl ⟨rfl, rfl⟩
  | noDirectory error => exact Or.inr ⟨by simp, .os error, trivial, rfl⟩
  | failed => exact Or.inr ⟨by simp, .atomicWrite _, trivial, rfl⟩

theorem StateManager.save_outcome (manager : StateManager) (env : SaveEnv)
    (state : PipelineState) (d : Disk) : SaveOutcome manager env state d := by
  rcases exec_atomicWrite_cases env.stateWrite manager.statePath
      (fun d => d.writeState (env.stamp state)) d with
    ⟨hstate, hwrite⟩ | ⟨hstate, failure, hfailure, hwrite⟩
  · cases hconfig : env.config with
    | error message =>
        refine .configFailed message hstate hconfig ?_
        simp only [save, Effect.exec_bind, Effect.exec_ofExcept, hwrite, hconfig, Except.mapError]
    | ok config =>
        rcases exec_atomicWrite_cases env.markdownWrite manager.stateMarkdownPath
            (fun d => d.writeMarkdown (renderStateMarkdown config (env.stamp state)))
            (d.writeState (env.stamp state)) with
          ⟨hmarkdown, hmirror⟩ | ⟨hmarkdown, failure, hfailure, hmirror⟩
        · refine .saved (renderStateMarkdown config (env.stamp state))
            ⟨hstate, ⟨config, hconfig⟩, hmarkdown⟩ ?_
          simp only [save, Effect.exec_bind, Effect.exec_ofExcept, Effect.exec_modify,
            Effect.exec_pure, hwrite, hconfig, hmirror, Except.mapError]
        · refine .mirrorFailed failure hfailure hstate ⟨config, hconfig⟩ hmarkdown ?_
          simp only [save, Effect.exec_bind, Effect.exec_ofExcept, hwrite, hconfig, hmirror,
            Except.mapError]
  · refine .notWritten failure hfailure hstate ?_
    simp only [save, Effect.exec_bind, hwrite]

/-- The event `log_transition` appends. -/
def LogEnv.event (env : LogEnv) (eventType : EventType) (state : PipelineState)
    (stageId : String) (reason : Option String) : LifecycleEvent :=
  transitionEvent env.emit.stamp eventType state.projectId stageId reason

def LogEnv.eventId (env : LogEnv) : String := s!"evt-{env.emit.stamp.uuid}"

/-- The state as `log_transition` stamps it. -/
def LogEnv.stamp (env : LogEnv) (state : PipelineState) : PipelineState :=
  { state with lastEventId := some env.eventId }

@[simp]
theorem LogEnv.stamp_view (env : LogEnv) (state : PipelineState) :
    (env.stamp state).view = state.view := rfl

/-- Where `log_transition` stops. -/
inductive LogOutcome (manager : StateManager) (env : LogEnv) (eventType : EventType)
    (state : PipelineState) (stageId : String) (reason : Option String) (d : Disk) : Prop
  | notAppended (error : String) (happend : env.emit.append = .error error)
      (hexec : (manager.logTransition env eventType state stageId reason).exec d =
        (.error (.os error), d))
  | hookFailed (message : String) (happend : env.emit.append = .ok ())
      (hrun : manager.hookRegistry.run env.emit.hookCalls eventType = .error message)
      (hexec : (manager.logTransition env eventType state stageId reason).exec d =
        (.error (.blockingHook message),
          d.appendJsonl (env.event eventType state stageId reason)))
  | notWritten (failure : Failure) (timings : List HookTiming) (hfailure : failure.IsWrite)
      (hemits : env.emit.Succeeds manager.hookRegistry eventType)
      (hstate : env.stateWrite ≠ .written)
      (hexec : (manager.logTransition env eventType state stageId reason).exec d =
        (.error failure,
          (d.appendJsonl (env.event eventType state stageId reason)).appendTimings timings))
  | logged (timings : List HookTiming)
      (hemits : env.emit.Succeeds manager.hookRegistry eventType)
      (hstate : env.stateWrite = .written)
      (hexec : (manager.logTransition env eventType state stageId reason).exec d =
        (.ok (env.stamp state),
          ((d.appendJsonl (env.event eventType state stageId reason)).appendTimings
            timings).writeState (env.stamp state)))

theorem StateManager.logTransition_outcome (manager : StateManager) (env : LogEnv)
    (eventType : EventType) (state : PipelineState) (stageId : String)
    (reason : Option String) (d : Disk) :
    LogOutcome manager env eventType state stageId reason d := by
  let event := transitionEvent env.emit.stamp eventType state.projectId stageId reason
  cases emit_outcome manager.hookRegistry env.emit event d with
  | notAppended error happend hemit =>
      refine .notAppended error happend ?_
      simp only [logTransition, emitTransition, Effect.exec_bind, event, hemit]
  | hookFailed message happend hrun hemit =>
      refine .hookFailed message happend hrun ?_
      simp only [logTransition, emitTransition, Effect.exec_bind, event, hemit]
      rfl
  | emitted results timings happend hrun hemit =>
      have hemits : env.emit.Succeeds manager.hookRegistry eventType := ⟨happend, results, hrun⟩
      rcases exec_atomicWrite_cases env.stateWrite manager.statePath
          (fun d => d.writeState { state with lastEventId := some event.eventId })
          ((d.appendJsonl event).appendTimings timings) with
        ⟨hstate, hwrite⟩ | ⟨hstate, failure, hfailure, hwrite⟩
      · refine .logged timings hemits hstate ?_
        simp only [logTransition, emitTransition, Effect.exec_bind, Effect.exec_pure, event,
          hemit, hwrite]
        rfl
      · refine .notWritten failure timings hfailure hemits hstate ?_
        simp only [logTransition, emitTransition, Effect.exec_bind, Effect.exec_pure, event,
          hemit, hwrite]
        rfl

/-- The transitions the lifecycle log records, in order. -/
def Disk.lifecycle (d : Disk) : List Transition :=
  d.eventsJsonl.filterMap Transition.ofEvent

/-! ### A whole transition -/

/-- The contents written to `state.json`, and the transitions logged. -/
structure Disk.Wrote (d d' : Disk) (states : List PipelineState)
    (transitions : List Transition) : Prop where
  stateJson : d'.stateJson = states.getLastD d.stateJson
  persisted : d'.persisted = d.persisted ++ states
  lifecycle : d'.lifecycle = d.lifecycle ++ transitions

/-- `save` followed by `log_transition`, the way every operation ends. -/
def StateManager.commit (manager : StateManager) (env : TransitionEnv) (state : PipelineState)
    (t : Transition) (reason : Option String) : Forge PipelineState := do
  let saved ← manager.save env.save state
  manager.logTransition env.log t.eventType saved t.stageId reason

/-- Where a transition stops while it is persisted. -/
inductive CommitOutcome (manager : StateManager) (env : TransitionEnv) (state : PipelineState)
    (t : Transition) (reason : Option String) (d : Disk) : Prop
  /-- `state.json` was not written. -/
  | unwritten (failure : Failure) (hfailure : failure.IsWrite)
      (hstate : env.save.stateWrite ≠ .written)
      (hexec : (manager.commit env state t reason).exec d = (.error failure, d))
  /-- The configuration could not be loaded. -/
  | unconfigured (message : String) (d' : Disk) (hstate : env.save.stateWrite = .written)
      (hconfig : env.save.config = .error message)
      (hwrote : d.Wrote d' [env.save.stamp state] []) (hdb : d'.eventsDb = d.eventsDb)
      (hexec : (manager.commit env state t reason).exec d = (.error (.config message), d'))
  /-- The mirror or the lifecycle log was not written. -/
  | unlogged (failure : Failure) (d' : Disk) (hfailure : failure.IsWrite)
      (hstate : env.save.stateWrite = .written) (hconfig : ∃ config, env.save.config = .ok config)
      (hnot : ¬ (env.save.Saves ∧ env.log.emit.append = .ok ()))
      (hwrote : d.Wrote d' [env.save.stamp state] [])
      (hdb : d'.eventsDb = d.eventsDb ∨
        d'.eventsDb = (d.storeState env.save (env.save.stamp state)).eventsDb)
      (hexec : (manager.commit env state t reason).exec d = (.error failure, d'))
  /-- A blocking hook failed. -/
  | hookFailed (message : String) (d' : Disk) (hsaves : env.save.Saves)
      (happend : env.log.emit.append = .ok ())
      (hrun : manager.hookRegistry.run env.log.emit.hookCalls t.eventType = .error message)
      (hwrote : d.Wrote d' [env.save.stamp state] [t])
      (hdb : d'.eventsDb = (d.storeState env.save (env.save.stamp state)).eventsDb)
      (hexec : (manager.commit env state t reason).exec d = (.error (.blockingHook message), d'))
  /-- The event id was not written back. -/
  | unstamped (failure : Failure) (d' : Disk) (hfailure : failure.IsWrite)
      (hsaves : env.save.Saves)
      (hemits : env.log.emit.Succeeds manager.hookRegistry t.eventType)
      (hrelog : env.log.stateWrite ≠ .written)
      (hwrote : d.Wrote d' [env.save.stamp state] [t])
      (hdb : d'.eventsDb = (d.storeState env.save (env.save.stamp state)).eventsDb)
      (hexec : (manager.commit env state t reason).exec d = (.error failure, d'))
  | committed (d' : Disk) (hcommits : env.Commits manager.hookRegistry t.eventType)
      (hwrote : d.Wrote d' [env.save.stamp state, env.log.stamp (env.save.stamp state)] [t])
      (hdb : d'.eventsDb = (d.storeState env.save (env.save.stamp state)).eventsDb)
      (hexec : (manager.commit env state t reason).exec d =
        (.ok (env.log.stamp (env.save.stamp state)), d'))

private theorem lifecycle_event (t : Transition) (env : LogEnv) (state : PipelineState)
    (reason : Option String) :
    [env.event t.eventType state t.stageId reason].filterMap Transition.ofEvent = [t] := by
  simp only [List.filterMap_cons, LogEnv.event, Transition.ofEvent_transitionEvent,
    List.filterMap_nil]

theorem StateManager.commit_outcome (manager : StateManager) (env : TransitionEnv)
    (state : PipelineState) (t : Transition) (reason : Option String) (d : Disk) :
    CommitOutcome manager env state t reason d := by
  cases manager.save_outcome env.save state d with
  | notWritten failure hfailure hstate hsave =>
      refine .unwritten failure hfailure hstate ?_
      rw [commit, Effect.exec_bind_error _ hsave]
  | configFailed message hstate hconfig hsave =>
      refine .unconfigured message (d.writeState (env.save.stamp state)) hstate hconfig
        ⟨rfl, rfl, ?_⟩ rfl ?_
      · exact (List.append_nil _).symm
      · rw [commit, Effect.exec_bind_error _ hsave]
  | mirrorFailed failure hfailure hstate hconfig hmarkdown hsave =>
      refine .unlogged failure (d.writeState (env.save.stamp state)) hfailure hstate hconfig
        (fun h => hmarkdown h.1.markdown) ⟨rfl, rfl, ?_⟩ (Or.inl rfl) ?_
      · exact (List.append_nil _).symm
      · rw [commit, Effect.exec_bind_error _ hsave]
  | saved markdown hsaves hsave =>
      generalize hstored : ((d.writeState (env.save.stamp state)).writeMarkdown
        markdown).storeState env.save (env.save.stamp state) = stored at hsave
      have hwrote : d.Wrote stored [env.save.stamp state] [] := by
        subst hstored
        refine ⟨?_, ?_, ?_⟩
        · simp only [Disk.storeState_stateJson]
          rfl
        · simp only [Disk.storeState_persisted]
          rfl
        · simp only [Disk.lifecycle, Disk.storeState_eventsJsonl, List.append_nil]
          rfl
      have hdb : stored.eventsDb = (d.storeState env.save (env.save.stamp state)).eventsDb := by
        subst hstored
        unfold Disk.storeState
        split <;> rfl
      have hcommit := Effect.exec_bind_ok
        (fun saved => manager.logTransition env.log t.eventType saved t.stageId reason) hsave
      have hlifecycle : (stored.appendJsonl (env.log.event t.eventType (env.save.stamp state)
          t.stageId reason)).lifecycle = d.lifecycle ++ [t] := by
        have hold := hwrote.lifecycle
        simp only [Disk.lifecycle, List.append_nil] at hold
        simp only [Disk.lifecycle, Disk.appendJsonl, List.filterMap_append, lifecycle_event, hold]
      cases manager.logTransition_outcome env.log t.eventType (env.save.stamp state) t.stageId
        reason stored with
      | notAppended error happend hlog =>
          refine .unlogged (.os error) stored trivial hsaves.state hsaves.config (fun h => ?_)
            hwrote (Or.inr hdb) (hcommit.trans hlog)
          cases happend.symm.trans h.2
      | hookFailed message happend hrun hlog =>
          refine .hookFailed message _ hsaves happend hrun ?_ ?_ (hcommit.trans hlog)
          · exact ⟨hwrote.stateJson, hwrote.persisted, hlifecycle⟩
          · exact hdb
      | notWritten failure timings hfailure hemits hstate hlog =>
          refine .unstamped failure _ hfailure hsaves hemits hstate ?_ ?_ (hcommit.trans hlog)
          · exact ⟨hwrote.stateJson, hwrote.persisted, hlifecycle⟩
          · exact hdb
      | logged timings hemits hstate hlog =>
          refine .committed _ ⟨hsaves, hemits, hstate⟩ ?_ ?_ (hcommit.trans hlog)
          · refine ⟨rfl, ?_, hlifecycle⟩
            change stored.persisted ++ [env.log.stamp (env.save.stamp state)] = _
            rw [hwrote.persisted, List.append_assoc]
            rfl
          · exact hdb

/-- A transition returns a state only when everything went through. -/
theorem StateManager.commits_of_ok {manager : StateManager} {env : TransitionEnv}
    {state returned : PipelineState} {t : Transition} {reason : Option String} {d d' : Disk}
    (h : (manager.commit env state t reason).exec d = (.ok returned, d')) :
    env.Commits manager.hookRegistry t.eventType := by
  cases manager.commit_outcome env state t reason d with
  | unwritten failure hfailure hstate hexec => cases h.symm.trans hexec
  | unconfigured message d' hstate hconfig hwrote hdb hexec => cases h.symm.trans hexec
  | unlogged failure d' hfailure hstate hconfig hnot hwrote hdb hexec => cases h.symm.trans hexec
  | hookFailed message d' hsaves happend hrun hwrote hdb hexec => cases h.symm.trans hexec
  | unstamped failure d' hfailure hsaves hemits hrelog hwrote hdb hexec =>
      cases h.symm.trans hexec
  | committed d' hcommits hwrote hdb hexec => exact hcommits

/-- When everything goes through, the transition is written, logged and
returned. -/
theorem StateManager.commit_of_commits {manager : StateManager} {env : TransitionEnv}
    {t : Transition} (h : env.Commits manager.hookRegistry t.eventType) (state : PipelineState)
    (reason : Option String) (d : Disk) :
    ∃ d', (manager.commit env state t reason).exec d =
        (.ok (env.log.stamp (env.save.stamp state)), d') ∧
      d.Wrote d' [env.save.stamp state, env.log.stamp (env.save.stamp state)] [t] ∧
      d'.eventsDb = (d.storeState env.save (env.save.stamp state)).eventsDb := by
  cases manager.commit_outcome env state t reason d with
  | unwritten failure hfailure hstate hexec => exact absurd h.saves.state hstate
  | unconfigured message d' hstate hconfig hwrote hdb hexec =>
      obtain ⟨config, hok⟩ := h.saves.config
      cases hconfig.symm.trans hok
  | unlogged failure d' hfailure hstate hconfig hnot hwrote hdb hexec =>
      exact absurd ⟨h.saves, h.emits.1⟩ hnot
  | hookFailed message d' hsaves happend hrun hwrote hdb hexec =>
      obtain ⟨hooks, hok⟩ := h.emits.2
      cases hrun.symm.trans hok
  | unstamped failure d' hfailure hsaves hemits hrelog hwrote hdb hexec =>
      exact absurd h.relogs hrelog
  | committed d' hcommits hwrote hdb hexec => exact ⟨d', hexec, hwrote, hdb⟩

theorem TransitionEnv.Commits.not_aborts {env : TransitionEnv} {registry : HookRegistry}
    {eventType : EventType} (h : env.Commits registry eventType) :
    ¬ env.Aborts registry eventType := by
  rintro ⟨-, ⟨message, hconfig⟩ | ⟨-, -, message, hrun⟩⟩
  · obtain ⟨config, hok⟩ := h.saves.config
    cases hconfig.symm.trans hok
  · obtain ⟨results, hok⟩ := h.emits.2
    cases hrun.symm.trans hok

/-- A transition raises because a file could not be written, or because of a
side effect after `state.json` was written. -/
theorem StateManager.commit_error {manager : StateManager} {env : TransitionEnv}
    {state : PipelineState} {t : Transition} {reason : Option String} {d d' : Disk}
    {failure : Failure}
    (h : (manager.commit env state t reason).exec d = (.error failure, d')) :
    (failure.IsWrite ∧ ¬ env.Aborts manager.hookRegistry t.eventType) ∨
      (failure.IsSideEffect ∧ (∀ message, failure ≠ .stateTransition message) ∧
        env.Aborts manager.hookRegistry t.eventType ∧ d'.stateJson.view = state.view) := by
  cases manager.commit_outcome env state t reason d with
  | unwritten failure hfailure hstate hexec =>
      cases h.symm.trans hexec
      exact Or.inl ⟨hfailure, fun haborts => hstate haborts.written⟩
  | unconfigured message d' hstate hconfig hwrote hdb hexec =>
      cases h.symm.trans hexec
      exact Or.inr ⟨trivial, by simp, ⟨hstate, Or.inl ⟨message, hconfig⟩⟩,
        by rw [hwrote.stateJson]; rfl⟩
  | unlogged failure d' hfailure hstate hconfig hnot hwrote hdb hexec =>
      cases h.symm.trans hexec
      refine Or.inl ⟨hfailure, ?_⟩
      rintro ⟨-, ⟨message, herror⟩ | ⟨hsaves, happend, -⟩⟩
      · obtain ⟨config, hok⟩ := hconfig
        cases herror.symm.trans hok
      · exact hnot ⟨hsaves, happend⟩
  | hookFailed message d' hsaves happend hrun hwrote hdb hexec =>
      cases h.symm.trans hexec
      exact Or.inr ⟨trivial, by simp, ⟨hsaves.state, Or.inr ⟨hsaves, happend, message, hrun⟩⟩,
        by rw [hwrote.stateJson]; rfl⟩
  | unstamped failure d' hfailure hsaves hemits hrelog hwrote hdb hexec =>
      cases h.symm.trans hexec
      refine Or.inl ⟨hfailure, ?_⟩
      rintro ⟨-, ⟨message, herror⟩ | ⟨-, -, message, hrun⟩⟩
      · obtain ⟨config, hok⟩ := hsaves.config
        cases herror.symm.trans hok
      · obtain ⟨results, hok⟩ := hemits.2
        cases hrun.symm.trans hok
  | committed d' hcommits hwrote hdb hexec => cases h.symm.trans hexec

theorem Failure.IsWrite.not_sideEffect {failure : Failure} (h : failure.IsWrite) :
    ¬ failure.IsSideEffect := by
  cases failure <;> simp_all [Failure.IsWrite, Failure.IsSideEffect]

/-- A commit raises no refusal. -/
theorem StateManager.commit_not_refused {manager : StateManager} {env : TransitionEnv}
    {state : PipelineState} {t : Transition} {reason : Option String} {d d' : Disk}
    {message : String} :
    (manager.commit env state t reason).exec d ≠ (.error (.stateTransition message), d') := by
  intro h
  rcases commit_error h with ⟨hwrite, -⟩ | ⟨-, hne, -⟩
  · exact hwrite
  · exact hne message rfl

/-- A commit raises a side effect's error exactly when it aborts, and then the
state it was to persist is in `state.json`. -/
theorem StateManager.commit_sideEffect_iff (manager : StateManager) (env : TransitionEnv)
    (state : PipelineState) (t : Transition) (reason : Option String) (d : Disk) :
    (∃ failure d', (manager.commit env state t reason).exec d = (.error failure, d') ∧
        failure.IsSideEffect) ↔ env.Aborts manager.hookRegistry t.eventType := by
  constructor
  · rintro ⟨failure, d', hexec, hside⟩
    rcases commit_error hexec with ⟨hwrite, -⟩ | ⟨-, -, haborts, -⟩
    · exact absurd hside hwrite.not_sideEffect
    · exact haborts
  · intro haborts
    rcases hexec : (manager.commit env state t reason).exec d with ⟨failure | returned, d'⟩
    · rcases commit_error hexec with ⟨-, hnot⟩ | ⟨hside, -⟩
      · exact absurd haborts hnot
      · exact ⟨failure, d', rfl, hside⟩
    · exact absurd haborts (commits_of_ok hexec).not_aborts

/-! ### Gate evaluation -/

/-- Nothing but gate events and hook timings has been added. -/
structure Disk.Quiet (d d' : Disk) : Prop where
  stateJson : d'.stateJson = d.stateJson
  persisted : d'.persisted = d.persisted
  eventsDb : d'.eventsDb = d.eventsDb
  lifecycle : d'.lifecycle = d.lifecycle

theorem Disk.Quiet.refl (d : Disk) : d.Quiet d := ⟨rfl, rfl, rfl, rfl⟩

theorem Disk.Quiet.trans {d d' d'' : Disk} (h : d.Quiet d') (h' : d'.Quiet d'') : d.Quiet d'' :=
  ⟨h'.stateJson.trans h.stateJson, h'.persisted.trans h.persisted,
    h'.eventsDb.trans h.eventsDb, h'.lifecycle.trans h.lifecycle⟩

structure GateEnv.Evaluates (env : GateEnv) (registry : HookRegistry) (stageId : String)
    (results : List GateResult) : Prop where
  started : env.started.Succeeds registry .gateStarted
  results : gateResults env stageId = .ok results
  completed : env.completed.Succeeds registry .gateCompleted

/-- Where `evaluate_stage` stops. -/
inductive EvaluateOutcome (registry : HookRegistry) (env : GateEnv) (stageId : String)
    (d : Disk) : Prop
  | interrupted (failure : Failure) (d' : Disk) (hquiet : d.Quiet d')
      (hfailure : ∀ message, failure ≠ .stateTransition message)
      (hnot : ∀ results, ¬ env.Evaluates registry stageId results)
      (hexec : (evaluateStage registry env stageId).exec d = (.error failure, d'))
  | evaluated (results : List GateResult) (d' : Disk) (hquiet : d.Quiet d')
      (hevaluates : env.Evaluates registry stageId results)
      (hexec : (evaluateStage registry env stageId).exec d = (.ok results, d'))

private theorem emitGateEvent_cases (registry : HookRegistry) (env : EmitEnv)
    {eventType : EventType} (hgate : eventType = .gateStarted ∨ eventType = .gateCompleted)
    (stageId : String) (payload : JsonObject) (d : Disk) :
    ∃ d', d.Quiet d' ∧
      ((env.Succeeds registry eventType ∧
          (emitGateEvent registry env eventType stageId payload).exec d = (.ok (), d')) ∨
        (¬ env.Succeeds registry eventType ∧ ∃ failure : Failure,
          (∀ message, failure ≠ .stateTransition message) ∧
          (emitGateEvent registry env eventType stageId payload).exec d =
            (.error failure, d'))) := by
  let event := newEvent env.stamp eventType (some stageId) "core" "gate-coordinator" payload
  have hquiet (timings : List HookTiming) :
      d.Quiet ((d.appendJsonl event).appendTimings timings) := by
    refine ⟨rfl, rfl, rfl, ?_⟩
    have hnone : Transition.ofEvent event = none := by
      rcases hgate with rfl | rfl <;> rfl
    simp [Disk.lifecycle, Disk.appendJsonl, Disk.appendTimings, hnone]
  cases emit_outcome registry env event d with
  | notAppended error happend hemit =>
      refine ⟨d, .refl d, Or.inr ⟨fun h => ?_, .os error, by simp, ?_⟩⟩
      · cases happend.symm.trans h.1
      · simp only [emitGateEvent, Effect.exec_bind, event, hemit]
  | hookFailed message happend hrun hemit =>
      refine ⟨d.appendJsonl event, ⟨rfl, rfl, rfl, (hquiet []).lifecycle⟩,
        Or.inr ⟨fun h => ?_, .blockingHook message, by simp, ?_⟩⟩
      · obtain ⟨results, hresults⟩ := h.2
        cases hrun.symm.trans hresults
      · simp only [emitGateEvent, Effect.exec_bind, event, hemit]
  | emitted results timings happend hrun hemit =>
      refine ⟨(d.appendJsonl event).appendTimings timings, hquiet timings,
        Or.inl ⟨⟨happend, results, hrun⟩, ?_⟩⟩
      simp only [emitGateEvent, Effect.exec_bind, Effect.exec_pure, event, hemit]

theorem evaluateStage_outcome (registry : HookRegistry) (env : GateEnv) (stageId : String)
    (d : Disk) : EvaluateOutcome registry env stageId d := by
  obtain ⟨d₁, hquiet₁, ⟨hstarted, hexec₁⟩ | ⟨hnot, failure, hfailure, hexec₁⟩⟩ :=
    emitGateEvent_cases registry env.started (Or.inl rfl) stageId [("stage_id", .str stageId)] d
  · cases hresults : gateResults env stageId with
    | error message =>
        refine .interrupted (.gateLoad message) d₁ hquiet₁ (by simp) (fun results h => ?_) ?_
        · cases hresults.symm.trans h.results
        · simp only [evaluateStage, Effect.exec_bind, Effect.exec_ofExcept, hexec₁, hresults,
            Except.mapError]
    | ok results =>
        obtain ⟨d₂, hquiet₂, ⟨hcompleted, hexec₂⟩ | ⟨hnot, failure, hfailure, hexec₂⟩⟩ :=
          emitGateEvent_cases registry env.completed (Or.inr rfl) stageId [
            ("stage_id", .str stageId),
            ("blocking_failed", .bool (hasBlockingFailures results)),
            ("result_count", .int results.length)] d₁
        · refine .evaluated results d₂ (hquiet₁.trans hquiet₂) ⟨hstarted, hresults, hcompleted⟩ ?_
          simp only [evaluateStage, Effect.exec_bind, Effect.exec_ofExcept, Effect.exec_pure,
            hexec₁, hexec₂, hresults, Except.mapError]
        · refine .interrupted failure d₂ (hquiet₁.trans hquiet₂) hfailure
            (fun results h => hnot h.completed) ?_
          simp only [evaluateStage, Effect.exec_bind, Effect.exec_ofExcept, hexec₁, hexec₂,
            hresults, Except.mapError]
  · refine .interrupted failure d₁ hquiet₁ hfailure (fun results h => hnot h.started) ?_
    simp only [evaluateStage, Effect.exec_bind, hexec₁]

end ForgeOS
