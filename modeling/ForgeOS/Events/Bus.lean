import ForgeOS.Project.Disk

/-!
The in-process lifecycle event bus: append an event to `.forge/events.jsonl`,
then dispatch the hooks registered for its type.
-/

namespace ForgeOS

open Library

/-- What the outside world does during one `emit`. -/
structure EmitEnv where
  stamp : EventStamp
  /-- Opening and writing `events.jsonl`. -/
  append : Except String Unit
  hookCalls : HookCalls
  /-- Whether `hook-timings.jsonl` can be written, and the clock for it. -/
  timingsWritable : Bool
  recordedAt : Nat → String

/-- `_record_timings`: best effort, and nothing when no hook ran. -/
def recordTimings (env : EmitEnv) (eventType : EventType) (results : List HookResult) :
    Forge Unit :=
  if env.timingsWritable then
    modify fun d => d.appendTimings (results.mapIdx fun i result => {
      eventType := eventType.value
      hookName := result.hookName
      status := result.status.value
      durationMs := result.durationMs
      recordedAt := env.recordedAt i })
  else pure ()

/-- Append an event and dispatch hooks in deterministic order. -/
def emit (registry : HookRegistry) (env : EmitEnv) (event : LifecycleEvent) :
    Forge (List HookResult) := do
  Effect.ofExcept (env.append.mapError .os)
  modify fun d => d.appendJsonl event
  let results ← Effect.ofExcept
    ((registry.run env.hookCalls event.eventType).mapError .blockingHook)
  recordTimings env event.eventType results
  return results

def transitionEvent (stamp : EventStamp) (eventType : EventType) (projectId stageId : String)
    (reason : Option String) : LifecycleEvent :=
  newEvent stamp eventType (some stageId) "core" "state-manager"
    [("project_id", .str projectId), ("reason", .optional reason)]

def emitTransition (registry : HookRegistry) (env : EmitEnv) (eventType : EventType)
    (state : PipelineState) (stageId : String) (reason : Option String) :
    Forge (LifecycleEvent × List HookResult) := do
  let event := transitionEvent env.stamp eventType state.projectId stageId reason
  let results ← emit registry env event
  return (event, results)

namespace EmitEnv

/-- The event can be appended and no blocking hook for it fails. -/
def Succeeds (env : EmitEnv) (registry : HookRegistry) (eventType : EventType) : Prop :=
  env.append = .ok () ∧ ∃ results, registry.run env.hookCalls eventType = .ok results

end EmitEnv

/-- What an `emit` leaves behind: nothing if the log cannot be written; else
the event is logged, and the timings are the only other change. -/
inductive EmitOutcome (registry : HookRegistry) (env : EmitEnv) (event : LifecycleEvent)
    (d : Disk) : Prop
  | notAppended (error : String) (happend : env.append = .error error)
      (hexec : (emit registry env event).exec d = (.error (.os error), d))
  | hookFailed (message : String) (happend : env.append = .ok ())
      (hrun : registry.run env.hookCalls event.eventType = .error message)
      (hexec : (emit registry env event).exec d =
        (.error (.blockingHook message), d.appendJsonl event))
  | emitted (results : List HookResult) (timings : List HookTiming)
      (happend : env.append = .ok ())
      (hrun : registry.run env.hookCalls event.eventType = .ok results)
      (hexec : (emit registry env event).exec d =
        (.ok results, (d.appendJsonl event).appendTimings timings))

private theorem exec_recordTimings (env : EmitEnv) (eventType : EventType)
    (results : List HookResult) (d : Disk) :
    ∃ timings, (recordTimings env eventType results).exec d =
      (.ok (), d.appendTimings timings) := by
  unfold recordTimings
  split
  · exact ⟨_, rfl⟩
  · exact ⟨[], by simp [Disk.appendTimings]⟩

theorem emit_outcome (registry : HookRegistry) (env : EmitEnv) (event : LifecycleEvent)
    (d : Disk) : EmitOutcome registry env event d := by
  cases happend : env.append with
  | error error =>
      refine .notAppended error happend ?_
      simp only [emit, Effect.exec_bind, Effect.exec_ofExcept, happend, Except.mapError]
  | ok _ =>
      cases hrun : registry.run env.hookCalls event.eventType with
      | error message =>
          refine .hookFailed message happend hrun ?_
          simp only [emit, Effect.exec_bind, Effect.exec_ofExcept, Effect.exec_modify, happend,
            hrun, Except.mapError]
      | ok results =>
          obtain ⟨timings, htimings⟩ :=
            exec_recordTimings env event.eventType results (d.appendJsonl event)
          refine .emitted results timings happend hrun ?_
          simp only [emit, Effect.exec_bind, Effect.exec_ofExcept, Effect.exec_modify,
            Effect.exec_pure, happend, hrun, Except.mapError, htimings]

end ForgeOS
