import ForgeOS.Events.Bus

/-!
Which of the hooks that an `emit` executes are timed. The timings are collected
in the loop over the hooks and recorded behind it, so that a loop which raises
leaves none of them. Here a handler may also raise what `_run_one` does not
isolate.
-/

namespace ForgeOS

open Library

/-- What `HookRegistry.run` raises: its own error, or what a handler raised that
is no `Exception`. -/
inductive RunFailure where
  | blockingHook (message : String)
  | escaped (error : String)
deriving DecidableEq, Repr

namespace HookRegistry

section Loop

variable (calls : HookCalls) (escaped : Nat → RegisteredHook → Option String)

/-- The loop of `run`, from a position in the order of execution on, where the
exceptions of some handlers escape. -/
def dispatchFrom (position : Nat) : List RegisteredHook → Except RunFailure (List HookResult)
  | [] => .ok []
  | hook :: rest =>
      match escaped position hook with
      | some error => .error (.escaped error)
      | none =>
          let result := runOne calls position hook
          if hook.blocking && result.status != .succeeded then
            let error := result.error.getD "None"
            .error (.blockingHook s!"Blocking hook `{hook.name}` failed: {error}")
          else
            match dispatchFrom (position + 1) rest with
            | .ok results => .ok (result :: results)
            | .error failure => .error failure

/-- The hook ends the loop: it is blocking and does not succeed, or what it
raises is not isolated. -/
def Ends (position : Nat) (hook : RegisteredHook) : Prop :=
  (escaped position hook).isSome = true ∨
    hook.blocking = true ∧ calls.outcome position hook ≠ .returned

instance (position : Nat) (hook : RegisteredHook) :
    Decidable (Ends calls escaped position hook) :=
  inferInstanceAs (Decidable (_ ∨ _))

/-- The hooks that are executed, in the order of execution. -/
def executedFrom (position : Nat) : List RegisteredHook → List RegisteredHook
  | [] => []
  | hook :: rest =>
      if Ends calls escaped position hook then [hook]
      else hook :: executedFrom (position + 1) rest

end Loop

theorem status_runOne (calls : HookCalls) (position : Nat) (hook : RegisteredHook) :
    (runOne calls position hook).status = .succeeded ↔
      calls.outcome position hook = .returned := by
  unfold runOne
  cases calls.outcome position hook <;> simp

theorem hookName_runOne (calls : HookCalls) (position : Nat) (hook : RegisteredHook) :
    (runOne calls position hook).hookName = hook.name := by
  unfold runOne
  cases calls.outcome position hook <;> rfl

theorem durationMs_runOne (calls : HookCalls) (position : Nat) (hook : RegisteredHook) :
    (runOne calls position hook).durationMs = calls.durationMs position := by
  unfold runOne
  cases calls.outcome position hook <;> rfl

variable {calls : HookCalls} {escaped : Nat → RegisteredHook → Option String}

/-- One turn of the loop. -/
theorem dispatchFrom_cons (position : Nat) (hook : RegisteredHook) (rest : List RegisteredHook) :
    (Ends calls escaped position hook ∧
      ∃ failure, dispatchFrom calls escaped position (hook :: rest) = .error failure) ∨
    (¬ Ends calls escaped position hook ∧
      dispatchFrom calls escaped position (hook :: rest) =
        (dispatchFrom calls escaped (position + 1) rest).map
          fun results => runOne calls position hook :: results) := by
  rw [dispatchFrom, Ends, ne_eq, ← status_runOne]
  cases hescaped : escaped position hook with
  | some error => exact .inl ⟨.inl rfl, _, rfl⟩
  | none =>
      dsimp only
      split
      · rename_i hblocks
        refine .inl ⟨.inr ?_, _, rfl⟩
        simpa using hblocks
      · rename_i hpasses
        refine .inr ⟨?_, ?_⟩
        · rintro (h | h)
          · cases h
          · exact hpasses (by simpa using h)
        · cases dispatchFrom calls escaped (position + 1) rest <;> rfl

/-- The loop returns exactly if no hook ends it, with the results of all. -/
theorem dispatchFrom_eq_ok_iff (hooks : List RegisteredHook) (results : List HookResult)
    (position : Nat) :
    dispatchFrom calls escaped position hooks = .ok results ↔
      (∀ call ∈ hooks.zipIdx position, ¬ Ends calls escaped call.2 call.1) ∧
        results = (hooks.zipIdx position).map fun call => runOne calls call.2 call.1 := by
  induction hooks generalizing position results with
  | nil =>
      rw [dispatchFrom, Except.ok.injEq, List.zipIdx_nil, eq_comm]
      exact (and_iff_right nofun).symm
  | cons hook rest ih =>
      rw [List.zipIdx_cons, List.forall_mem_cons, List.map_cons]
      rcases @dispatchFrom_cons calls escaped position hook rest with
        ⟨hends, failure, hfailed⟩ | ⟨hpasses, hnext⟩
      · rw [hfailed]
        exact iff_of_false nofun fun h => h.1.1 hends
      · rw [hnext, and_iff_right hpasses]
        cases hrest : dispatchFrom calls escaped (position + 1) rest with
        | error failure =>
            refine iff_of_false nofun fun h => ?_
            have hok := (ih _ (position + 1)).mpr ⟨h.1, rfl⟩
            rw [hrest] at hok
            cases hok
        | ok others =>
            obtain ⟨hothers, rfl⟩ := (ih others (position + 1)).mp hrest
            rw [Except.map, Except.ok.injEq, eq_comm]
            exact (and_iff_right hothers).symm

theorem executedFrom_eq_self (hooks : List RegisteredHook) (position : Nat)
    (h : ∀ call ∈ hooks.zipIdx position, ¬ Ends calls escaped call.2 call.1) :
    executedFrom calls escaped position hooks = hooks := by
  induction hooks generalizing position with
  | nil => rfl
  | cons hook rest ih =>
      rw [List.zipIdx_cons, List.forall_mem_cons] at h
      rw [executedFrom, if_neg h.1, ih (position + 1) h.2]

theorem executedFrom_ne_nil {hooks : List RegisteredHook} (hne : hooks ≠ []) (position : Nat) :
    executedFrom calls escaped position hooks ≠ [] := by
  cases hooks with
  | nil => exact absurd rfl hne
  | cons hook rest =>
      rw [executedFrom]
      split
      · exact List.cons_ne_nil _ _
      · exact List.cons_ne_nil _ _

/-- Where nothing escapes the loop is that of `run`. -/
theorem dispatchFrom_contained (calls : HookCalls) (hooks : List RegisteredHook)
    (position : Nat) :
    dispatchFrom calls (fun _ _ => none) position hooks =
      (runFrom calls position hooks).mapError .blockingHook := by
  induction hooks generalizing position with
  | nil => rfl
  | cons hook rest ih =>
      simp only [dispatchFrom, runFrom, ih]
      split
      · rfl
      · cases runFrom calls (position + 1) rest <;> rfl

end HookRegistry

/-- What an `emit` raises: what the bus raises by itself, or what escaped from a
handler. -/
inductive EmitFault where
  | failure (failure : Failure)
  | escaped (error : String)
deriving DecidableEq, Repr

namespace EventBus

open HookRegistry

def faultOf : RunFailure → EmitFault
  | .blockingHook message => .failure (.blockingHook message)
  | .escaped error => .escaped error

section Emit

variable (registry : HookRegistry) (env : EmitEnv)
  (escaped : Nat → RegisteredHook → Option String) (event : LifecycleEvent)

/-- Append an event and dispatch hooks, of which some may let an exception
escape. -/
def emit : Effect Disk EmitFault (List HookResult) := do
  Effect.ofExcept (env.append.mapError fun error => .failure (.os error))
  modify fun d => d.appendJsonl event
  let hooks := registry.hooksFor event.eventType.value
  let results ← Effect.ofExcept ((dispatchFrom env.hookCalls escaped 0 hooks).mapError faultOf)
  Effect.mapError .failure (recordTimings env event.eventType results)
  return results

/-- The hooks that an `emit` executes; without the event none. -/
def executed : List RegisteredHook :=
  match env.append with
  | .ok _ => executedFrom env.hookCalls escaped 0 (registry.hooksFor event.eventType.value)
  | .error _ => []

/-- The record of one executed hook; what escaped from it has no result. -/
def Times (position : Nat) (hook : RegisteredHook) (timing : HookTiming) : Prop :=
  timing.eventType = event.eventType.value ∧ timing.hookName = hook.name ∧
    (escaped position hook = none →
      timing.status = (runOne env.hookCalls position hook).status.value ∧
        timing.durationMs = env.hookCalls.durationMs position)

/-- The `emit` appends one timing record for each hook it executes, in the order
of execution. -/
def Timed (d : Disk) : Prop :=
  ∃ added, ((emit registry env escaped event).exec d).2.hookTimings = d.hookTimings ++ added ∧
    added.length = (executed registry env escaped event).length ∧
    ∀ position hook timing, (executed registry env escaped event)[position]? = some hook →
      added[position]? = some timing → Times env escaped event position hook timing

end Emit

variable {registry : HookRegistry} {env : EmitEnv}
  {escaped : Nat → RegisteredHook → Option String} {event : LifecycleEvent}

/-- Without an escaping exception this is the `emit` of the bus. -/
theorem exec_emit_contained (d : Disk) :
    (emit registry env (fun _ _ => none) event).exec d =
      (Effect.mapError .failure (ForgeOS.emit registry env event)).exec d := by
  have hloop := dispatchFrom_contained env.hookCalls (registry.hooksFor event.eventType.value) 0
  rw [Effect.exec_mapError]
  unfold emit ForgeOS.emit
  simp only [Effect.exec_bind, Effect.exec_ofExcept, Effect.exec_modify, Effect.exec_mapError,
    Effect.exec_pure, hloop, HookRegistry.run]
  cases env.append with
  | error error => rfl
  | ok _ =>
      dsimp only [Except.mapError]
      cases runFrom env.hookCalls 0 (registry.hooksFor event.eventType.value) with
      | error message => rfl
      | ok results =>
          dsimp only
          rcases (recordTimings env event.eventType results).exec (d.appendJsonl event) with
            ⟨outcome, after⟩
          cases outcome <;> rfl

theorem exec_emit_of_not_appended {error : String} (happend : env.append = .error error)
    (d : Disk) :
    (emit registry env escaped event).exec d = (.error (.failure (.os error)), d) := by
  simp only [emit, Effect.exec_bind, Effect.exec_ofExcept, happend, Except.mapError]

theorem exec_emit_of_raised (happend : env.append = .ok ()) {failure : RunFailure}
    (hrun : dispatchFrom env.hookCalls escaped 0 (registry.hooksFor event.eventType.value) =
      .error failure) (d : Disk) :
    (emit registry env escaped event).exec d = (.error (faultOf failure), d.appendJsonl event) := by
  simp only [emit, Effect.exec_bind, Effect.exec_ofExcept, Effect.exec_modify, happend, hrun,
    Except.mapError]

def timingsOf (env : EmitEnv) (event : LifecycleEvent) (results : List HookResult) :
    List HookTiming :=
  results.mapIdx fun i result => {
    eventType := event.eventType.value
    hookName := result.hookName
    status := result.status.value
    durationMs := result.durationMs
    recordedAt := env.recordedAt i }

theorem exec_emit_of_returned (hwritable : env.timingsWritable = true)
    (happend : env.append = .ok ()) {results : List HookResult}
    (hrun : dispatchFrom env.hookCalls escaped 0 (registry.hooksFor event.eventType.value) =
      .ok results) (d : Disk) :
    (emit registry env escaped event).exec d =
      (.ok results, (d.appendJsonl event).appendTimings (timingsOf env event results)) := by
  simp only [emit, recordTimings, hwritable, if_true, Effect.exec_bind, Effect.exec_ofExcept,
    Effect.exec_modify, Effect.exec_mapError, Effect.exec_pure, happend, hrun, Except.mapError]
  rfl

/-- Every hook an `emit` executes is timed exactly if no hook for the event ends
the loop over them, or there is none because the event cannot be appended. What
ends the loop takes the results of the hooks before it along. -/
theorem timed_iff (registry : HookRegistry) (env : EmitEnv)
    (escaped : Nat → RegisteredHook → Option String) (event : LifecycleEvent) (d : Disk)
    (hwritable : env.timingsWritable = true) :
    Timed registry env escaped event d ↔
      env.append ≠ .ok () ∨
        ∀ call ∈ (registry.hooksFor event.eventType.value).zipIdx,
          ¬ Ends env.hookCalls escaped call.2 call.1 := by
  cases happend : env.append with
  | error error =>
      refine iff_of_true ?_ (.inl nofun)
      refine ⟨[], ?_, ?_, ?_⟩
      · rw [exec_emit_of_not_appended happend, List.append_nil]
      · rw [executed, happend]
        rfl
      · intro position hook timing _ htiming
        cases htiming
  | ok _ =>
      have hexecuted : executed registry env escaped event =
          executedFrom env.hookCalls escaped 0 (registry.hooksFor event.eventType.value) := by
        rw [executed, happend]
      cases hrun : dispatchFrom env.hookCalls escaped 0
          (registry.hooksFor event.eventType.value) with
      | error failure =>
          have hends : ¬ ∀ call ∈ (registry.hooksFor event.eventType.value).zipIdx,
              ¬ Ends env.hookCalls escaped call.2 call.1 := by
            intro hpass
            have hok := (dispatchFrom_eq_ok_iff _ _ 0).mpr ⟨hpass, rfl⟩
            rw [hrun] at hok
            cases hok
          refine iff_of_false ?_ (not_or.mpr ⟨not_not_intro rfl, hends⟩)
          rintro ⟨added, hadded, hlength, -⟩
          rw [exec_emit_of_raised happend hrun] at hadded
          obtain rfl := List.self_eq_append_right.mp hadded
          have hnone := List.length_eq_zero_iff.mp hlength.symm
          rw [hexecuted] at hnone
          have hne : registry.hooksFor event.eventType.value ≠ [] := by
            intro hempty
            apply hends
            rw [hempty]
            exact nofun
          exact executedFrom_ne_nil hne 0 hnone
      | ok results =>
          obtain ⟨hpass, hresults⟩ := (dispatchFrom_eq_ok_iff _ _ 0).mp hrun
          rw [executedFrom_eq_self _ 0 hpass] at hexecuted
          refine iff_of_true ?_ (.inr hpass)
          refine ⟨timingsOf env event results, ?_, ?_, ?_⟩
          · rw [exec_emit_of_returned hwritable happend hrun]
            rfl
          · rw [timingsOf, List.length_mapIdx, hresults, List.length_map, List.length_zipIdx,
              hexecuted]
          · intro position hook timing hhook htiming
            rw [hexecuted] at hhook
            have hresult : results[position]? = some (runOne env.hookCalls position hook) := by
              rw [hresults, List.getElem?_map, List.getElem?_zipIdx, hhook, Nat.zero_add]
              rfl
            rw [timingsOf, List.getElem?_mapIdx, hresult] at htiming
            obtain rfl := Option.some.inj htiming
            exact ⟨rfl, hookName_runOne _ _ _, fun _ => ⟨rfl, durationMs_runOne _ _ _⟩⟩

/-- A blocking hook that runs ahead of another one, -/
def demoRegistry : HookRegistry :=
  [{ eventType := "StageStarted", name := "lint", order := 1, blocking := true },
    { eventType := "StageStarted", name := "notify", order := 2 }]

def demoEvent : LifecycleEvent :=
  newEvent ⟨"7c9e6679", "2026-01-01T00:00:00Z"⟩ .stageStarted (some "plan") "core"
    "state-manager" []

/-- and an `emit` in which every handler ends the same way. -/
def demoEnv (outcome : HookOutcome) : EmitEnv where
  stamp := ⟨"7c9e6679", "2026-01-01T00:00:00Z"⟩
  append := .ok ()
  hookCalls := ⟨fun _ _ => outcome, fun _ => 1⟩
  timingsWritable := true
  recordedAt := fun _ => "2026-01-01T00:00:00Z"

/-- Files of a project without stages. -/
def demoDisk : Disk :=
  Disk.scaffolded
    { projectId := "demo", profile := "standard", currentStageId := none, stages := []
      createdAt := "2026-01-01T00:00:00Z", updatedAt := "2026-01-01T00:00:00Z" } ""

theorem timed_demo :
    Timed demoRegistry (demoEnv .returned) (fun _ _ => none) demoEvent demoDisk ↔
      (demoEnv .returned).append ≠ .ok () ∨
        ∀ call ∈ (demoRegistry.hooksFor demoEvent.eventType.value).zipIdx,
          ¬ Ends (demoEnv .returned).hookCalls (fun _ _ => none) call.2 call.1 :=
  timed_iff demoRegistry (demoEnv .returned) (fun _ _ => none) demoEvent demoDisk rfl

/-- A blocking hook that fails is executed, and leaves no timing. -/
theorem not_timed :
    ¬ ∀ (registry : HookRegistry) (env : EmitEnv) (event : LifecycleEvent) (d : Disk),
      env.timingsWritable = true → Timed registry env (fun _ _ => none) event d := by
  intro h
  have htimed := h demoRegistry (demoEnv (.raised "style errors")) demoEvent demoDisk rfl
  rw [timed_iff _ _ _ _ _ rfl] at htimed
  revert htimed
  decide

end EventBus

end ForgeOS
