import ForgeOS.Events.Model
import Mathlib.Data.List.Sort

/-!
The in-process lifecycle hook registry. A hook's handler is foreign code: how
a call of it ends is an input of `run`, given for each position in the order
of execution.
-/

namespace ForgeOS

inductive HookStatus where
  | succeeded
  | failed
  | timedOut
deriving DecidableEq, Repr

def HookStatus.value : HookStatus → String
  | .succeeded => "succeeded"
  | .failed => "failed"
  | .timedOut => "timed_out"

structure HookResult where
  hookName : String
  status : HookStatus
  error : Option String := none
  durationMs : ℚ := 0
deriving Repr

structure RegisteredHook where
  eventType : String
  name : String
  order : Int := 100
  timeoutSeconds : ℚ := 5
  blocking : Bool := false
deriving DecidableEq, Repr

/-- How one call of a handler ended. -/
inductive HookOutcome where
  | returned
  | raised (error : String)
  | timedOut
deriving DecidableEq, Repr

/-- The outcomes of the handler calls made while one event is dispatched, and
how long each took. -/
structure HookCalls where
  outcome : Nat → RegisteredHook → HookOutcome
  durationMs : Nat → ℚ

abbrev HookRegistry := List RegisteredHook

namespace HookRegistry

/-- `(order, name)` comparison, the sort key of `hooks_for`. -/
def keyLe (a b : RegisteredHook) : Prop :=
  a.order < b.order ∨ a.order = b.order ∧ a.name ≤ b.name

instance : DecidableRel keyLe := fun a b =>
  inferInstanceAs (Decidable (a.order < b.order ∨ a.order = b.order ∧ a.name ≤ b.name))

/-- Hooks for an event type in deterministic order. -/
def hooksFor (registry : HookRegistry) (eventType : String) : List RegisteredHook :=
  (registry.filter fun hook => hook.eventType = eventType).insertionSort keyLe

/-- `_run_one`: the handler's outcome as a result record. -/
def runOne (calls : HookCalls) (position : Nat) (hook : RegisteredHook) : HookResult :=
  match calls.outcome position hook with
  | .timedOut => {
      hookName := hook.name
      status := .timedOut
      error := some "timeout"
      durationMs := calls.durationMs position }
  | .raised error => {
      hookName := hook.name
      status := .failed
      error := some error
      durationMs := calls.durationMs position }
  | .returned => {
      hookName := hook.name
      status := .succeeded
      durationMs := calls.durationMs position }

/-- The loop of `run`, from a position in the order of execution on. A
blocking hook that did not succeed raises and ends it. -/
def runFrom (calls : HookCalls) (position : Nat) :
    List RegisteredHook → Except String (List HookResult)
  | [] => .ok []
  | hook :: rest =>
      let result := runOne calls position hook
      if hook.blocking && result.status != .succeeded then
        let error := result.error.getD "None"
        .error s!"Blocking hook `{hook.name}` failed: {error}"
      else
        match runFrom calls (position + 1) rest with
        | .ok results => .ok (result :: results)
        | .error message => .error message

/-- Run hooks for an event, isolating non-blocking failures. -/
def run (registry : HookRegistry) (calls : HookCalls) (eventType : EventType) :
    Except String (List HookResult) :=
  runFrom calls 0 (registry.hooksFor eventType.value)

end HookRegistry

end ForgeOS
