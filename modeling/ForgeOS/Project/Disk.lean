import ForgeOS.Schemas.State
import ForgeOS.Events.Store
import ForgeOS.Hooks.Registry
import ForgeOS.Library.Effect

/-!
The files of a Forge project that its state manager writes, and the
exceptions that escape from it. Documents are kept decoded. Whether a write or
a read of foreign data succeeds is an input of the operation that makes it.
-/

namespace ForgeOS

open Library

/-- The exceptions a state manager call can raise, with their messages. -/
inductive Failure where
  /-- `StateTransitionError`: the call is refused. -/
  | stateTransition (message : String)
  /-- `AtomicWriteError`: a file could not be replaced. -/
  | atomicWrite (message : String)
  /-- `ConfigError`: `config.yaml` could not be loaded. -/
  | config (message : String)
  /-- `RuntimeError` of `HookRegistry.run`: a blocking hook failed. -/
  | blockingHook (message : String)
  /-- `GateLoadError`: `gates.yaml` could not be loaded. -/
  | gateLoad (message : String)
  /-- `OSError` outside the atomic writes. -/
  | os (message : String)
  /-- Whatever the reflection and lesson stores raise. -/
  | memory (message : String)
deriving DecidableEq, Repr

/-- How one write of a file through a temporary file ends: the parent
directory may not be creatable, the write or the replacement may fail. Neither
changes the file. -/
inductive WriteOutcome where
  | written
  | noDirectory (error : String)
  | failed
deriving DecidableEq, Repr

/-- One record of `.forge/hook-timings.jsonl`. -/
structure HookTiming where
  eventType : String
  hookName : String
  status : String
  durationMs : ℚ
  recordedAt : String
deriving DecidableEq, Repr

/-- The project files. `persisted` is a history variable: every content
`state.json` has had, oldest first. No operation reads it. -/
structure Disk where
  stateJson : PipelineState
  stateMarkdown : String
  eventsJsonl : List LifecycleEvent
  eventsDb : Database
  hookTimings : List HookTiming
  persisted : List PipelineState

/-- A computation on the project files. -/
abbrev Forge (α : Type) := Effect Disk Failure α

namespace Disk

/-- The files right after `forge init` wrote a state. -/
def scaffolded (state : PipelineState) (markdown : String) : Disk where
  stateJson := state
  stateMarkdown := markdown
  eventsJsonl := []
  eventsDb := Database.empty
  hookTimings := []
  persisted := [state]

/-- Replace `state.json`. -/
def writeState (d : Disk) (state : PipelineState) : Disk :=
  { d with stateJson := state, persisted := d.persisted ++ [state] }

def writeMarkdown (d : Disk) (content : String) : Disk :=
  { d with stateMarkdown := content }

def appendJsonl (d : Disk) (event : LifecycleEvent) : Disk :=
  { d with eventsJsonl := d.eventsJsonl ++ [event] }

def appendTimings (d : Disk) (timings : List HookTiming) : Disk :=
  { d with hookTimings := d.hookTimings ++ timings }

def writeDb (d : Disk) (db : Database) : Disk := { d with eventsDb := db }

end Disk

/-- `_atomic_write_text`: perform the write, or raise and change nothing. -/
def atomicWrite (outcome : WriteOutcome) (path : String) (write : Disk → Disk) : Forge Unit :=
  match outcome with
  | .written => modify write
  | .noDirectory error => throw (.os error)
  | .failed => throw (.atomicWrite s!"Failed to atomically write {path}")

end ForgeOS
