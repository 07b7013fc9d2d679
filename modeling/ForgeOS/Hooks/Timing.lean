import ForgeOS.JsonLines
import ForgeOS.Project.Disk
import Mathlib.Data.List.Induction

/-!
The log of hook timings, `.forge/hook-timings.jsonl`: batches of timings are
appended to it, and a reader takes what it can validate. A timing is a finite
number of milliseconds.
-/

namespace ForgeOS

open Library

namespace HookTiming

open JsonLines

def modelDump (timing : HookTiming) : JsonObject :=
  [("event_type", .str timing.eventType), ("hook_name", .str timing.hookName),
    ("status", .str timing.status), ("duration_ms", .float (.finite timing.durationMs)),
    ("recorded_at", .str timing.recordedAt)]

/-- The validation of the model. `recordedAt` is what the default factory gives,
and `coerce` the number that becomes of a value which is no finite float. -/
def validate (recordedAt : String) (coerce : Json → Option ℚ) (obj : JsonObject) :
    Option HookTiming := do
  let eventType ← strField obj "event_type"
  let hookName ← strField obj "hook_name"
  let status ← strField obj "status"
  let durationMs ←
    match Dict.get? obj "duration_ms" with
    | none => none
    | some (.float (.finite value)) => some value
    | some value => coerce value
  let recordedAt ← strFieldOr obj "recorded_at" recordedAt
  return { eventType, hookName, status, durationMs, recordedAt }

variable (recordedAt : String) (coerce : Json → Option ℚ)

theorem validate_modelDump (timing : HookTiming) :
    validate recordedAt coerce timing.modelDump = some timing := by
  simp [validate, modelDump, strField, strFieldOr, Dict.get?, Json.str?]

theorem requires_validate : Requires (validate recordedAt coerce) "event_type" := by
  intro obj hvalid
  cases hfield : strField obj "event_type" with
  | none =>
      unfold validate at hvalid
      rw [hfield] at hvalid
      cases hvalid
  | some eventType => exact mem_of_strField (by rw [hfield]; rfl)

end HookTiming

/-- A timing with its dump. -/
structure TimingEntry (reading : JsonText.Reading) where
  timing : HookTiming
  dump : JsonLines.ModelDump reading
  dump_object : dump.object = timing.modelDump

namespace HookTimingLog

open JsonLines JsonText

variable {reading : Reading}

/-- `append`, of a batch that may be empty. -/
def append (file : Option (List Char)) (timings : List (TimingEntry reading)) :
    Option (List Char) :=
  if timings = [] then file else appended (timings.map TimingEntry.dump) file

/-- All valid records; what cannot be validated is skipped. -/
def readAll (reading : Reading) (recordedAt : String) (coerce : Json → Option ℚ)
    (file : Option (List Char)) : List HookTiming :=
  JsonLines.readAll reading (HookTiming.validate recordedAt coerce) file

/-- The log holds the timings of its batches. -/
theorem run_append (batches : List (List (TimingEntry reading))) :
    run append none batches = fileOf (batches.flatten.map TimingEntry.dump) := by
  induction batches using List.reverseRecOn with
  | nil => rfl
  | append_singleton earlier batch ih =>
      rw [run_snoc, ih, List.flatten_append, List.flatten_singleton, List.map_append]
      unfold append
      split
      · rename_i hnil
        rw [hnil, List.map_nil, List.append_nil]
      · rename_i hne
        exact appended_fileOf _ (mt List.map_eq_nil_iff.mp hne)

/-- The timings of some batches come back exactly if none of their strings has a
separator. -/
theorem readAll_append_iff (recordedAt : String) (coerce : Json → Option ℚ)
    (hdepth : 0 < reading.maxDepth) (batches : List (List (TimingEntry reading))) :
    readAll reading recordedAt coerce (run append none batches) =
        batches.flatten.map TimingEntry.timing ↔
      ∀ entry ∈ batches.flatten, Unseparated (.obj entry.timing.modelDump) := by
  have hitems : (batches.flatten.map TimingEntry.dump).map
      (fun dump => HookTiming.validate recordedAt coerce dump.object) =
      (batches.flatten.map TimingEntry.timing).map some := by
    rw [List.map_map, List.map_map]
    refine List.map_congr_left fun entry _ => ?_
    change HookTiming.validate recordedAt coerce entry.dump.object = some entry.timing
    rw [entry.dump_object, HookTiming.validate_modelDump]
  have hkept (entry : TimingEntry reading) :
      entry.dump.Kept ↔ Unseparated (.obj entry.timing.modelDump) := by
    rw [← entry.dump_object]
    refine entry.dump.kept_iff ?_ ?_
    · rw [entry.dump_object]
      rfl
    · rw [entry.dump_object]
      exact hdepth
  rw [readAll, run_append, readAll_fileOf, (readAll_written_iff (by decide)
    (HookTiming.requires_validate recordedAt coerce) hitems).2, List.forall_mem_map]
  simp only [hkept]

end HookTimingLog

end ForgeOS
