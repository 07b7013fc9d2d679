import ForgeOS.Adapters.ClaudeRunner
import ForgeOS.Events.Store
import ForgeOS.Library.Firsts
import ForgeOS.Library.Folds

/-!
Spawning and replaying a run of Claude Code. The spawn makes its handle from
the events of the stream; the replay makes one from what has been recorded of
them. A record that cannot be written is dropped, and the run goes on.
-/

namespace ForgeOS

open Library

namespace ClaudeCode

open JsonText

/-! ### Outputs -/

def fileWritingTools : List String := ["Write", "Edit", "NotebookEdit"]

/-- A file that a tool has written: its path in the project, and the tool. -/
structure FileWrite where
  path : String
  tool : String
deriving DecidableEq, Repr

def FileWrite.artifact (write : FileWrite) : OutputArtifact :=
  ⟨write.path, "file", some s!"Written via {write.tool} tool"⟩

section Outputs

/- The path in the project a written path is resolved to; none when it is
outside. Resolving some paths raises. -/
variable (relativeTo : String → Except PyError (Option String))

/-- The file a `tool_use` block writes. A name that is a list or a mapping
cannot be looked up in the set of tools. -/
def fileWrite? (block : JsonObject) : Except PyError (Option FileWrite) :=
  match (Dict.get? block "name").getD .null with
  | .str name =>
      if name ∉ fileWritingTools then .ok none
      else
        match Dict.get? block "input" with
        | some (.obj input) =>
            match Dict.get? input "file_path" with
            | some (.str path) =>
                if path = "" then .ok none
                else (relativeTo path).map fun relative => relative.map fun path => ⟨path, name⟩
            | _ => .ok none
        | _ => .ok none
  | .arr _ => .error ⟨"TypeError", "unhashable type: 'list'"⟩
  | .obj _ => .error ⟨"TypeError", "unhashable type: 'dict'"⟩
  | _ => .ok none

/-- The loop of `extract_outputs`, with the paths seen so far. -/
def extractFrom (seen : List String) : List JsonObject → Except PyError (List OutputArtifact)
  | [] => .ok []
  | block :: rest =>
      match fileWrite? relativeTo block with
      | .error error => .error error
      | .ok none => extractFrom seen rest
      | .ok (some write) =>
          if write.path ∈ seen then extractFrom seen rest
          else (extractFrom (write.path :: seen) rest).map (write.artifact :: ·)

def extractOutputs (result : RunResult) : Except PyError (List OutputArtifact) :=
  extractFrom relativeTo [] result.toolUses

end Outputs

/-! ### Spawning -/

structure StagePersona extends AgentDefinition where
  stageIds : List String

structure StageHandle extends AgentHandle where
  stageId : Option String

/-- What the `claude` process leaves behind. -/
structure Process where
  returncode : Int
  stdout : List Char
  stderr : String

/-- One spawn: its arguments, what the host does, and what is taken from
Python. The stream of a new run id is empty. -/
structure SpawnEnv where
  db : Database
  runId : String
  handleId : String
  persona : StagePersona
  context : String
  prompt : String
  grantedTools : List String
  claudeTools : List String
  /-- The security gate or the installation of the hooks raises. -/
  refusal : Option PyError
  /-- `subprocess.run`, which may raise. -/
  process : Except PyError Process
  /-- Removing the hooks raises. -/
  teardown : Option PyError
  /-- Whether the `n`-th record of the run is written, and when. -/
  lands : Nat → Bool
  createdAt : Nat → String
  reading : Reading
  rnd : Rounding
  relativeTo : String → Except PyError (Option String)
  /-- The exception of a line beyond a limit of Python. -/
  refusedLine : PyError
  /-- The `ClaudeCodeSpawnError` of a run that has not succeeded. -/
  unsuccessful : RunResult → PyError
  returncodeOf : PyError → Int
  /-- `str(value)`. -/
  str : Json → String
  fresh : db.readStream runId = []

def adapterId : String := "claude-code"

namespace SpawnEnv

variable (env : SpawnEnv)

/-- `_safe_append`, as the `n`-th record. -/
def safeAppend (n : Nat) (eventType : String) (payload : JsonObject) (db : Database) : Database :=
  if env.lands n then (db.append (env.createdAt n) env.runId eventType (some payload)).2 else db

def startedPayload : JsonObject := [
  ("adapter", .str adapterId),
  ("persona_id", .str env.persona.id),
  ("role", .str env.persona.role),
  ("stage_id", .optional env.persona.stageIds.head?),
  ("prompt", .str env.prompt),
  ("context", .str env.context),
  ("granted_tools", .arr (env.grantedTools.map .str)),
  ("claude_tools", .arr (env.claudeTools.map .str))]

def streamPayload (event : StreamEvent) : JsonObject :=
  [("type", event.type), ("raw", .obj event.raw)]

def completedPayload (handle : StageHandle) (result : RunResult) (text : String) : JsonObject := [
  ("adapter", .str adapterId),
  ("handle_id", .str handle.handleId),
  ("status", .str handle.status),
  ("returncode", .int result.returncode),
  ("tool_use_count", .int result.toolUses.length),
  ("text_length", .int text.length),
  ("metadata", .obj handle.metadata)]

def failedPayload (error : PyError) : JsonObject := [
  ("adapter", .str adapterId),
  ("returncode", .int (env.returncodeOf error)),
  ("error", .str error.message)]

/-- The events the process has written. -/
def events : List StreamEvent :=
  match env.process with
  | .ok process => (parseStreamLines env.reading process.stdout).1
  | .error _ => []

def runClaude : Except PyError RunResult :=
  match env.process with
  | .error error => .error error
  | .ok process =>
      let parsed := parseStreamLines env.reading process.stdout
      let result : RunResult := ⟨process.returncode, parsed.1, process.stderr⟩
      if parsed.2.isSome then .error env.refusedLine
      else if !result.succeeded then .error (env.unsuccessful result)
      else .ok result

/-- The `try` block of `spawn_agent`: what removing the hooks raises takes the
place of what was raised before. -/
def attempt : Except PyError RunResult :=
  match env.refusal, env.teardown with
  | some error, _ => .error error
  | none, some error => .error error
  | none, none => env.runClaude

def buildHandle (result : RunResult) : Except PyError (StageHandle × String) := do
  let outputs ← extractOutputs env.relativeTo result
  let text ← result.textOutput
  let cost ← result.totalCostUsd env.rnd
  return ({
    handleId := env.handleId
    provider := adapterId
    personaId := env.persona.id
    stageId := env.persona.stageIds.head?
    status := "completed"
    outputs
    metadata := [
      ("adapter", .str adapterId),
      ("run_id", .str env.runId),
      ("tools_granted", .arr (env.grantedTools.map .str)),
      ("tool_use_count", .int result.toolUses.length),
      ("event_count", .int result.events.length),
      ("text_length", .int text.length),
      ("final_text", .str (text.take 500).toString),
      ("returncode", .int result.returncode),
      ("usage", .obj result.usage),
      ("total_cost_usd", cost)] }, text)

/-- The records of the stream, from the `n`-th record of the run on. -/
def recordStream (n : Nat) : List StreamEvent → Database → Database
  | [], db => db
  | event :: rest, db =>
      recordStream (n + 1) rest
        (env.safeAppend n "AdapterStreamEvent" (streamPayload event) db)

/-- The events recorded while the process is read: none if it was not run. -/
def streamed : List StreamEvent := if env.refusal.isSome then [] else env.events

def spawnAgent : Except PyError StageHandle × Database :=
  let started := env.safeAppend 0 "AdapterSpawnStarted" env.startedPayload env.db
  let recorded := env.recordStream 1 env.streamed started
  let last := env.streamed.length + 1
  match env.attempt with
  | .error error =>
      (.error error, env.safeAppend last "AdapterSpawnFailed" (env.failedPayload error) recorded)
  | .ok result =>
      match env.buildHandle result with
      | .error error => (.error error, recorded)
      | .ok (handle, text) =>
          (.ok handle, env.safeAppend last "AdapterSpawnCompleted"
            (completedPayload handle result text) recorded)

end SpawnEnv

/-! ### Replaying -/

inductive ReplayFailure where
  /-- `ReplayError` -/
  | replay (message : String)
  | other (error : PyError)

/-- What the loop of `_reconstruct_handle` finds. -/
structure Recorded where
  started : Option JsonObject := none
  stream : List StreamEvent := []
  terminal : Option (String × JsonObject) := none

/-- A `KeyError` in a record. -/
def malformed (runId key : String) : ReplayFailure :=
  .replay s!"run '{runId}' has a malformed or incompatible event record: '{key}'"

/-- `payload[key]`. -/
def item (runId : String) (payload : JsonObject) (key : String) : Except ReplayFailure Json :=
  match Dict.get? payload key with
  | some value => .ok value
  | none => .error (malformed runId key)

/-- A field of the handle that has to be a string, or a mapping. -/
def stringItem (runId : String) (payload : JsonObject) (key : String) :
    Except ReplayFailure String := do
  match ← item runId payload key with
  | .str value => return value
  | _ => throw (.other ⟨"ValidationError", key⟩)

def objectItem (runId : String) (payload : JsonObject) (key : String) :
    Except ReplayFailure JsonObject := do
  match ← item runId payload key with
  | .obj value => return value
  | _ => throw (.other ⟨"ValidationError", key⟩)

/-- `started.get(key)`, which has to be a string or nothing. -/
def optionalItem (payload : JsonObject) (key : String) : Except ReplayFailure (Option String) :=
  match (Dict.get? payload key).getD .null with
  | .null => .ok none
  | .str value => .ok (some value)
  | _ => .error (.other ⟨"ValidationError", key⟩)

def Recorded.add (runId : String) (recorded : Recorded) (row : EventRow) :
    Except ReplayFailure Recorded := do
  if row.eventType = "AdapterSpawnStarted" then
    return { recorded with started := some row.payload }
  else if row.eventType = "AdapterStreamEvent" then
    let type ← item runId row.payload "type"
    let raw ← objectItem runId row.payload "raw"
    return { recorded with stream := recorded.stream ++ [⟨type, raw⟩] }
  else if row.eventType = "AdapterSpawnCompleted" ∨ row.eventType = "AdapterSpawnFailed" then
    return { recorded with terminal := some (row.eventType, row.payload) }
  else return recorded

/-- What an exception in `_reconstruct_handle` becomes. -/
def replayFailure (runId : String) (error : PyError) : ReplayFailure :=
  if error.className ∈ ["KeyError", "TypeError", "JSONDecodeError"] then
    .replay s!"run '{runId}' has a malformed or incompatible event record: {error.message}"
  else .other error

section Replay

variable (relativeTo : String → Except PyError (Option String)) (str : Json → String)

def reconstructHandle (runId : String) (rows : List EventRow) :
    Except ReplayFailure StageHandle := do
  let recorded ← rows.foldlM (Recorded.add runId) {}
  let some started := recorded.started | throw (.replay s!"run '{runId}' has no start event")
  let some (terminalType, terminal) := recorded.terminal
    | throw (.replay s!"run '{runId}' is incomplete (no terminal event)")
  let returncode := str ((Dict.get? terminal "returncode").getD .null)
  let error := str ((Dict.get? terminal "error").getD .null)
  if terminalType = "AdapterSpawnFailed" then
    throw (.replay s!"run '{runId}' failed (returncode {returncode}): {error}")
  -- The return code takes no part in the outputs.
  let _ ← item runId terminal "returncode"
  let handleId ← stringItem runId terminal "handle_id"
  let provider ← stringItem runId started "adapter"
  let personaId ← stringItem runId started "persona_id"
  let stageId ← optionalItem started "stage_id"
  let status ← stringItem runId terminal "status"
  let outputs ← (extractOutputs relativeTo ⟨0, recorded.stream, ""⟩).mapError (replayFailure runId)
  let metadata ← objectItem runId terminal "metadata"
  return { handleId, provider, personaId, stageId, status, outputs, metadata }

def replaySession (db : Database) (runId : String) : Except ReplayFailure StageHandle :=
  let rows := db.readStream runId
  if rows.isEmpty then .error (.replay s!"no recorded run for run_id '{runId}'")
  else reconstructHandle relativeTo str runId rows

end Replay

/-! ### What is recorded -/

section Writes

variable {relativeTo : String → Except PyError (Option String)}

def blockWrites (relativeTo : String → Except PyError (Option String)) (blocks : List JsonObject) :
    List FileWrite :=
  blocks.filterMap fun block =>
    match fileWrite? relativeTo block with
    | .ok write => write
    | .error _ => none

def StreamEvent.writes (relativeTo : String → Except PyError (Option String))
    (event : StreamEvent) : List FileWrite :=
  if event.hasType "assistant" then blockWrites relativeTo event.toolUseBlocks else []

theorem blockWrites_toolUses (result : RunResult) :
    blockWrites relativeTo result.toolUses =
      result.events.flatMap (StreamEvent.writes relativeTo) := by
  rw [RunResult.toolUses]
  induction result.events with
  | nil => rfl
  | cons event rest ih =>
      rw [List.flatMap_cons, ← ih, List.filter_cons, StreamEvent.writes]
      split
      · rw [List.flatMap_cons]
        exact List.filterMap_append
      · rfl

theorem extractFrom_of_ok {blocks : List JsonObject} (seen : List String)
    (h : ∀ block ∈ blocks, ∃ write, fileWrite? relativeTo block = .ok write) :
    extractFrom relativeTo seen blocks =
      .ok ((firstsFrom FileWrite.path seen (blockWrites relativeTo blocks)).map
        FileWrite.artifact) := by
  induction blocks generalizing seen with
  | nil => rfl
  | cons block rest ih =>
      rw [List.forall_mem_cons] at h
      obtain ⟨⟨write, hwrite⟩, hrest⟩ := h
      cases write with
      | none =>
          rw [blockWrites, List.filterMap_cons_none (by rw [hwrite])]
          simp only [extractFrom, hwrite]
          exact ih seen hrest
      | some write =>
          rw [blockWrites, List.filterMap_cons_some (b := write) (by rw [hwrite])]
          simp only [extractFrom, hwrite, firstsFrom]
          split
          · exact ih seen hrest
          · rw [ih (write.path :: seen) hrest]
            rfl

theorem ok_of_extractFrom {blocks : List JsonObject} {seen : List String}
    {outputs : List OutputArtifact} (h : extractFrom relativeTo seen blocks = .ok outputs) :
    ∀ block ∈ blocks, ∃ write, fileWrite? relativeTo block = .ok write := by
  induction blocks generalizing seen outputs with
  | nil => exact List.forall_mem_nil _
  | cons block rest ih =>
      rw [List.forall_mem_cons]
      cases hwrite : fileWrite? relativeTo block with
      | error error => simp [extractFrom, hwrite] at h
      | ok write =>
          refine ⟨⟨write, rfl⟩, ?_⟩
          cases write with
          | none =>
              simp only [extractFrom, hwrite] at h
              exact ih h
          | some write =>
              simp only [extractFrom, hwrite] at h
              split at h
              · exact ih h
              · cases hrest : extractFrom relativeTo (write.path :: seen) rest with
                | error error => simp [hrest, Except.map] at h
                | ok outputs => exact ih hrest

theorem extractOutputs_eq {result : RunResult}
    (h : ∀ block ∈ result.toolUses, ∃ write, fileWrite? relativeTo block = .ok write) :
    extractOutputs relativeTo result =
      .ok ((firsts FileWrite.path (result.events.flatMap (StreamEvent.writes relativeTo))).map
        FileWrite.artifact) := by
  rw [extractOutputs, extractFrom_of_ok [] h, blockWrites_toolUses]
  rfl

theorem mem_toolUses {result : RunResult} {block : JsonObject} :
    block ∈ result.toolUses ↔
      ∃ event ∈ result.events, event.hasType "assistant" ∧ block ∈ event.toolUseBlocks := by
  simp [RunResult.toolUses, and_assoc]

theorem artifact_injective : Function.Injective FileWrite.artifact := by
  intro write other h
  obtain ⟨path, tool⟩ := write
  obtain ⟨path', tool'⟩ := other
  simp only [FileWrite.artifact, OutputArtifact.mk.injEq, Option.some.injEq] at h
  obtain ⟨rfl, -, hdescription⟩ := h
  have htool : tool = tool' := by
    have hlist := congrArg String.toList hdescription
    simp only [String.toList_append, ToString.toString] at hlist
    exact String.toList_injective (List.append_cancel_left (List.append_cancel_right hlist))
  rw [htool]

theorem kept_writes (entries : List (Bool × StreamEvent)) :
    kept (entries.flatMap fun entry => (entry.2.writes relativeTo).map (entry.1, ·)) =
      (kept entries).flatMap (StreamEvent.writes relativeTo) := by
  induction entries with
  | nil => rfl
  | cons entry rest ih =>
      rw [List.flatMap_cons, kept_append, ih]
      obtain ⟨mark, event⟩ := entry
      cases mark <;> simp [kept, List.filterMap_map]

theorem map_snd_writes (entries : List (Bool × StreamEvent)) :
    (entries.flatMap fun entry => (entry.2.writes relativeTo).map (entry.1, ·)).map Prod.snd =
      (entries.map Prod.snd).flatMap (StreamEvent.writes relativeTo) := by
  rw [List.map_flatMap, List.flatMap_map]
  simp [Function.comp_def]

end Writes

namespace SpawnEnv

variable (env : SpawnEnv)

/-- The replay returns the handle of the spawn, or raises a `ReplayError`. -/
def Faithful : Prop :=
  match replaySession env.relativeTo env.str env.spawnAgent.2 env.runId with
  | .ok handle => env.spawnAgent.1 = .ok handle
  | .error (.replay _) => True
  | .error (.other _) => False

/-- What the replay reads in the records of the run. -/
def recorded (db : Database) : Except ReplayFailure Recorded :=
  (db.readStream env.runId).foldlM (Recorded.add env.runId) {}

/-- The events from the `n`-th record on; each is marked if its record is
written. -/
def landed (n : Nat) : List StreamEvent → List (Bool × StreamEvent)
  | [] => []
  | event :: rest => (env.lands n, event) :: landed (n + 1) rest

/-- The files the run has written; a file is marked if its event is recorded. -/
def writes : List (Bool × FileWrite) :=
  (env.landed 1 env.streamed).flatMap fun entry =>
    (entry.2.writes env.relativeTo).map (entry.1, ·)

variable {env}

variable (env) in
theorem recorded_safeAppend (n : Nat) (eventType : String) (payload : JsonObject)
    (db : Database) : ∃ row : EventRow, row.eventType = eventType ∧ row.payload = payload ∧
      env.recorded (env.safeAppend n eventType payload db) =
        if env.lands n then env.recorded db >>= fun r => r.add env.runId row
        else env.recorded db := by
  refine ⟨⟨db.sequence + 1, env.runId, eventType, payload, db.nextVersion env.runId,
    env.createdAt n⟩, rfl, rfl, ?_⟩
  rw [safeAppend]
  split
  · rw [recorded, Database.append, Database.readStream_insert, if_pos rfl, List.foldlM_append]
    simp only [List.foldlM_cons, List.foldlM_nil, bind_pure]
    rfl
  · rfl

variable (env) in
theorem recorded_started {db : Database} (hdb : db.readStream env.runId = []) :
    env.recorded (env.safeAppend 0 "AdapterSpawnStarted" env.startedPayload db) =
      .ok { started := if env.lands 0 then some env.startedPayload else none } := by
  obtain ⟨row, htype, hpayload, hrow⟩ :=
    recorded_safeAppend env 0 "AdapterSpawnStarted" env.startedPayload db
  have hnone : env.recorded db = .ok {} := by
    rw [recorded, hdb]
    rfl
  rw [hrow, hnone]
  split
  · simp [Recorded.add, htype, hpayload]
  · rfl

theorem recorded_streamed {db : Database} {r : Recorded} (n : Nat) (event : StreamEvent)
    (hdb : env.recorded db = .ok r) :
    env.recorded (env.safeAppend n "AdapterStreamEvent" (streamPayload event) db) =
      .ok { r with stream := r.stream ++ if env.lands n then [event] else [] } := by
  obtain ⟨row, htype, hpayload, hrow⟩ :=
    recorded_safeAppend env n "AdapterStreamEvent" (streamPayload event) db
  rw [hrow, hdb]
  split
  · simp [Recorded.add, htype, hpayload, bind, Except.bind, pure, Except.pure, item, objectItem,
      streamPayload, Dict.get?]
  · simp

theorem recorded_recordStream (events : List StreamEvent) (n : Nat) {db : Database} {r : Recorded}
    (hdb : env.recorded db = .ok r) :
    env.recorded (env.recordStream n events db) =
      .ok { r with stream := r.stream ++ kept (env.landed n events) } := by
  induction events generalizing n db r with
  | nil => simp [recordStream, landed, kept, hdb]
  | cons event rest ih =>
      rw [recordStream, ih (n + 1) (recorded_streamed n event hdb), landed]
      cases env.lands n <;> simp [kept]

theorem recorded_terminal {db : Database} {r : Recorded} (n : Nat) (terminal : String × JsonObject)
    (hterminal : terminal.1 = "AdapterSpawnCompleted" ∨ terminal.1 = "AdapterSpawnFailed")
    (hdb : env.recorded db = .ok r) :
    env.recorded (env.safeAppend n terminal.1 terminal.2 db) =
      .ok { r with terminal := if env.lands n then some terminal else r.terminal } := by
  obtain ⟨row, htype, hpayload, hrow⟩ :=
    recorded_safeAppend env n terminal.1 terminal.2 db
  rw [hrow, hdb]
  split
  · rcases hterminal with hname | hname <;>
      simp [Recorded.add, htype, hpayload, hname, bind, Except.bind, pure, Except.pure,
        Prod.ext_iff]
  · rfl

/-- What the replay makes of a run that has not been recorded as completed. -/
theorem replaySession_unfinished {db : Database} {r : Recorded} (hdb : env.recorded db = .ok r)
    (hr : r.started = none ∨ ∀ terminal ∈ r.terminal, terminal.1 = "AdapterSpawnFailed") :
    ∃ message, replaySession env.relativeTo env.str db env.runId = .error (.replay message) := by
  rw [replaySession]
  split
  · exact ⟨_, rfl⟩
  · rw [recorded] at hdb
    rw [reconstructHandle, hdb]
    obtain ⟨started, stream, terminal⟩ := r
    cases started with
    | none => exact ⟨_, rfl⟩
    | some started =>
        cases terminal with
        | none => exact ⟨_, rfl⟩
        | some terminal =>
            have hfailed := hr.resolve_left (Option.some_ne_none started) terminal rfl
            simp [bind, Except.bind, throw, throwThe, MonadExceptOf.throw, hfailed]

section Items

variable {runId key : String} {payload : JsonObject}

theorem item_of_get? {value : Json} (h : Dict.get? payload key = some value) :
    item runId payload key = .ok value := by
  rw [item, h]

theorem stringItem_of_get? {value : String} (h : Dict.get? payload key = some (.str value)) :
    stringItem runId payload key = .ok value := by
  rw [stringItem, item_of_get? h]
  rfl

theorem objectItem_of_get? {value : JsonObject} (h : Dict.get? payload key = some (.obj value)) :
    objectItem runId payload key = .ok value := by
  rw [objectItem, item_of_get? h]
  rfl

theorem optionalItem_of_get? {value : Option String}
    (h : Dict.get? payload key = some (.optional value)) :
    optionalItem payload key = .ok value := by
  rw [optionalItem, h]
  cases value <;> rfl

end Items

/-- What a spawn puts in its handle. -/
theorem handle_of_buildHandle {result : RunResult} {handle : StageHandle} {text : String}
    (h : env.buildHandle result = .ok (handle, text)) :
    extractOutputs env.relativeTo result = .ok handle.outputs ∧
      handle = {
        handleId := env.handleId
        provider := adapterId
        personaId := env.persona.id
        stageId := env.persona.stageIds.head?
        status := "completed"
        outputs := handle.outputs
        metadata := handle.metadata } := by
  rw [buildHandle] at h
  obtain ⟨outputs, houtputs, h⟩ := bind_eq_ok_iff.mp h
  obtain ⟨text, -, h⟩ := bind_eq_ok_iff.mp h
  obtain ⟨cost, -, h⟩ := bind_eq_ok_iff.mp h
  obtain ⟨rfl, rfl⟩ := Prod.mk.inj (Except.ok.inj h)
  exact ⟨houtputs, rfl⟩

theorem replaySession_completed {db : Database} {handle : StageHandle} {result : RunResult}
    {text : String} {stream : List StreamEvent} {outputs : List OutputArtifact}
    (hhandle : env.buildHandle result = .ok (handle, text))
    (hdb : env.recorded db = .ok ⟨some env.startedPayload, stream,
      some ("AdapterSpawnCompleted", completedPayload handle result text)⟩)
    (houtputs : extractOutputs env.relativeTo ⟨0, stream, ""⟩ = .ok outputs) :
    replaySession env.relativeTo env.str db env.runId = .ok { handle with outputs } := by
  rw [replaySession]
  split
  · rename_i hempty
    rw [recorded, List.isEmpty_iff.mp hempty] at hdb
    cases hdb
  · obtain ⟨-, hfields⟩ := handle_of_buildHandle hhandle
    rw [recorded] at hdb
    have hadapter : stringItem env.runId env.startedPayload "adapter" = .ok adapterId :=
      stringItem_of_get? rfl
    have hpersona : stringItem env.runId env.startedPayload "persona_id" = .ok env.persona.id :=
      stringItem_of_get? rfl
    have hstage : optionalItem env.startedPayload "stage_id" = .ok env.persona.stageIds.head? :=
      optionalItem_of_get? rfl
    have hcode : item env.runId (completedPayload handle result text) "returncode" =
        .ok (.int result.returncode) := item_of_get? rfl
    have hid : stringItem env.runId (completedPayload handle result text) "handle_id" =
        .ok handle.handleId := stringItem_of_get? rfl
    have hstatus : stringItem env.runId (completedPayload handle result text) "status" =
        .ok handle.status := stringItem_of_get? rfl
    have hmetadata : objectItem env.runId (completedPayload handle result text) "metadata" =
        .ok handle.metadata := objectItem_of_get? rfl
    rw [reconstructHandle, hdb]
    simp [bind, Except.bind, pure, Except.pure, Except.mapError, hadapter, hpersona, hstage, hcode,
      hid, hstatus, hmetadata, houtputs]
    rw [hfields]
    simp

theorem map_snd_landed (n : Nat) (events : List StreamEvent) :
    (env.landed n events).map Prod.snd = events := by
  induction events generalizing n with
  | nil => rfl
  | cons event rest ih => rw [landed, List.map_cons, ih]

theorem events_of_attempt {result : RunResult} (h : env.attempt = .ok result) :
    result.events = env.streamed := by
  rw [attempt] at h
  split at h
  · cases h
  · cases h
  · rename_i hrefusal hteardown
    rw [streamed, hrefusal, events]
    rw [runClaude] at h
    split at h
    · cases h
    · rename_i process hprocess
      rw [hprocess]
      dsimp only at h
      split at h
      · cases h
      · split at h
        · cases h
        · obtain rfl := Except.ok.inj h
          rfl

/-- The outputs of the spawn and those of the replay are the same exactly when
the first write of each file is kept. -/
theorem outputs_recorded {result : RunResult} {outputs : List OutputArtifact}
    (hattempt : env.attempt = .ok result)
    (houtputs : extractOutputs env.relativeTo result = .ok outputs) :
    ∃ replayed, extractOutputs env.relativeTo ⟨0, kept (env.landed 1 env.streamed), ""⟩ =
        .ok replayed ∧ (replayed = outputs ↔ KeepsFirsts FileWrite.path env.writes) := by
  have hevents := events_of_attempt hattempt
  have hread := ok_of_extractFrom houtputs
  refine ⟨_, extractOutputs_eq ?_, ?_⟩
  · intro block hblock
    obtain ⟨event, hevent, htype, hmem⟩ := mem_toolUses.mp hblock
    refine hread block (mem_toolUses.mpr ⟨event, ?_, htype, hmem⟩)
    rw [hevents, ← map_snd_landed 1 env.streamed]
    exact List.mem_map_of_mem (mem_kept.mp hevent)
  · obtain rfl := Except.ok.inj (houtputs.symm.trans (extractOutputs_eq hread))
    rw [(List.map_injective_iff.mpr artifact_injective).eq_iff, ← firsts_kept_iff, writes,
      kept_writes, map_snd_writes, map_snd_landed, hevents]

/-- The replay is faithful exactly when there is no handle, when the record of
the start or that of the completion is lost, or when each file has the record
of its first write, or an equal one in its place. -/
theorem replay_faithful_iff (env : SpawnEnv) :
    env.Faithful ↔ (∃ error, env.spawnAgent.1 = .error error) ∨ env.lands 0 = false ∨
      env.lands (env.streamed.length + 1) = false ∨ KeepsFirsts FileWrite.path env.writes := by
  have hstream := recorded_recordStream env.streamed 1 (recorded_started env env.fresh)
  rw [List.nil_append] at hstream
  rw [Faithful, spawnAgent]
  cases hattempt : env.attempt with
  | error error =>
      dsimp only
      have hlast := recorded_terminal (env.streamed.length + 1)
        ("AdapterSpawnFailed", env.failedPayload error) (Or.inr rfl) hstream
      obtain ⟨message, hreplay⟩ := replaySession_unfinished hlast (Or.inr (by
        cases env.lands (env.streamed.length + 1) <;> simp))
      rw [hreplay]
      exact iff_of_true trivial (Or.inl ⟨error, rfl⟩)
  | ok result =>
      dsimp only
      cases hhandle : env.buildHandle result with
      | error error =>
          obtain ⟨message, hreplay⟩ := replaySession_unfinished hstream (Or.inr (by simp))
          dsimp only
          rw [hreplay]
          exact iff_of_true trivial (Or.inl ⟨error, rfl⟩)
      | ok built =>
          obtain ⟨handle, text⟩ := built
          have hlast := recorded_terminal (env.streamed.length + 1)
            ("AdapterSpawnCompleted", completedPayload handle result text) (Or.inl rfl) hstream
          dsimp only at hlast ⊢
          by_cases hlost : env.lands 0 = false ∨ env.lands (env.streamed.length + 1) = false
          · obtain ⟨message, hreplay⟩ := replaySession_unfinished hlast (by
              rcases hlost with hlost | hlost <;> simp [hlost])
            rw [hreplay]
            exact iff_of_true trivial (Or.inr (or_assoc.mp (Or.inl hlost)))
          · rw [not_or, Bool.not_eq_false, Bool.not_eq_false] at hlost
            rw [hlost.1, hlost.2] at hlast
            obtain ⟨houtputs, -⟩ := handle_of_buildHandle hhandle
            obtain ⟨replayed, hreplayed, hsame⟩ := outputs_recorded hattempt houtputs
            rw [replaySession_completed hhandle hlast hreplayed, ← hsame]
            simp only [hlost, Bool.true_eq_false, false_or, Except.ok.injEq, reduceCtorEq,
              exists_false]
            constructor
            · exact fun h => (congrArg (fun handle => handle.outputs) h).symm
            · rintro rfl
              rfl

/-- A faithful replay returns as many outputs as the spawn. -/
theorem not_faithful_of_outputs {spawned replayed : Nat}
    (hspawn : env.spawnAgent.1.toOption.map (fun handle => handle.outputs.length) = some spawned)
    (hreplay : (replaySession env.relativeTo env.str env.spawnAgent.2
      env.runId).toOption.map (fun handle => handle.outputs.length) = some replayed)
    (hne : spawned ≠ replayed) : ¬ env.Faithful := by
  intro h
  rw [Faithful] at h
  split at h
  · rename_i handle hhandle
    rw [hhandle] at hreplay
    rw [h] at hspawn
    exact hne ((Option.some.inj hspawn).symm.trans (Option.some.inj hreplay))
  · rename_i hfailed
    rw [hfailed] at hreplay
    cases hreplay
  · exact h

end SpawnEnv

/-- A run that writes one file. -/
def writeText : List Char :=
  ("\x7b\"type\":\"assistant\",\"message\":\x7b\"content\":[\x7b\"type\":\"tool_use\"," ++
    "\"name\":\"Write\",\"input\":\x7b\"file_path\":\"a.py\"\x7d\x7d]\x7d\x7d\n" ++
    "\x7b\"type\":\"result\",\"result\":\"done\"\x7d\n").toList

/-- The run, with the record of the event that writes the file lost. -/
def lostWrite : SpawnEnv where
  db := Database.empty
  runId := "claude-1"
  handleId := "h-1"
  persona := ⟨⟨"builder", "Builder", "build", "Build.", []⟩, []⟩
  context := ""
  prompt := "Build."
  grantedTools := ["write"]
  claudeTools := ["Write"]
  refusal := none
  process := .ok ⟨0, writeText, ""⟩
  teardown := none
  lands n := n ≠ 1
  createdAt _ := "2026-01-01T00:00:00"
  reading := ⟨fun _ => .nan, 4300, 1000, true⟩
  rnd := exactly
  relativeTo path := .ok (some path)
  refusedLine := ⟨"ValueError", "Exceeds the limit"⟩
  unsuccessful _ := ⟨"ClaudeCodeSpawnError", "claude reported an error"⟩
  returncodeOf _ := -1
  str _ := ""
  fresh := rfl

/-- The file is among the outputs of the spawn and not among those of the
replay. -/
theorem lostWrite_outputs :
    lostWrite.spawnAgent.1.toOption.map (fun handle => handle.outputs.length) = some 1 ∧
      (replaySession lostWrite.relativeTo lostWrite.str lostWrite.spawnAgent.2
        lostWrite.runId).toOption.map (fun handle => handle.outputs.length) = some 0 := by
  decide +kernel

theorem lostWrite_not_faithful : ¬ lostWrite.Faithful :=
  SpawnEnv.not_faithful_of_outputs lostWrite_outputs.1 lostWrite_outputs.2 Nat.one_ne_zero

end ClaudeCode

end ForgeOS
