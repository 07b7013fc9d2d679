import ForgeOS.Adapters.Bridge
import ForgeOS.Library.Effect
import Mathlib.Logic.Function.Basic

/-!
The OpenCode adapter. Each run of `spawn_agent` registers its session under its
aggregate id, and takes the proposals of the event stream and of the MCP proxy
from one queue. The proxy posts its tool calls to `/propose`; the handler looks
the session up, leaves a future with it, and answers with what that is resolved
with. Any number of runs and requests share one adapter.
-/

namespace ForgeOS

open Library

namespace OpenCode

/-! ### Requests of the proxy -/

/-- The body of a `/propose` request. -/
structure ProposeBody where
  aggregateId : String
  callId : String
  abstractTool : String
  inputs : JsonObject

structure HttpResponse where
  status : Nat
  body : JsonObject

inductive McpFuture where
  | pending
  | result (result : ToolResult)
  /-- A `RuntimeError`. -/
  | failed (message : String)
  | cancelled

/-- One call of `_handle_propose`: the run whose session it has found, with its
future, and its response. -/
structure ProposeRequest (ρ : Type) where
  callId : String
  run : Option ρ
  future : Option McpFuture
  answer : Option HttpResponse

/-! ### Runs -/

/-- What `events_q` holds. The `source` in the payload of a proposal tells the
two kinds apart. -/
inductive Item where
  | event (event : NormalizedEvent)
  | permission (proposal : ToolUseProposal) (permissionId : Option String)
  | mcp (proposal : ToolUseProposal)
  | sentinel

/-- What `_consume_sse` makes of an event, or of its own crash. -/
inductive SseOutput where
  | event (event : NormalizedEvent)
  | permission (proposal : ToolUseProposal) (permissionId : Option String)
  /-- An `AGENT_COMPLETED` or `AGENT_FAILED`, with which the consumer returns. -/
  | terminal (event : NormalizedEvent)

inductive Ending where
  | completed
  | raised (error : PyError)
  /-- The caller has closed the generator. -/
  | closed

inductive RunPhase where
  /-- Awaiting `_create_session`. -/
  | creating
  /-- At the first yield. -/
  | started
  /-- Awaiting `_submit_prompt`. -/
  | submitting
  /-- Awaiting the queue, in the drain loop. -/
  | draining
  /-- At a yield in the drain loop. -/
  | paused (item : Item)
  /-- At the yield of the timeout. -/
  | timedOut
  /-- Awaiting `_respond_permission`. -/
  | responding
  /-- In the `finally` block, awaiting the cancelled event stream. -/
  | closing (ending : Ending)
  /-- Finished, through the drain loop or without it. -/
  | ended (drained : Bool) (ending : Ending)

/-- The task of `_consume_sse`. -/
inductive SseTask where
  | none
  | running
  | done
  | cancelled

/-- One run of `spawn_agent`, with its `_SessionState`. The entry of a request
in `pending_mcp` stands under the call id of the request. The results resumed
for the proxy's proposals are kept as a record. -/
structure AgentRun (ι : Type) where
  aggregateId : String
  sessionId : String
  phase : RunPhase
  eventsQ : List Item
  pendingMcp : String → Option ι
  sse : SseTask
  resumed : List ToolResult

end OpenCode

open OpenCode

/-- The adapter: `_sessions`, the runs and the requests. -/
structure OpenCodeAdapter (ρ ι : Type) where
  sessions : String → Option ρ
  runs : ρ → Option (AgentRun ι)
  requests : ι → Option (ProposeRequest ρ)

namespace OpenCode

/-- What session creation raises. -/
inductive Raised where
  | exception (error : PyError)
  /-- `CancelledError`, which is no `Exception`. -/
  | cancelled

/-- A step of one run that concerns nothing else. -/
inductive RunStep where
  | created (sessionId : String)
  | noSessionId
  | close
  | promptSubmitted
  | promptFails (error : PyError)
  | streamed (output : SseOutput)
  | streamEnds
  | take
  | timeout
  | responded
  | respondFails (error : PyError)
  | interrupt

/-- One step of a caller, of the OpenCode server, or of the proxy. -/
inductive AdapterStep (ρ ι : Type) where
  | start (r : ρ) (aggregateId : String)
  | createFails (r : ρ) (raised : Raised)
  | within (r : ρ) (k : RunStep)
  | resume (r : ρ) (sent : Option ToolResult)
  | stopped (r : ρ)
  | arrive (i : ι) (body : ProposeBody)
  | malformed (i : ι) (detail : String)
  | wake (i : ι)
  | expire (i : ι)
  | shutdown

/-! ### The generator -/

namespace AgentRun

variable {ι : Type} (run : AgentRun ι)

def initial (aggregateId : String) : AgentRun ι where
  aggregateId
  sessionId := ""
  phase := .creating
  eventsQ := []
  pendingMcp := fun _ => none
  sse := .none
  resumed := []

/-- The generator ends before the `try` block of the drain loop. -/
def abort (ending : Ending) : AgentRun ι := { run with phase := .ended false ending }

/-- The generator leaves the drain loop: the event stream is cancelled. -/
def leave (ending : Ending) : AgentRun ι :=
  { run with
    phase := .closing ending
    sse :=
      match run.sse with
      | .running => .cancelled
      | sse => sse }

def created (sessionId : String) : AgentRun ι :=
  match run.phase with
  | .creating => { run with phase := .started, sessionId }
  | _ => run

/-- The session is none that has an `id`; this is not caught. -/
def noSessionId : AgentRun ι :=
  match run.phase with
  | .creating => run.abort (.raised ⟨"KeyError", "'id'"⟩)
  | _ => run

def close : AgentRun ι :=
  match run.phase with
  | .started => run.abort .closed
  | .paused _ | .timedOut => run.leave .closed
  | _ => run

def promptSubmitted : AgentRun ι :=
  match run.phase with
  | .submitting => { run with phase := .draining }
  | _ => run

def promptFails (error : PyError) : AgentRun ι :=
  match run.phase with
  | .submitting => run.abort (.raised error)
  | _ => run

/-- `_consume_sse` puts what it has translated. -/
def streamed (output : SseOutput) : AgentRun ι :=
  match run.sse with
  | .running =>
      match output with
      | .event event => { run with eventsQ := run.eventsQ ++ [.event event] }
      | .permission proposal permissionId =>
          { run with eventsQ := run.eventsQ ++ [.permission proposal permissionId] }
      | .terminal event =>
          { run with eventsQ := run.eventsQ ++ [.event event, .sentinel], sse := .done }
  | _ => run

/-- The stream ends without a terminal event. -/
def streamEnds : AgentRun ι :=
  match run.sse with
  | .running => { run with sse := .done }
  | _ => run

def take : AgentRun ι :=
  match run.phase, run.eventsQ with
  | .draining, item :: rest => { run with phase := .paused item, eventsQ := rest }
  | _, _ => run

def timeout : AgentRun ι :=
  match run.phase with
  | .draining => { run with phase := .timedOut }
  | _ => run

def responded : AgentRun ι :=
  match run.phase with
  | .responding => { run with phase := .draining }
  | _ => run

def respondFails (error : PyError) : AgentRun ι :=
  match run.phase with
  | .responding => run.leave (.raised error)
  | _ => run

/-- The task of the caller is cancelled while the generator awaits something.
In the `finally` block that is suppressed. -/
def interrupt : AgentRun ι :=
  match run.phase with
  | .creating | .submitting => run.abort (.raised ⟨"CancelledError", ""⟩)
  | .draining | .responding => run.leave (.raised ⟨"CancelledError", ""⟩)
  | _ => run

def step : RunStep → AgentRun ι
  | .created sessionId => run.created sessionId
  | .noSessionId => run.noSessionId
  | .close => run.close
  | .promptSubmitted => run.promptSubmitted
  | .promptFails error => run.promptFails error
  | .streamed output => run.streamed output
  | .streamEnds => run.streamEnds
  | .take => run.take
  | .timeout => run.timeout
  | .responded => run.responded
  | .respondFails error => run.respondFails error
  | .interrupt => run.interrupt

/-- The checks on what the generator is sent for a proposal. -/
def verdict (toolUseId : String) (sent : Option ToolResult) : Except PyError ToolResult :=
  match sent with
  | none =>
      .error ⟨"RuntimeError", "spawn_agent expected ToolResult, got <class 'NoneType'>"⟩
  | some result =>
      if result.toolUseId ≠ toolUseId then
        .error ⟨"RuntimeError",
          s!"ToolResult id mismatch: expected {toolUseId}, got {result.toolUseId}"⟩
      else .ok result

/-- The caller resumes the generator. A result for a proposal of the proxy is
handed on to its future. -/
def resume (sent : Option ToolResult) : AgentRun ι × Option ToolResult :=
  match run.phase with
  | .started => ({ run with phase := .submitting, sse := .running }, none)
  | .timedOut => (run.leave .completed, none)
  | .paused (.event event) =>
      if event.kind = .agentCompleted ∨ event.kind = .agentFailed then (run.leave .completed, none)
      else ({ run with phase := .draining }, none)
  | .paused (.permission proposal permissionId) =>
      match verdict proposal.toolUseId sent with
      | .error error => (run.leave (.raised error), none)
      | .ok _ =>
          match permissionId with
          | none => ({ run with phase := .draining }, none)
          | some _ => ({ run with phase := .responding }, none)
  | .paused (.mcp proposal) =>
      match verdict proposal.toolUseId sent with
      | .error error => (run.leave (.raised error), none)
      | .ok result =>
          ({ run with phase := .draining, resumed := run.resumed ++ [result] }, some result)
  -- The sentinel of the event stream is not the one the loop looks for.
  | .paused .sentinel =>
      (run.leave (.raised ⟨"AttributeError", "'object' object has no attribute 'kind'"⟩), none)
  | _ => (run, none)

def pop (callId : String) : AgentRun ι :=
  { run with pendingMcp := Function.update run.pendingMcp callId none }

end AgentRun

/-! ### Requests -/

namespace ProposeRequest

variable {ρ : Type}

/-- A request that is answered at once. -/
def refused (callId : String) (status : Nat) (error : String) : ProposeRequest ρ where
  callId
  run := none
  future := none
  answer := some ⟨status, [("error", .str error)]⟩

/-- `fut.set_exception(RuntimeError(message))`, unless the future is done. -/
def fail (request : ProposeRequest ρ) (message : String) : ProposeRequest ρ :=
  match request.future with
  | some .pending => { request with future := some (.failed message) }
  | _ => request

/-- `fut.set_result(result)`, unless the future is done. -/
def fulfil (request : ProposeRequest ρ) (result : ToolResult) : ProposeRequest ρ :=
  match request.future with
  | some .pending => { request with future := some (.result result) }
  | _ => request

/-- `wait_for` has run into its timeout. -/
def expire (request : ProposeRequest ρ) : ProposeRequest ρ :=
  { request with
    future :=
      match request.future with
      | some .pending => some .cancelled
      | future => future
    answer := some ⟨504, [("error", .str "Forge validator timed out")]⟩ }

end ProposeRequest

/-- The response with the content of a result; `dumps` is `json.dumps`. -/
def respond (dumps : Json → String) (result : ToolResult) : HttpResponse :=
  let content :=
    match result.content with
    | .str content => content
    | content => dumps content
  if result.isError then ⟨200, [("error", .str content)]⟩ else ⟨200, [("content", .str content)]⟩

/-- `FORGE_CUSTOM_TOOLS.get(abstract_tool, {}).get("name", f"mcp::{abstract_tool}")`. -/
def wireName (abstractTool : String) : String :=
  match abstractTool with
  | "ProposeEvent" => "forge_propose_event"
  | "ReadLKG" => "forge_read_lkg"
  | _ => s!"mcp::{abstractTool}"

/-- The proposal of a `/propose` request. -/
def ProposeBody.proposal (body : ProposeBody) : ToolUseProposal where
  kind := .toolUseProposed
  aggregateId := body.aggregateId
  payload := [("source", .str "mcp_proxy"), ("aggregate_id", .str body.aggregateId)]
  toolUseId := body.callId
  toolName := wireName body.abstractTool
  abstractTool := body.abstractTool
  inputs := body.inputs

end OpenCode

/-! ### The adapter -/

namespace OpenCodeAdapter

variable {ρ ι : Type} [DecidableEq ρ] [DecidableEq ι]

omit [DecidableEq ρ] [DecidableEq ι] in
def initial : OpenCodeAdapter ρ ι := ⟨fun _ => none, fun _ => none, fun _ => none⟩

variable (s : OpenCodeAdapter ρ ι)

def setRun (r : ρ) (run : AgentRun ι) : OpenCodeAdapter ρ ι :=
  { s with runs := Function.update s.runs r (some run) }

def setRequest (i : ι) (request : ProposeRequest ρ) : OpenCodeAdapter ρ ι :=
  { s with requests := Function.update s.requests i (some request) }

/-- One run changes. -/
def modify (r : ρ) (f : AgentRun ι → AgentRun ι) : OpenCodeAdapter ρ ι :=
  match s.runs r with
  | some run => s.setRun r (f run)
  | none => s

/-- `spawn_agent` up to the session creation: the run is registered under its
aggregate id, in the place of whatever was. -/
def start (r : ρ) (aggregateId : String) : OpenCodeAdapter ρ ι :=
  match s.runs r with
  | none =>
      { s.setRun r (.initial aggregateId) with
        sessions := Function.update s.sessions aggregateId (some r) }
  | some _ => s

/-- Session creation raises; only an `Exception` takes the registration back. -/
def createFails (r : ρ) (raised : Raised) : OpenCodeAdapter ρ ι :=
  match s.runs r with
  | some run =>
      match run.phase, raised with
      | .creating, .exception error =>
          { s.setRun r (run.abort (.raised error)) with
            sessions := Function.update s.sessions run.aggregateId none }
      | .creating, .cancelled => s.setRun r (run.abort (.raised ⟨"CancelledError", ""⟩))
      | _, _ => s
  | none => s

/-- The future a resumed result is for. -/
def deliver (r : ρ) (run : AgentRun ι) (result : ToolResult) : OpenCodeAdapter ρ ι :=
  let popped := s.setRun r (run.pop result.toolUseId)
  match run.pendingMcp result.toolUseId with
  | some i =>
      match s.requests i with
      | some request => popped.setRequest i (request.fulfil result)
      | none => popped
  | none => popped

def resume (r : ρ) (sent : Option ToolResult) : OpenCodeAdapter ρ ι :=
  match s.runs r with
  | some run =>
      match run.resume sent with
      | (run, some result) => s.deliver r run result
      | (run, none) => s.setRun r run
  | none => s

/-- The futures that stand in `pending_mcp` of some runs fail. -/
def failPending (ends : ρ → Bool) (message : String) : ι → Option (ProposeRequest ρ) := fun i =>
  (s.requests i).map fun request =>
    match request.run with
    | some r =>
        if ends r && ((s.runs r).bind fun run => run.pendingMcp request.callId) = some i then
          request.fail message
        else request
    | none => request

/-- The rest of the `finally` block, once the event stream has stopped. -/
def stopped (r : ρ) : OpenCodeAdapter ρ ι :=
  match s.runs r with
  | some run =>
      match run.phase with
      | .closing ending =>
          { s.setRun r { run with phase := .ended true ending } with
            requests := s.failPending (· = r) "spawn_agent ended with pending MCP call"
            sessions := Function.update s.sessions run.aggregateId none }
      | _ => s
  | none => s

/-- `_handle_propose` up to its `await`. -/
def arrive (i : ι) (body : ProposeBody) : OpenCodeAdapter ρ ι :=
  match s.requests i with
  | some _ => s
  | none =>
      if body.aggregateId = "" ∨ body.callId = "" ∨ body.abstractTool = "" then
        s.setRequest i (.refused body.callId 400 "missing aggregate_id/call_id/abstract_tool")
      else
        match s.sessions body.aggregateId with
        | none =>
            s.setRequest i (.refused body.callId 404 s!"unknown aggregate {body.aggregateId}")
        | some r =>
            match s.runs r with
            | none => s
            | some run =>
                (s.setRun r { run with
                  pendingMcp := Function.update run.pendingMcp body.callId (some i)
                  eventsQ := run.eventsQ ++ [.mcp body.proposal] }).setRequest i
                  ⟨body.callId, some r, some .pending, none⟩

def malformed (i : ι) (detail : String) : OpenCodeAdapter ρ ι :=
  match s.requests i with
  | some _ => s
  | none => s.setRequest i (.refused "" 400 s!"malformed JSON: {detail}")

/-- `sess.pending_mcp.pop(call_id, None)`, by the handler of a request. -/
def popRequest (request : ProposeRequest ρ) : OpenCodeAdapter ρ ι :=
  match request.run with
  | some r => s.modify r fun run => run.pop request.callId
  | none => s

/-- The handler runs on from a future that is done. `dumps` is `json.dumps`, and
`reprMessage` the `repr` of a message. -/
def wake (dumps : Json → String) (reprMessage : String → String) (i : ι) :
    OpenCodeAdapter ρ ι :=
  match s.requests i with
  | some request =>
      match request.answer, request.future with
      | none, some (.result result) =>
          s.setRequest i { request with answer := some (respond dumps result) }
      | none, some (.failed message) =>
          (s.popRequest request).setRequest i { request with
            answer := some ⟨500,
              [("error", .str s!"validator error: RuntimeError({reprMessage message})")]⟩ }
      | _, _ => s
  | none => s

/-- The handler runs into its timeout. -/
def expire (i : ι) : OpenCodeAdapter ρ ι :=
  match s.requests i with
  | some request =>
      match request.answer, request.future with
      | none, some _ => (s.popRequest request).setRequest i request.expire
      | _, _ => s
  | none => s

/-- `_stop_backchannel`: the sessions that are registered lose what they have
pending. -/
def shutdown : OpenCodeAdapter ρ ι where
  sessions := fun _ => none
  runs := fun r => (s.runs r).map fun run =>
    if s.sessions run.aggregateId = some r then { run with pendingMcp := fun _ => none } else run
  requests := s.failPending
    (fun r => ((s.runs r).bind fun run => s.sessions run.aggregateId) = some r)
    "adapter shutting down"

def step (dumps : Json → String) (reprMessage : String → String) :
    AdapterStep ρ ι → OpenCodeAdapter ρ ι
  | .start r aggregateId => s.start r aggregateId
  | .createFails r raised => s.createFails r raised
  | .within r k => s.modify r fun run => run.step k
  | .resume r sent => s.resume r sent
  | .stopped r => s.stopped r
  | .arrive i body => s.arrive i body
  | .malformed i detail => s.malformed i detail
  | .wake i => s.wake dumps reprMessage i
  | .expire i => s.expire i
  | .shutdown => s.shutdown

end OpenCodeAdapter

end ForgeOS
