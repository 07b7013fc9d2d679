import ForgeOS.Adapters.Bridge
import ForgeOS.Library.Effect
import Mathlib.Logic.Function.Basic

/-!
The Claude SDK adapter. The SDK owns the message loop: a driver task turns its
messages into events, and every tool is a proxy call that puts its proposal
into the same queue and looks for its result in a queue all calls share. The
generator yields what it takes out of the first queue and puts what it is sent
into the second.
-/

namespace ForgeOS

open Library

namespace ClaudeSdk

/-- The names in `FORGE_ABSTRACT_TOOLS`. -/
def forgeAbstractTools : List String :=
  ["Read", "Write", "Edit", "Bash", "Grep", "Glob", "WebFetch", "ProposeEvent"]

/-- One call of `spawn_agent`. -/
structure Session where
  aggregateId : String
  persona : String
  model : String
  settingSources : List String
  /-- `abstract_tools`. -/
  clientTools : List String
  /-- `repr(exc)`. -/
  reprError : PyError → String

/-! ### Messages of the SDK -/

/-- A content block: an object with attributes, or a dict. -/
inductive SdkBlock where
  | object (attrs : JsonObject)
  | dict (entries : JsonObject)

inductive SdkMessage where
  | assistant (content : List SdkBlock)
  | result (attrs : JsonObject)
  | other

/-- `getattr(block, key, None) or (block.get(key, default) if isinstance(block, dict)
else other)`; a dict has no such attributes. -/
def SdkBlock.attribute (key : String) (default other : Json) : SdkBlock → Json
  | .object attrs => ((Dict.get? attrs key).getD .null).or other
  | .dict entries => (Dict.get? entries key).getD default

namespace Session

variable (session : Session)

def sessionStarted : NormalizedEvent where
  kind := .sessionStarted
  aggregateId := session.aggregateId
  payload := [
    ("persona", .str session.persona),
    ("model", .str session.model),
    ("kernel", .str "claude_sdk"),
    ("client_tools", .arr (session.clientTools.map .str)),
    ("setting_sources", .arr (session.settingSources.map .str))]

def blockEvent (block : SdkBlock) : Option NormalizedEvent :=
  match block.attribute "type" .null .null with
  | .str "text" =>
      some ⟨.textDelta, session.aggregateId,
        [("text", block.attribute "text" (.str "") (.str ""))]⟩
  | .str "thinking" =>
      some ⟨.thinkingDelta, session.aggregateId,
        [("text", block.attribute "thinking" (.str "") (.str ""))]⟩
  | _ => none

/-- The event of a `ResultMessage`. -/
def resultEvent (attrs : JsonObject) : NormalizedEvent where
  kind :=
    match (Dict.get? attrs "subtype").getD (.str "success") with
    | .str "success" => .agentCompleted
    | _ => .agentFailed
  aggregateId := session.aggregateId
  payload :=
    ["result", "usage", "total_cost_usd", "duration_ms", "session_id", "num_turns"].map fun key =>
      (key, (Dict.get? attrs key).getD .null)

def failedEvent (error : PyError) : NormalizedEvent where
  kind := .agentFailed
  aggregateId := session.aggregateId
  payload := [("error", .str (session.reprError error))]

/-- The proposal of a proxy call. -/
def proposal (toolUseId abstractName : String) (args : JsonObject) : ToolUseProposal where
  kind := .toolUseProposed
  aggregateId := session.aggregateId
  payload := [("abstract_tool", .str abstractName), ("inputs", .obj args)]
  toolUseId
  toolName := s!"mcp__forge__{abstractName.toLower}"
  abstractTool := abstractName
  inputs := args

end Session

/-! ### State -/

/-- What the driver and the proxy calls put into `events_q`. -/
inductive Item where
  | yielded (event : Yielded)
  | sentinel

/-- What the SDK raises. -/
inductive Raised where
  | exception (error : PyError)
  /-- `CancelledError`, which is no `Exception`. -/
  | cancelled

/-- Where `_drive_sdk` stands. While it closes the client it is known whether a
`ResultMessage` was seen, and what is being raised. -/
inductive Driver where
  | idle
  | connecting
  | streaming
  | closing (sawResult : Bool) (pending : Option Raised)
  | finished

/-- A result in the shared queue; its number tells it from equal ones. -/
structure Sent where
  number : Nat
  result : ToolResult

inductive ProxyCall where
  | waiting
  | holding (sent : Sent)
  | returned (sent : Sent)
  /-- It has timed out or was cancelled. -/
  | ended

/-- Where the generator stands. It is `starting` at its first yield. -/
inductive Generator where
  | starting
  | waiting
  | paused (event : Yielded)
  | returned
  | raised (error : PyError)
  /-- Its caller has closed it. -/
  | closed

/-- A run of `spawn_agent`. The events yielded so far are kept as a record, which
no step reads; `numbered` counts the results put into the queue. -/
structure SdkRun where
  generator : Generator
  driver : Driver
  eventsQ : List Item
  resultsQ : List Sent
  calls : String → Option ProxyCall
  yielded : List Yielded
  numbered : Nat

/-- One step of the caller, the driver, a proxy call or the clock. -/
inductive SdkStep where
  | next
  | resume (sent : Option ToolResult)
  | close
  | timeout
  | connect
  | message (msg : SdkMessage)
  | streamEnds
  | fails (raised : Raised)
  | closes (raised : Option Raised)
  | call (toolUseId abstractName : String) (args : JsonObject)
  | take (toolUseId : String)
  | putBack (toolUseId : String)
  | giveUp (toolUseId : String)

/-! ### Steps -/

namespace SdkRun

/-- A run at its first yield. -/
def initial (session : Session) : SdkRun where
  generator := .starting
  driver := .idle
  eventsQ := []
  resultsQ := []
  calls := fun _ => none
  yielded := [.event session.sessionStarted]
  numbered := 0

variable (session : Session) (s : SdkRun)

def put (items : List Item) : SdkRun := { s with eventsQ := s.eventsQ ++ items }

/-- The generator ends. A driver that still runs is cancelled and awaited, with
whatever it raises suppressed. -/
def endWith (generator : Generator) : SdkRun := { s with generator, driver := .finished }

/-- The loop of the generator takes the next item. -/
def next : SdkRun :=
  match s.generator, s.eventsQ with
  | .waiting, .sentinel :: rest => { s with eventsQ := rest }.endWith .returned
  | .waiting, .yielded event :: rest =>
      { s with generator := .paused event, eventsQ := rest, yielded := s.yielded ++ [event] }
  | _, _ => s

/-- `await results_q.put(sent)`. -/
def send (result : ToolResult) : SdkRun :=
  { s with
    generator := .waiting
    resultsQ := s.resultsQ ++ [⟨s.numbered, result⟩]
    numbered := s.numbered + 1 }

/-- The caller resumes the generator, with a `ToolResult` or with `None`. -/
def resume (sent : Option ToolResult) : SdkRun :=
  match s.generator with
  | .starting => { s with generator := .waiting, driver := .connecting }
  | .paused (.event _) => { s with generator := .waiting }
  | .paused (.proposal _) =>
      match sent with
      | some result => s.send result
      | none =>
          s.endWith (.raised ⟨"RuntimeError",
            "spawn_agent: caller must asend(ToolResult) after a ToolUseProposal, got NoneType"⟩)
  | _ => s

/-- The caller closes the generator. -/
def close : SdkRun :=
  match s.generator with
  | .starting => { s with generator := .closed }
  | .paused _ => s.endWith .closed
  | _ => s

/-- `timeout_s` is over while the generator waits for an item. While it is
paused the clock interrupts whatever its caller awaits instead. -/
def timeout : SdkRun :=
  match s.generator with
  | .waiting => s.endWith (.raised ⟨"TimeoutError", ""⟩)
  | _ => s

/-- The client has been opened. -/
def connect : SdkRun :=
  match s.driver with
  | .connecting => { s with driver := .streaming }
  | _ => s

/-- One message of `receive_response()`. Putting into the queue, which has no
bound, does not let others run. -/
def message (msg : SdkMessage) : SdkRun :=
  match s.driver with
  | .streaming =>
      match msg with
      | .assistant content =>
          s.put ((content.filterMap session.blockEvent).map fun event => .yielded (.event event))
      | .result attrs =>
          { s.put [.yielded (.event (session.resultEvent attrs))] with
            driver := .closing true none }
      | .other => s
  | _ => s

/-- The messages end without a `ResultMessage`. -/
def streamEnds : SdkRun :=
  match s.driver with
  | .streaming => { s with driver := .closing false none }
  | _ => s

/-- The end of `_drive_sdk`, past the client. -/
def finish (raised : Option Raised) : SdkRun :=
  match raised with
  | some (.exception error) =>
      { s.put [.yielded (.event (session.failedEvent error)), .sentinel] with driver := .finished }
  | _ => { s.put [.sentinel] with driver := .finished }

/-- Something raises: opening the client, which is not closed then, or the query
or a message. -/
def fails (raised : Raised) : SdkRun :=
  match s.driver with
  | .connecting => s.finish session (some raised)
  | .streaming => { s with driver := .closing false (some raised) }
  | _ => s

/-- The client is closed; what that raises takes the place of what was raised
before. -/
def closes (raised : Option Raised) : SdkRun :=
  match s.driver with
  | .closing _ pending => s.finish session (raised <|> pending)
  | _ => s

/-- The SDK calls a proxy. Ids drawn by `uuid4` are taken to be new. -/
def call (toolUseId abstractName : String) (args : JsonObject) : SdkRun :=
  match s.driver with
  | .idle => s
  | _ =>
      if s.calls toolUseId = none ∧ abstractName ∈ session.clientTools ∧
          abstractName ∈ forgeAbstractTools then
        { s.put [.yielded (.proposal (session.proposal toolUseId abstractName args))] with
          calls := Function.update s.calls toolUseId (some .waiting) }
      else s

/-- The phase of one proxy call changes. -/
def setCall (toolUseId : String) (call : ProxyCall) : SdkRun :=
  { s with calls := Function.update s.calls toolUseId (some call) }

/-- A proxy call takes the first result. Nothing else runs between taking one
of its own and returning it. -/
def take (toolUseId : String) : SdkRun :=
  match s.calls toolUseId, s.resultsQ with
  | some .waiting, sent :: rest =>
      { s with resultsQ := rest }.setCall toolUseId
        (if sent.result.toolUseId = toolUseId then .returned sent else .holding sent)
  | _, _ => s

/-- A result of another call goes back, behind the others. -/
def putBack (toolUseId : String) : SdkRun :=
  match s.calls toolUseId with
  | some (.holding sent) =>
      { s with resultsQ := s.resultsQ ++ [sent] }.setCall toolUseId .waiting
  | _ => s

/-- A waiting proxy call runs into `tool_timeout_s`, or is cancelled. -/
def giveUp (toolUseId : String) : SdkRun :=
  match s.calls toolUseId with
  | some .waiting => s.setCall toolUseId .ended
  | _ => s

def step : SdkStep → SdkRun
  | .next => s.next
  | .resume sent => s.resume sent
  | .close => s.close
  | .timeout => s.timeout
  | .connect => s.connect
  | .message msg => s.message session msg
  | .streamEnds => s.streamEnds
  | .fails raised => s.fails session raised
  | .closes raised => s.closes session raised
  | .call toolUseId abstractName args => s.call session toolUseId abstractName args
  | .take toolUseId => s.take toolUseId
  | .putBack toolUseId => s.putBack toolUseId
  | .giveUp toolUseId => s.giveUp toolUseId

/-- A run of `spawn_agent` in some order of steps. -/
def after (steps : List SdkStep) : SdkRun := run (step session) (initial session) steps

end SdkRun

end ClaudeSdk

end ForgeOS
