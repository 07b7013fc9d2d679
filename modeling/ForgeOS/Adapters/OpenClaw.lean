import ForgeOS.Adapters.Bridge
import ForgeOS.Kernel.AcpFailures
import ForgeOS.Library.Coroutine
import ForgeOS.Project.Initialize

/-!
The OpenClaw adapter. It runs an agent as one prompt of an ACP client and
translates the updates it streams. A gateway that cannot be reached, or whose
prompt fails, is to end the run with `AGENT_FAILED`; the adapter knows such a
failure by the class of its exception.
-/

namespace ForgeOS

open Library

namespace OpenClaw

/-! ### Tools -/

/-- `OPENCLAW_TOOL_MAP`. -/
def toolMap : List (String × String) := [
  ("Read", "read_file"),
  ("Write", "write_file"),
  ("Edit", "edit_file"),
  ("Bash", "shell"),
  ("Grep", "search"),
  ("Glob", "glob"),
  ("WebFetch", "web_fetch")]

def wireToAbstract (wire : String) : String :=
  match toolMap.find? fun entry => entry.2 = wire with
  | some entry => entry.1
  | none => wire

/-- The requested tools OpenClaw has no name for; `policy.mismatches`. -/
def mismatches (requested : List String) : List String :=
  requested.filter fun tool => (Dict.get? toolMap tool).isNone

/-! ### Updates -/

/-- A tool call as the gateway proposes it: its inputs are whatever was sent. -/
structure Proposal where
  aggregateId : String
  toolUseId : String
  toolName : String
  abstractTool : String
  inputs : Json

inductive SpawnYield where
  | event (event : NormalizedEvent)
  | proposal (proposal : Proposal)

/-- What a run of `spawn_agent` raises. -/
inductive SpawnError where
  | client (error : AcpError)
  /-- `OpenClawError`. -/
  | openClaw (message : String)
  | other (error : PyError)

/-- How the generator is resumed: by `asend`, or by `athrow`. -/
inductive SpawnResumption where
  | send (result : Option ToolResult)
  | throw (error : SpawnError)

abbrev SpawnGen := Coroutine Empty SpawnError SpawnYield SpawnResumption

abbrev SpawnCaller := Caller SpawnYield SpawnResumption

/-- Yield an event outside of the `try`, and go on unless something is thrown. -/
def yieldEvent (event : NormalizedEvent) (next : SpawnGen) : SpawnGen :=
  .yield (.event event) fun
    | .send _ => next
    | .throw error => .raise error

/-- One call of `spawn_agent`, and what it takes from Python's library. -/
structure Spawn where
  persona : AgentPersona
  /-- `persona.preferred_model`. -/
  model : String
  tools : List String
  aggregateId : String
  /-- `str(value)`. -/
  strValue : Json → String
  /-- `repr(exc)`. -/
  reprError : AcpError → String

/-- `update.get(key)`. -/
def field (update : JsonObject) (key : String) : Json := (Dict.get? update key).getD .null

/-- `kind in names`. -/
def isKind (kind : Json) (names : List String) : Bool := kind.str?.any fun name => name ∈ names

namespace Spawn

variable (spawn : Spawn)

def extractText (update : JsonObject) : String :=
  match field update "content" with
  | .obj content => spawn.strValue ((Dict.get? content "text").getD (.str ""))
  | .str content => content
  | _ => spawn.strValue ((Dict.get? update "text").getD (.str ""))

/-- The event of a chunk of text, unless that is empty. -/
def chunk (kind : EventKind) (key : String) (update : JsonObject) : Option SpawnYield :=
  let text := spawn.extractText update
  if text = "" then none else some (.event ⟨kind, spawn.aggregateId, [(key, .str text)]⟩)

def toolProposal (update : JsonObject) : Proposal :=
  let wire := spawn.strValue
    (((field update "kind").or (field update "toolName")).or ((field update "title").or (.str "")))
  { aggregateId := spawn.aggregateId
    toolUseId := spawn.strValue
      ((field update "toolCallId").or ((field update "id").or (.str wire)))
    toolName := wire
    abstractTool := wireToAbstract wire
    inputs := (field update "rawInput").or
      ((field update "input").or ((field update "inputs").or (.obj []))) }

def translateUpdate (params : Json) : Option SpawnYield :=
  match params with
  | .obj entries =>
      match (Dict.get? entries "update").getD params with
      | .obj update =>
          let kind := (field update "sessionUpdate").or (field update "type")
          if isKind kind ["agent_message_chunk", "message", "text"] then
            spawn.chunk .textDelta "text" update
          else if isKind kind ["agent_thought_chunk", "thinking", "thought"] then
            spawn.chunk .thinkingDelta "thinking" update
          else if isKind kind ["tool_call", "tool_call_update", "tool"] then
            some (.proposal (spawn.toolProposal update))
          else if isKind kind ["error", "session_error"] then
            some (.event ⟨.agentFailed, spawn.aggregateId,
              [("reason", .str "session_error"), ("detail", .obj update)]⟩)
          else none
      | _ => none
  | _ => none

/-! ### Runs -/

def unavailable (fallback : Option String) : NormalizedEvent where
  kind := .agentFailed
  aggregateId := spawn.aggregateId
  payload := [
    ("reason", .str "openclaw_unavailable"),
    ("fallback_adapter", .optional fallback),
    ("detail", .str "OpenClaw Gateway not reachable; Forge state unchanged.")]

def allowedAbstract : List String :=
  spawn.persona.allowedTools.filter fun tool => tool ∈ spawn.tools

def sessionStarted (sessionId : Json) : NormalizedEvent where
  kind := .sessionStarted
  aggregateId := spawn.aggregateId
  payload := [
    ("persona", .str spawn.persona.name),
    ("model", .str spawn.model),
    ("kernel", .str "openclaw"),
    ("session_id", sessionId),
    ("agent", .str spawn.persona.name),
    ("client_tools", .arr (spawn.allowedAbstract.map .str)),
    ("tool_mismatches", .arr ((mismatches spawn.allowedAbstract).map .str))]

def failed (error : AcpError) : NormalizedEvent where
  kind := .agentFailed
  aggregateId := spawn.aggregateId
  payload := [("reason", .str "openclaw_error"), ("detail", .str (spawn.reprError error))]

def completed (sessionId : Json) : NormalizedEvent where
  kind := .agentCompleted
  aggregateId := spawn.aggregateId
  payload := [("session_id", sessionId)]

/-- What the `except ACPClientError` makes of an exception. -/
def handleError : SpawnError → SpawnGen
  | .client error =>
      if error.isClientError then yieldEvent (spawn.failed error) .done
      else .raise (.client error)
  | error => .raise error

/-- The loop over the updates of a prompt. -/
def relay (ending : SpawnGen) : List Json → SpawnGen
  | [] => ending
  | params :: rest =>
      match spawn.translateUpdate params with
      | none => relay ending rest
      | some (.proposal proposal) =>
          .yield (.proposal proposal) fun
            | .send (some _) => relay ending rest
            | .send none =>
                .raise (.openClaw "spawn_agent expected ToolResult, got <class 'NoneType'>")
            | .throw error => spawn.handleError error
      | some (.event event) =>
          .yield (.event event) fun
            | .send _ =>
                match event.kind with
                | .agentCompleted => .done
                | .agentFailed => .done
                | _ => relay ending rest
            | .throw error => spawn.handleError error

end Spawn

end OpenClaw

/-- The adapter: its client, or the gateway it can start one for. Nobody else
uses the client while an agent runs. -/
structure OpenClawAdapter where
  gatewayCommand : List String
  client : Option AcpClient
  /-- The client of the started gateway; starting it may raise an `OSError`. -/
  process : Option AcpClient
  /-- How its requests are sent. -/
  sending : Sending

namespace OpenClawAdapter

open OpenClaw

variable (adapter : OpenClawAdapter)

def ensureClient : Except AcpError (Option AcpClient) :=
  match adapter.client with
  | some client => .ok (some client)
  | none =>
      if adapter.gatewayCommand = [] then .ok none
      else
        match adapter.process with
        | none => .ok none
        | some client =>
            -- `except (ACPClientError, OSError)`
            match (Acp.sendInitialize adapter.sending).exec client with
            | (.ok _, started) => .ok (some started)
            | (.error .raised, _) => .error .raised
            | (.error _, _) => .ok none

def offlineFallback : Option String :=
  (adapterPriority.drop (adapterPriority.idxOf "openclaw" + 1)).head?

/-- What the prompt of a run streams, and how it ends. -/
def promptRun (client : AcpClient) : List Json × Except AcpError Json :=
  match adapter.sending.error? with
  | none => Acp.promptRun (client.msgId + 1) client.unread
  | some error => ([], .error error)

/-- The end of a run whose prompt has ended. -/
def conclude (spawn : Spawn) (sessionId : Json) : Except AcpError Json → SpawnGen
  | .ok _ => yieldEvent (spawn.completed sessionId) .done
  | .error error => spawn.handleError (.client error)

def spawnAgent (spawn : Spawn) : SpawnGen :=
  match adapter.ensureClient with
  | .error error => .raise (.client error)
  | .ok none => yieldEvent (spawn.unavailable offlineFallback) .done
  | .ok (some client) =>
      let sessionId := client.sessionId.or (.str spawn.aggregateId)
      let run := adapter.promptRun client
      yieldEvent (spawn.sessionStarted sessionId)
        (spawn.relay (conclude spawn sessionId run.2) run.1)

/-! ### What it makes of a failing client -/

/-- A caller that resumes every event, and answers every proposal. -/
def Attentive (caller : SpawnCaller) : Prop :=
  (∀ seen event, ∃ result, caller seen (.event event) = some (.send result)) ∧
    ∀ seen proposal, ∃ result, caller seen (.proposal proposal) = some (.send (some result))

def EndsRun (spawn : Spawn) (params : Json) : Prop :=
  ∃ event, spawn.translateUpdate params = some (.event event) ∧
    (event.kind = .agentCompleted ∨ event.kind = .agentFailed)

/-- A failure of the client ends the run with an event if it is handled, and
escapes if it is not. -/
def Handles (caller : SpawnCaller) (seen : List SpawnYield) (gen : SpawnGen)
    (event : NormalizedEvent) (error : AcpError) (handled : Bool) : Prop :=
  (handled = false → gen.outcome caller seen = some (.error (.client error))) ∧
    (handled = true → gen.outcome caller seen = some (.ok ()) ∧
      (gen.yields caller seen).getLast? = some (.event event))

/-- An exception that `_ensure_client` takes for an unreachable gateway. -/
def isUnreachable : AcpError → Bool
  | .raised => false
  | _ => true

/-- The run ends with `AGENT_FAILED` on the failures of the client that are
`ACPClientError`s, and on no others, but for an `OSError` while the gateway is
being started. -/
structure HandlesAcpOnly (spawn : Spawn) : Prop where
  starting : ∀ client error caller, adapter.client = none → adapter.gatewayCommand ≠ [] →
    adapter.process = some client → Attentive caller →
    client.failure (.sendInitialize adapter.sending) = some error →
      Handles caller [] (adapter.spawnAgent spawn) (spawn.unavailable offlineFallback) error
        (isUnreachable error)
  prompting : ∀ client error caller, adapter.ensureClient = .ok (some client) →
    Attentive caller → (∀ params ∈ (adapter.promptRun client).1, ¬EndsRun spawn params) →
    (adapter.promptRun client).2 = .error error →
      Handles caller [] (adapter.spawnAgent spawn) (spawn.failed error) error
        error.isClientError

variable {adapter} {caller : SpawnCaller} {seen : List SpawnYield} {spawn : Spawn}

theorem handles_yield {value : SpawnYield} {resume : SpawnResumption → SpawnGen}
    {answer : SpawnResumption} {last : NormalizedEvent} {error : AcpError} {handled : Bool}
    (hanswer : caller seen value = some answer)
    (hnext : Handles caller (seen ++ [value]) (resume answer) last error handled) :
    Handles caller seen (.yield value resume) last error handled := by
  rw [Handles, Coroutine.outcome_yield_some _ hanswer, Coroutine.yields_yield_some _ hanswer]
  refine ⟨hnext.1, fun herror => ?_⟩
  obtain ⟨houtcome, hlast⟩ := hnext.2 herror
  exact ⟨houtcome, by simp [List.getLast?_cons, hlast]⟩

theorem handles_yieldEvent (hcaller : Attentive caller) {event last : NormalizedEvent}
    {next : SpawnGen} {error : AcpError} {handled : Bool}
    (hnext : Handles caller (seen ++ [.event event]) next last error handled) :
    Handles caller seen (yieldEvent event next) last error handled := by
  obtain ⟨result, hresult⟩ := hcaller.1 seen event
  exact handles_yield hresult hnext

theorem ends_yieldEvent (hcaller : Attentive caller) (event : NormalizedEvent) :
    (yieldEvent event .done).outcome caller seen = some (.ok ()) ∧
      ((yieldEvent event .done).yields caller seen).getLast? = some (.event event) := by
  obtain ⟨result, hresult⟩ := hcaller.1 seen event
  rw [yieldEvent, Coroutine.outcome_yield_some _ hresult, Coroutine.yields_yield_some _ hresult]
  exact ⟨rfl, rfl⟩

theorem handles_handleError (hcaller : Attentive caller) (error : AcpError) :
    Handles caller seen (spawn.handleError (.client error)) (spawn.failed error) error
      error.isClientError := by
  constructor
  · intro hother
    rw [Spawn.handleError, hother]
    rfl
  · intro hclient
    rw [Spawn.handleError, hclient]
    exact ends_yieldEvent hcaller _

/-- The updates in front of a failure are relayed, and change nothing of how it
is handled. -/
theorem handles_relay (hcaller : Attentive caller) {ending : SpawnGen} {last : NormalizedEvent}
    {error : AcpError} {handled : Bool}
    (hending : ∀ later, Handles caller later ending last error handled)
    {updates : List Json} (hupdates : ∀ params ∈ updates, ¬EndsRun spawn params) :
    Handles caller seen (spawn.relay ending updates) last error handled := by
  induction updates generalizing seen with
  | nil => exact hending seen
  | cons params rest ih =>
      have hrest (later : List SpawnYield) :
          Handles caller later (spawn.relay ending rest) last error handled :=
        ih fun other hother => hupdates other (List.mem_cons_of_mem _ hother)
      have hgoes := hupdates params List.mem_cons_self
      unfold Spawn.relay
      split
      · exact hrest seen
      · rename_i proposal htranslate
        obtain ⟨result, hresult⟩ := hcaller.2 seen proposal
        exact handles_yield hresult (hrest _)
      · rename_i event htranslate
        obtain ⟨result, hresult⟩ := hcaller.1 seen event
        refine handles_yield hresult ?_
        change Handles caller _ (match event.kind with
          | .agentCompleted => Coroutine.done
          | .agentFailed => Coroutine.done
          | _ => spawn.relay ending rest) last error handled
        split
        · rename_i hkind
          exact absurd ⟨event, htranslate, Or.inl hkind⟩ hgoes
        · rename_i hkind
          exact absurd ⟨event, htranslate, Or.inr hkind⟩ hgoes
        · exact hrest _

theorem handlesAcpOnly (adapter : OpenClawAdapter) (spawn : Spawn) :
    adapter.HandlesAcpOnly spawn where
  starting client error caller hclient hcommand hprocess hcaller hfailure := by
    simp only [AcpClient.failure] at hfailure
    simp only [spawnAgent, ensureClient, hclient, hcommand, hprocess, if_false]
    rcases hrun : (Acp.sendInitialize adapter.sending).exec client with ⟨failure | result, started⟩
    · rw [hrun] at hfailure
      obtain rfl := Option.some.inj hfailure
      cases failure with
      | raised => exact ⟨fun _ => rfl, fun h => nomatch h⟩
      | _ => exact ⟨fun h => (nomatch h), fun _ => ends_yieldEvent hcaller _⟩
    · rw [hrun] at hfailure
      cases hfailure
  prompting client error caller hensure hcaller hupdates hending := by
    simp only [spawnAgent, hensure, hending]
    refine handles_yieldEvent hcaller (handles_relay hcaller (fun later => ?_) hupdates)
    exact handles_handleError hcaller error

end OpenClawAdapter

namespace AcpClient

/-- A call returns or raises `ACPClientError`, and nothing else the client
raises is handled by the adapter. -/
def FailsAsAcpOnly (s : AcpClient) (call : AcpCall) : Prop :=
  (s.failure call).all AcpError.isClientError = true ∧
    ∀ (adapter : OpenClawAdapter) (spawn : OpenClaw.Spawn), adapter.HandlesAcpOnly spawn

/-- Every failure of a request is an `ACPClientError`, which the adapter turns
into an event of a failed agent, exactly if what the agent puts out is what the
request reads. Each of the methods inspects its message on its own, and most of
them not the way `prompt` does. -/
theorem failsAsAcpOnly_iff (s : AcpClient) (call : AcpCall) :
    s.FailsAsAcpOnly call ↔ s.OutputFits call := by
  rw [FailsAsAcpOnly, failure_iff_outputFits]
  exact and_iff_left OpenClawAdapter.handlesAcpOnly

/-- The agent closes its output before it answers. -/
theorem not_failsAsAcpOnly :
    ¬(initial [.closed]).FailsAsAcpOnly (.sendInitialize .written) := by
  rintro ⟨hfailure, -⟩
  cases hfailure

end AcpClient

end ForgeOS
