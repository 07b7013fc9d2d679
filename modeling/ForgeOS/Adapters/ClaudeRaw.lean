import ForgeOS.Adapters.Driving

/-!
The raw Claude adapter: a loop of requests to the Messages API. A turn of the
model that stops for tools is appended to the conversation, its client tool
calls are proposed to the caller one by one, and the results follow it in one
user message.
-/

namespace ForgeOS

open Library

namespace ClaudeRaw

/-! ### Tools -/

/-- Abstract names and names on the wire. -/
def clientTools : Dict String String :=
  [("Bash", "bash"), ("TextEditor", "str_replace_based_edit_tool"), ("Computer", "computer")]

def serverTools : Dict String String :=
  [("WebSearch", "web_search"), ("WebFetch", "web_fetch"), ("CodeExecution", "code_execution"),
    ("ToolSearch", "tool_search")]

def customTools : Dict String String :=
  [("Read", "read_file"), ("Write", "write_file"), ("ProposeEvent", "propose_event")]

def wireToAbstract : Dict String String :=
  (clientTools ++ serverTools ++ customTools).foldl (fun names tool => names.set tool.2 tool.1) []

/-- The wire names of `build_tool_payload`. Unknown names are skipped. -/
def serverWireNames (abstractServerTools : List String) : List String :=
  abstractServerTools.filterMap (Dict.get? serverTools)

/-! ### Messages -/

/-- The types of blocks that take no part in tool calls. -/
def isPlainType (type : String) : Bool :=
  type ≠ "tool_use" && type ≠ "server_tool_use" && !"_tool_result".toList.isSuffixOf type.toList

/-- A content block of a message of the model. The type of a server result ends
with `_tool_result`. -/
inductive ContentBlock where
  | toolUse (id name : String) (input : JsonObject)
  | serverToolUse (id name : String) (input : JsonObject)
  | serverToolResult (kind : String) (toolUseId : Option String) (content : Json)
  | plain (type : String) (fields : JsonObject) (h : isPlainType type = true)

def ContentBlock.modelDump : ContentBlock → JsonObject
  | .toolUse id name input =>
      [("type", .str "tool_use"), ("id", .str id), ("name", .str name), ("input", .obj input)]
  | .serverToolUse id name input =>
      [("type", .str "server_tool_use"), ("id", .str id), ("name", .str name),
        ("input", .obj input)]
  | .serverToolResult kind toolUseId content =>
      [("type", .str (kind ++ "_tool_result")), ("tool_use_id", .optional toolUseId),
        ("content", content)]
  | .plain type fields _ => ("type", .str type) :: fields

inductive Delta where
  | text (text : String)
  | thinking (thinking : String)

/-- What the stream of one turn comes to. -/
structure FinalMessage where
  deltas : List Delta
  content : List ContentBlock
  stopReason : Option String
  usage : Option JsonObject

/-- A request: everything but the messages stays the same during a run. -/
structure Request where
  kwargs : JsonObject
  messages : List JsonObject

def userMessage (content : Json) : JsonObject := [("role", .str "user"), ("content", content)]

def assistantMessage (content : Json) : JsonObject :=
  [("role", .str "assistant"), ("content", content)]

/-! ### One turn -/

/-- A client tool call. -/
structure ToolUse where
  id : String
  name : String
  input : JsonObject

/-- A call of a server tool without its result. -/
structure ServerCall where
  name : String
  inputs : JsonObject

/-- What `_run_one_turn` collects from the blocks. -/
structure TurnState where
  clientToolUses : List ToolUse := []
  serverEvents : List NormalizedEvent := []
  pendingServer : Dict String ServerCall := []

section Turn

variable (aggregateId : String) (wireNames : List String)

def serverExecuted (id : Json) (call : ServerCall) (result : Json) (more : JsonObject) :
    NormalizedEvent where
  kind := .serverToolExecuted
  aggregateId := aggregateId
  payload := [("tool_name", .str call.name), ("tool_use_id", id), ("inputs", .obj call.inputs),
    ("result", result), ("kernel_executed", .bool true)] ++ more

/-- One block. A result without its call is skipped. -/
def TurnState.classify (state : TurnState) : ContentBlock → TurnState
  | .toolUse id name input =>
      if name ∈ wireNames then
        { state with pendingServer := state.pendingServer.set id ⟨name, input⟩ }
      else { state with clientToolUses := state.clientToolUses ++ [⟨id, name, input⟩] }
  | .serverToolUse id name input =>
      { state with pendingServer := state.pendingServer.set id ⟨name, input⟩ }
  | .serverToolResult _ toolUseId content =>
      match toolUseId.bind fun id =>
          (Dict.get? state.pendingServer id).map fun call => (id, call) with
      | none => state
      | some (id, call) =>
          { state with
            pendingServer := state.pendingServer.filter fun entry => entry.1 ≠ id
            serverEvents := state.serverEvents ++
              [serverExecuted aggregateId (.str id) call content []] }
  | .plain _ _ _ => state

/-- The blocks of a turn, and the server calls left without a result. -/
def runOneTurn (final : FinalMessage) : TurnState :=
  let state := final.content.foldl (TurnState.classify aggregateId wireNames) {}
  { state with
    serverEvents := state.serverEvents ++ state.pendingServer.map fun entry =>
      serverExecuted aggregateId (.str entry.1) entry.2 .null
        [("warning", .str "no paired result block")] }

def deltaEvent : Delta → NormalizedEvent
  | .text text => ⟨.textDelta, aggregateId, [("text", .str text)]⟩
  | .thinking thinking => ⟨.thinkingDelta, aggregateId, [("thinking", .str thinking)]⟩

end Turn

/-! ### The run -/

/-- Which `except` clause takes an exception; the last kind is no `Exception`. -/
inductive ErrorClass where
  | timeout
  | api
  | internal
  | exit
deriving DecidableEq, Repr

/-- How a turn ends. -/
inductive TurnOutcome where
  | final (message : FinalMessage)
  | raised (error : PyError)

/-- What a run is made with, and what is taken from Python. -/
structure RawEnv where
  aggregateId : String
  kwargs : JsonObject
  abstractServerTools : List String
  /-- The payload of the first event. -/
  started : JsonObject
  timeoutS : PyFloat
  errorClass : PyError → ErrorClass
  /-- `str(exc)`. -/
  strError : PyError → String
  /-- `repr(exc)`. -/
  reprError : PyError → String
  /-- `repr(text)`. -/
  reprText : String → String

abbrev RawGen := AdapterGen Request

namespace RawEnv

variable (env : RawEnv)

/-- The `except` clauses. -/
def failWith (error : PyError) : RawGen :=
  let report (payload : JsonObject) : RawGen :=
    .yield (.event ⟨.agentFailed, env.aggregateId, payload⟩) fun
      | .send _ => .done
      | .throw other => .raise other
  match env.errorClass error with
  | .timeout => report [("reason", .str "timeout"), ("timeout_s", .float env.timeoutS)]
  | .api => report [("reason", .str "api_error"), ("detail", .str (env.strError error))]
  | .internal => report [("reason", .str "internal_error"), ("detail", .str (env.reprError error))]
  | .exit => .raise error

/-- What is thrown in at a yield meets the `except` clauses. -/
def stopAt : Resumption → Option RawGen
  | .send _ => none
  | .throw error => some (env.failWith error)

def proposalFor (call : ToolUse) : ToolUseProposal where
  kind := .toolUseProposed
  aggregateId := env.aggregateId
  payload := []
  toolUseId := call.id
  toolName := call.name
  abstractTool := (Dict.get? wireToAbstract call.name).getD call.name
  inputs := call.input

def toolResultBlock (result : ToolResult) : JsonObject :=
  [("type", .str "tool_result"), ("tool_use_id", .str result.toolUseId),
    ("content", result.content), ("is_error", .bool result.isError)]

/-- The loop over the client tool calls, with the results so far. -/
def propose (next : List JsonObject → RawGen) (results : List JsonObject) :
    List ToolUse → RawGen
  | [] => next results
  | call :: rest =>
      .yield (.proposal (env.proposalFor call)) fun
        | .send (some result) => propose next (results ++ [toolResultBlock result]) rest
        | .send none =>
            env.failWith ⟨"RuntimeError", "ClaudeRawAdapter expected ToolResult via asend() " ++
              s!"after ToolUseProposal {env.reprText call.id}, got NoneType"⟩
        | .throw error => env.failWith error

def completed (final : FinalMessage) : RawGen :=
  .yield (.event ⟨.agentCompleted, env.aggregateId,
    [("stop_reason", .optional final.stopReason), ("usage", .obj (final.usage.getD []))]⟩) fun
      | .send _ => .done
      | .throw error => env.failWith error

/-- The loop of `spawn_agent`. -/
def converse (messages : List JsonObject) : List TurnOutcome → RawGen
  | [] => .act ⟨env.kwargs, messages⟩ .wait
  | outcome :: rest =>
      .act ⟨env.kwargs, messages⟩ <|
        match outcome with
        | .raised error => env.failWith error
        | .final final =>
            let turn := runOneTurn env.aggregateId (serverWireNames env.abstractServerTools) final
            let behind : RawGen :=
              if final.stopReason ≠ some "tool_use" then env.completed final
              else
                let messages := messages ++
                  [assistantMessage (.arr (final.content.map fun block => .obj block.modelDump))]
                env.propose (fun results =>
                  converse (messages ++ [userMessage (.arr (results.map .obj))]) rest)
                  [] turn.clientToolUses
            Coroutine.yieldAll env.stopAt behind
              ((turn.serverEvents ++ final.deltas.map (deltaEvent env.aggregateId)).map .event)

def spawnAgent (context : String) (turns : List TurnOutcome) : RawGen :=
  .yield (.event ⟨.sessionStarted, env.aggregateId, env.started⟩) fun
    | .send _ => env.converse [userMessage (.str context)] turns
    | .throw error => .raise error

end RawEnv

/-! ### Well-formed conversations -/

/-- The ids that the blocks of one type have under a key. -/
def idsOf (type key : String) (content : List Json) : List Json :=
  content.filterMap fun
    | .obj block =>
        if (Dict.get? block "type").bind Json.str? = some type then Dict.get? block key else none
    | _ => none

/-- Messages that start with the user context and go on with pairs of an
assistant message and the user message that answers its tool calls, each once
and in order. -/
inductive WellFormed (context : String) : List JsonObject → Prop
  | start : WellFormed context [userMessage (.str context)]
  | answered {messages : List JsonObject} {content results : List Json}
      (h : WellFormed context messages) (hne : results ≠ [])
      (hids : idsOf "tool_result" "tool_use_id" results = idsOf "tool_use" "id" content) :
      WellFormed context
        (messages ++ [assistantMessage (.arr content)] ++ [userMessage (.arr results)])

theorem idsOf_append (type key : String) (xs ys : List Json) :
    idsOf type key (xs ++ ys) = idsOf type key xs ++ idsOf type key ys :=
  List.filterMap_append

theorem idsOf_toolResultBlock (result : ToolResult) :
    idsOf "tool_result" "tool_use_id" [.obj (RawEnv.toolResultBlock result)] =
      [.str result.toolUseId] := rfl

/-- The client tool call a block is. -/
def ContentBlock.toolUse? : ContentBlock → Option ToolUse
  | .toolUse id name input => some ⟨id, name, input⟩
  | _ => none

theorem idsOf_modelDump (block : ContentBlock) :
    idsOf "tool_use" "id" [.obj block.modelDump] =
      (block.toolUse?.map fun call => Json.str call.id).toList := by
  cases block with
  | toolUse id name input => rfl
  | serverToolUse id name input => rfl
  | serverToolResult kind toolUseId content =>
      have hkind : kind ++ "_tool_result" ≠ "tool_use" := by
        intro h
        have hlength := congrArg String.length h
        rw [String.length_append] at hlength
        have hresult : "_tool_result".length = 12 := rfl
        have htool : "tool_use".length = 8 := rfl
        omega
      simp [idsOf, ContentBlock.modelDump, ContentBlock.toolUse?, Dict.get?, Json.str?, hkind]
  | plain type fields h =>
      have htype : type ≠ "tool_use" := by
        simp only [isPlainType, Bool.and_eq_true, decide_eq_true_eq] at h
        exact h.1.1
      simp [idsOf, ContentBlock.modelDump, ContentBlock.toolUse?, Dict.get?, Json.str?, htype]

theorem idsOf_content (content : List ContentBlock) :
    idsOf "tool_use" "id" (content.map fun block => .obj block.modelDump) =
      (content.filterMap ContentBlock.toolUse?).map fun call => .str call.id := by
  induction content with
  | nil => rfl
  | cons block rest ih =>
      rw [List.map_cons, ← List.singleton_append, idsOf_append, ih, idsOf_modelDump]
      cases hcall : block.toolUse? with
      | none => rw [List.filterMap_cons_none hcall]; rfl
      | some call => rw [List.filterMap_cons_some hcall]; rfl

/-- Where server tools have blocks of their own, all tool calls are client
calls. -/
theorem clientToolUses_of_content {aggregateId : String} {wireNames : List String}
    {content : List ContentBlock} (state : TurnState)
    (h : ∀ id name input, .toolUse id name input ∈ content → name ∉ wireNames) :
    (content.foldl (TurnState.classify aggregateId wireNames) state).clientToolUses =
      state.clientToolUses ++ content.filterMap ContentBlock.toolUse? := by
  induction content generalizing state with
  | nil => exact (List.append_nil _).symm
  | cons block rest ih =>
      have hrest := ih (state.classify aggregateId wireNames block)
        fun id name input hmem => h id name input (List.mem_cons_of_mem _ hmem)
      rw [List.foldl_cons, hrest]
      cases block with
      | toolUse id name input =>
          have hclient : name ∉ wireNames := h id name input List.mem_cons_self
          simp only [TurnState.classify, hclient, if_false, List.filterMap_cons,
            ContentBlock.toolUse?, List.append_assoc, List.singleton_append]
      | serverToolUse id name input => rfl
      | serverToolResult kind toolUseId content =>
          rw [TurnState.classify, List.filterMap_cons_none rfl]
          split <;> rfl
      | plain type fields hplain => rfl

/-! ### The requests of a run -/

/-- A turn in which server tools have blocks of their own, and which stops for
tools only with a client tool call. -/
structure RawEnv.Orderly (env : RawEnv) (final : FinalMessage) : Prop where
  server : ∀ id name input, .toolUse id name input ∈ final.content →
    name ∉ serverWireNames env.abstractServerTools
  client : final.stopReason = some "tool_use" →
    ∃ id name input, .toolUse id name input ∈ final.content

section Requests

variable {env : RawEnv} {caller : AdapterCaller} {seen : List Yielded} {request : Request}

/-- Nothing is requested after a failure. -/
theorem not_acted_failWith (error : PyError) :
    .acted request ∉ (env.failWith error).trace caller seen := by
  have hreport (payload : JsonObject) : .acted request ∉
      (Coroutine.yield (.event ⟨.agentFailed, env.aggregateId, payload⟩) fun
        | .send _ => .done
        | .throw other => .raise other : RawGen).trace caller seen := by
    intro h
    obtain ⟨answer, -, hbehind⟩ := Coroutine.acted_of_yield h
    cases answer <;> cases hbehind
  unfold RawEnv.failWith
  cases env.errorClass error with
  | timeout => exact hreport _
  | api => exact hreport _
  | internal => exact hreport _
  | exit => exact List.not_mem_nil

/-- Nor after the end of a run. -/
theorem not_acted_completed (final : FinalMessage) :
    .acted request ∉ (env.completed final).trace caller seen := by
  intro h
  obtain ⟨answer, -, hbehind⟩ := Coroutine.acted_of_yield h
  cases answer with
  | send verdict => cases hbehind
  | throw error => exact absurd hbehind (not_acted_failWith error)

/-- What is requested behind the proposals comes after a result for each call,
with its id and in order. -/
theorem acted_of_propose
    (hcaller : ∀ seen proposal result, caller seen (.proposal proposal) =
      some (.send (some result)) → result.toolUseId = proposal.toolUseId)
    {next : List JsonObject → RawGen} {results : List JsonObject} {calls : List ToolUse}
    (h : .acted request ∈ (env.propose next results calls).trace caller seen) :
    ∃ later answers, .acted request ∈ (next (results ++ answers)).trace caller later ∧
      answers.length = calls.length ∧
      idsOf "tool_result" "tool_use_id" (answers.map .obj) =
        calls.map fun call => .str call.id := by
  induction calls generalizing seen results with
  | nil => exact ⟨seen, [], by rwa [List.append_nil], rfl, rfl⟩
  | cons call rest ih =>
      obtain ⟨answer, hanswer, hbehind⟩ := Coroutine.acted_of_yield h
      cases answer with
      | throw error => exact absurd hbehind (not_acted_failWith error)
      | send verdict =>
          cases verdict with
          | none => exact absurd hbehind (not_acted_failWith _)
          | some result =>
              obtain ⟨later, answers, hnext, hlength, hids⟩ := ih hbehind
              refine ⟨later, RawEnv.toolResultBlock result :: answers, ?_, ?_, ?_⟩
              · rwa [List.append_assoc] at hnext
              · rw [List.length_cons, List.length_cons, hlength]
              · have hid : result.toolUseId = call.id := hcaller _ _ _ hanswer
                rw [List.map_cons, ← List.singleton_append, idsOf_append,
                  idsOf_toolResultBlock, hids, hid]
                rfl

theorem wellFormed_of_converse
    (hcaller : ∀ seen proposal result, caller seen (.proposal proposal) =
      some (.send (some result)) → result.toolUseId = proposal.toolUseId)
    {context : String} {messages : List JsonObject} {turns : List TurnOutcome}
    (hturns : ∀ final, .final final ∈ turns → env.Orderly final)
    (hmessages : WellFormed context messages)
    (h : .acted request ∈ (env.converse messages turns).trace caller seen) :
    WellFormed context request.messages := by
  induction turns generalizing messages seen with
  | nil =>
      rw [RawEnv.converse, Coroutine.trace_act, Coroutine.trace_wait, List.mem_singleton] at h
      cases h
      exact hmessages
  | cons outcome rest ih =>
      unfold RawEnv.converse at h
      rw [Coroutine.trace_act] at h
      rcases List.mem_cons.mp h with hfirst | hlater
      · cases hfirst
        exact hmessages
      cases outcome with
      | raised error => exact absurd hlater (not_acted_failWith error)
      | final final =>
          have horderly := hturns final List.mem_cons_self
          rcases Coroutine.acted_of_yieldAll hlater with
            ⟨answer, stopped, later, hstops, hstopped⟩ | ⟨later, hbehind⟩
          · cases answer with
            | send verdict => cases hstops
            | throw error =>
                cases hstops
                exact absurd hstopped (not_acted_failWith error)
          · split at hbehind
            · exact absurd hbehind (not_acted_completed final)
            · rename_i hstop
              rw [not_not] at hstop
              obtain ⟨later', answers, hnext, hlength, hids⟩ := acted_of_propose hcaller hbehind
              have hcalls : (runOneTurn env.aggregateId
                  (serverWireNames env.abstractServerTools) final).clientToolUses =
                  final.content.filterMap ContentBlock.toolUse? :=
                clientToolUses_of_content {} horderly.server
              rw [hcalls] at hlength hids
              obtain ⟨id, name, input, hblock⟩ := horderly.client hstop
              have hmem : ⟨id, name, input⟩ ∈ final.content.filterMap ContentBlock.toolUse? :=
                List.mem_filterMap.mpr ⟨_, hblock, rfl⟩
              have hne : answers.map Json.obj ≠ [] := by
                intro hnil
                rw [List.map_eq_nil_iff] at hnil
                rw [hnil, List.length_nil, eq_comm, List.length_eq_zero_iff] at hlength
                rw [hlength] at hmem
                cases hmem
              exact ih (fun other hother => hturns other (List.mem_cons_of_mem _ hother))
                (hmessages.answered hne (hids.trans (idsOf_content final.content).symm)) hnext

/-- Every request of a run is a well-formed conversation, whatever the model
says and the caller decides, as long as server tools have blocks of their own,
the model stops for tools only with a client tool call, and the caller's results
are for the proposals they answer. -/
theorem requests_wellFormed (env : RawEnv) (context : String) (turns : List TurnOutcome)
    (caller : AdapterCaller)
    (hturns : ∀ final, .final final ∈ turns → env.Orderly final)
    (hcaller : ∀ seen proposal result, caller seen (.proposal proposal) =
      some (.send (some result)) → result.toolUseId = proposal.toolUseId) :
    ∀ request, .acted request ∈ (env.spawnAgent context turns).trace caller [] →
      WellFormed context request.messages := by
  intro request h
  obtain ⟨answer, -, hbehind⟩ := Coroutine.acted_of_yield h
  cases answer with
  | send verdict => exact wellFormed_of_converse hcaller hturns .start hbehind
  | throw error => exact absurd hbehind List.not_mem_nil

end Requests

/-- A session with a server tool. -/
def searchEnv : RawEnv where
  aggregateId := "SRS"
  kwargs := [("model", .str "claude-opus-4-7")]
  abstractServerTools := ["WebSearch"]
  started := [("persona", .str "analyst")]
  timeoutS := .finite 600
  errorClass := fun _ => .internal
  strError := PyError.message
  reprError := PyError.message
  reprText := id

/-- A turn with two client tool calls and one on the server, and the last. -/
def searchTurns : List TurnOutcome :=
  [.final {
      deltas := [.text "Looking it up."]
      content := [.toolUse "toolu_1" "bash" [], .serverToolUse "srvtoolu_1" "web_search" [],
        .toolUse "toolu_2" "read_file" []]
      stopReason := some "tool_use"
      usage := none },
    .final { deltas := [], content := [], stopReason := some "end_turn", usage := none }]

/-- A caller that has every proposal done. -/
def diligentCaller : AdapterCaller := fun _ event =>
  match event with
  | .proposal proposal => some (.send (some ⟨proposal.toolUseId, .str "done", false⟩))
  | .event _ => some (.send none)

theorem requests_wellFormed_searchTurns :
    (∃ request, .acted request ∈
      (searchEnv.spawnAgent "context" searchTurns).trace diligentCaller [] ∧
        request.messages.length = 3) ∧
    ∀ request, .acted request ∈
      (searchEnv.spawnAgent "context" searchTurns).trace diligentCaller [] →
        WellFormed "context" request.messages := by
  constructor
  · have hthird : ((searchEnv.spawnAgent "context" searchTurns).trace diligentCaller [])[11]? =
        some (.acted _) := rfl
    exact ⟨_, List.mem_of_getElem? hthird, rfl⟩
  · apply requests_wellFormed searchEnv "context" searchTurns diligentCaller
    · intro final hfinal
      simp only [searchTurns, List.mem_cons, TurnOutcome.final.injEq, List.not_mem_nil,
        or_false] at hfinal
      rcases hfinal with rfl | rfl
      · constructor
        · intro id name input hblock
          simp only [List.mem_cons, ContentBlock.toolUse.injEq, reduceCtorEq, false_or,
            List.not_mem_nil, or_false] at hblock
          rcases hblock with ⟨-, rfl, -⟩ | ⟨-, rfl, -⟩ <;> decide
        · exact fun _ => ⟨"toolu_1", "bash", [], List.mem_cons_self⟩
      · exact ⟨by simp, by simp⟩
    · intro seen proposal result hanswer
      obtain rfl := Option.some.inj (Resumption.send.inj (Option.some.inj hanswer))
      rfl

end ClaudeRaw

end ForgeOS
