import ForgeOS.Agents.Models
import ForgeOS.Kernel.Events

/-!
The bridge from an asynchronous kernel adapter to the synchronous interface of
the core. It drives the adapter's generator to its end, answers proposals on
the way, and reports the run as one handle. The handle says `completed` from
the start: a generator that just stops leaves it so.
-/

namespace ForgeOS

open Library

/-- What an asynchronous generator does when it is resumed next: it returns, it
raises, or it yields and goes on with what it is sent. -/
inductive AsyncGen where
  | stop
  | raise (error : PyError)
  | yield (event : Yielded) (resume : Option ToolResult → AsyncGen)

/-- Kernel-agnostic agent persona. -/
structure AgentPersona where
  name : String
  role : String
  goal : String
  allowedTools : List String

/-- The bridge: the wrapped adapter, the handler of its `n`-th proposal, and
what is taken from Python's library. -/
structure Bridge where
  inner : AgentPersona → String → List String → String → AsyncGen
  adapterId : String
  autoDecline : Bool
  proposalHandler : Option (Nat → ToolUseProposal → Except PyError ToolResult)
  /-- `str(payload)`. -/
  strPayload : JsonObject → String
  /-- `repr(exc)`. -/
  reprError : PyError → String
  /-- `repr(text)`. -/
  reprText : String → String
  /-- The identifier drawn for the handle. -/
  handleId : String

/-- `_agent_def_to_persona`. -/
def AgentDefinition.toPersona (agent : AgentDefinition) : AgentPersona :=
  ⟨agent.name, agent.role, agent.prompt, agent.defaultTools⟩

namespace Bridge

variable (bridge : Bridge)

def handleProposal (number : Nat) (proposal : ToolUseProposal) : Except PyError ToolResult :=
  match bridge.proposalHandler with
  | some handler => handler number proposal
  | none =>
      if bridge.autoDecline then
        .ok {
          toolUseId := proposal.toolUseId
          content := .str ("[forge bridge] Tool execution not available yet " ++
            s!"(bridge auto-declined {bridge.reprText proposal.abstractTool}). " ++
            "Wire a proposal_handler or use the full Forge pipeline.")
          isError := true }
      else
        .error ⟨"RuntimeError",
          "AsyncToSyncBridge: received ToolUseProposal " ++
            s!"{bridge.reprText proposal.toolUseId} " ++
            "but auto_decline_proposals=False and no proposal_handler was provided."⟩

/-- What the loop of `_run_async` leaves behind. -/
structure LoopResult where
  status : String
  failReason : Json
  textParts : List Json

/-- The loop of `_run_async`. -/
def loop : AsyncGen → Nat → List Json → Except PyError LoopResult
  | .stop, _, parts => .ok ⟨"completed", .null, parts⟩
  | .raise error, _, _ => .error error
  | .yield (.proposal proposal) resume, number, parts =>
      match bridge.handleProposal number proposal with
      | .ok result => loop (resume (some result)) (number + 1) parts
      | .error error => .error error
  | .yield (.event event) resume, number, parts =>
      match event.kind with
      | .textDelta =>
          loop (resume none) number (parts ++ [(event.payload.get? "text").getD (.str "")])
      | .agentCompleted => .ok ⟨"completed", .null, parts⟩
      | .agentFailed =>
          .ok ⟨"failed", ((event.payload.get? "reason").getD .null).or
            (.str (bridge.strPayload event.payload)), parts⟩
      | _ => loop (resume none) number parts

/-- `"".join(parts)`. -/
def joinText (parts : List Json) : Except PyError String :=
  match parts.zipIdx.find? fun part => part.1.str?.isNone with
  | some (part, index) =>
      .error ⟨"TypeError",
        s!"sequence item {index}: expected str instance, {part.typeName} found"⟩
  | none => .ok (String.join (parts.filterMap Json.str?))

def runAsync (persona : AgentPersona) (context : String) (tools : List String)
    (aggregateId : String) : Except PyError AgentHandle := do
  let result ← bridge.loop (bridge.inner persona context tools aggregateId) 0 []
  let text := pyStrip (← joinText result.textParts)
  return {
    handleId := bridge.handleId
    provider := bridge.adapterId
    personaId := persona.name
    status := result.status
    outputs := if text = "" then [] else [⟨"(stream)", "text", some (text.take 200).toString⟩]
    metadata := [("fail_reason", result.failReason), ("full_text", .str text)] }

/-- `spawn_agent`: an exception becomes a failed handle. -/
def spawnAgent (persona : AgentDefinition) (context : String) (tools : List String) :
    AgentHandle :=
  match bridge.runAsync persona.toPersona context tools persona.id with
  | .ok handle => handle
  | .error error => {
      handleId := bridge.handleId
      provider := bridge.adapterId
      personaId := persona.id
      status := "failed"
      outputs := []
      metadata := [("error", .str (bridge.reprError error))] }

/-! ### What the generator does -/

/-- The events the generator yields while the bridge drives it. -/
def yielded : AsyncGen → Nat → List Yielded
  | .stop, _ => []
  | .raise _, _ => []
  | .yield (.proposal proposal) resume, number =>
      .proposal proposal ::
        match bridge.handleProposal number proposal with
        | .ok result => yielded (resume (some result)) (number + 1)
        | .error _ => []
  | .yield (.event event) resume, number =>
      .event event ::
        match event.kind with
        | .agentCompleted => []
        | .agentFailed => []
        | _ => yielded (resume none) number

/-- The generator returns, without having completed or failed the run. -/
def JustStops : AsyncGen → Nat → Prop
  | .stop, _ => True
  | .raise _, _ => False
  | .yield (.proposal proposal) resume, number =>
      match bridge.handleProposal number proposal with
      | .ok result => JustStops (resume (some result)) (number + 1)
      | .error _ => False
  | .yield (.event event) resume, number =>
      match event.kind with
      | .agentCompleted => False
      | .agentFailed => False
      | _ => JustStops (resume none) number

end Bridge

/-- `AGENT_COMPLETED` is among the events, and no `AGENT_FAILED` before it. -/
def CompletedFirst (events : List Yielded) : Prop :=
  ∃ before event after, events = before ++ .event event :: after ∧
    event.kind = .agentCompleted ∧
    ∀ other, .event other ∈ before → other.kind ≠ .agentFailed

/-- The texts of the `TEXT_DELTA` events. -/
def textsOf (events : List Yielded) : List Json :=
  events.filterMap fun
    | .event event =>
        if event.kind = .textDelta then some ((event.payload.get? "text").getD (.str "")) else none
    | .proposal _ => none

theorem not_completedFirst_nil : ¬CompletedFirst [] := by
  rintro ⟨before, event, after, h, -⟩
  exact absurd h (by simp)

theorem completedFirst_cons (first : Yielded) (rest : List Yielded) :
    CompletedFirst (first :: rest) ↔
      (∃ event, first = .event event ∧ event.kind = .agentCompleted) ∨
        (∀ event, first = .event event → event.kind ≠ .agentFailed) ∧ CompletedFirst rest := by
  constructor
  · rintro ⟨before, event, after, hsplit, hkind, hbefore⟩
    cases before with
    | nil =>
        obtain ⟨rfl, -⟩ := List.cons.inj hsplit
        exact Or.inl ⟨event, rfl, hkind⟩
    | cons head before =>
        obtain ⟨rfl, hrest⟩ := List.cons.inj hsplit
        refine Or.inr ⟨?_, before, event, after, hrest, hkind, ?_⟩
        · rintro other rfl
          exact hbefore other (by simp)
        · intro other hother
          exact hbefore other (by simp [hother])
  · rintro (⟨event, rfl, hkind⟩ | ⟨hfirst, before, event, after, rfl, hkind, hbefore⟩)
    · exact ⟨[], event, rest, rfl, hkind, by simp⟩
    · refine ⟨first :: before, event, after, rfl, hkind, ?_⟩
      intro other hother
      rcases List.mem_cons.mp hother with hsame | hmember
      · exact hfirst other hsame.symm
      · exact hbefore other hmember

/-- Text is joined exactly when all its parts are strings. -/
theorem joinText_isOk (parts : List Json) :
    (Bridge.joinText parts).isOk = true ↔ ∀ part ∈ parts, part.str?.isSome = true := by
  unfold Bridge.joinText
  split
  · rename_i part index hfind
    simp only [Except.isOk, Except.toBool, Bool.false_eq_true, false_iff]
    intro hall
    have hnone := List.find?_some hfind
    have hmember := List.mem_of_find?_eq_some hfind
    have hpart := hall part (List.fst_mem_of_mem_zipIdx hmember)
    simp only [Option.isNone_iff_eq_none] at hnone
    rw [hnone] at hpart
    cases hpart
  · rename_i hfind
    simp only [Except.isOk, Except.toBool, true_iff]
    intro part hpart
    obtain ⟨index, hindex⟩ := List.mem_iff_getElem?.mp hpart
    have hnone := List.find?_eq_none.mp hfind (part, index)
      (List.mk_mem_zipIdx_iff_getElem?.mpr hindex)
    simpa [Option.isSome_iff_ne_none] using hnone

namespace Bridge

variable {bridge : Bridge}

/-- How the loop ends: on a generator that stops or completes with status
`completed` and the texts it has yielded, otherwise with another status or an
exception. -/
theorem loop_cases (gen : AsyncGen) (number : Nat) (parts : List Json) :
    ((bridge.JustStops gen number ∧ ¬CompletedFirst (bridge.yielded gen number) ∨
        ¬bridge.JustStops gen number ∧ CompletedFirst (bridge.yielded gen number)) ∧
      bridge.loop gen number parts =
        .ok ⟨"completed", .null, parts ++ textsOf (bridge.yielded gen number)⟩) ∨
    (¬bridge.JustStops gen number ∧ ¬CompletedFirst (bridge.yielded gen number) ∧
      ∀ result, bridge.loop gen number parts = .ok result → result.status = "failed") := by
  induction gen generalizing number parts with
  | stop =>
      refine Or.inl ⟨Or.inl ⟨trivial, not_completedFirst_nil⟩, ?_⟩
      simp [loop, yielded, textsOf]
  | raise error =>
      refine Or.inr ⟨id, not_completedFirst_nil, ?_⟩
      intro result hresult
      cases hresult
  | yield item resume ih =>
      cases item with
      | proposal proposal =>
          simp only [JustStops, yielded, loop, completedFirst_cons]
          cases hverdict : bridge.handleProposal number proposal with
          | error error =>
              simp [not_completedFirst_nil]
          | ok result =>
              have hrest := ih (some result) (number + 1) parts
              simpa [textsOf] using hrest
      | event event =>
          simp only [JustStops, yielded, loop, completedFirst_cons]
          cases hkind : event.kind with
          | agentCompleted => simp [hkind, textsOf]
          | agentFailed => simp [hkind, not_completedFirst_nil]
          | textDelta =>
              have hrest := ih none number
                (parts ++ [(Dict.get? event.payload "text").getD (.str "")])
              simpa [hkind, textsOf] using hrest
          | _ =>
              have hrest := ih none number parts
              simpa [hkind, textsOf] using hrest

/-- The generator of a run. -/
def generator (bridge : Bridge) (persona : AgentDefinition) (context : String)
    (tools : List String) : AsyncGen :=
  bridge.inner persona.toPersona context tools persona.id

theorem spawnAgent_completed (persona : AgentDefinition) (context : String)
    (tools : List String) :
    (bridge.spawnAgent persona context tools).status = "completed" ↔
      ∃ result, bridge.loop (bridge.generator persona context tools) 0 [] = .ok result ∧
        result.status = "completed" ∧ (joinText result.textParts).isOk = true := by
  unfold spawnAgent runAsync
  change _ ↔ ∃ result, bridge.loop (bridge.inner persona.toPersona context tools persona.id) 0 [] =
    .ok result ∧ _
  cases bridge.loop (bridge.inner persona.toPersona context tools persona.id) 0 [] with
  | error error => simp [bind, Except.bind]
  | ok result =>
      cases hjoin : joinText result.textParts with
      | error error => simp [bind, Except.bind, hjoin, Except.isOk, Except.toBool]
      | ok text => simp [bind, Except.bind, pure, Except.pure, hjoin, Except.isOk, Except.toBool]

/-- The handle says `completed` for exactly the completed runs, precisely when no
generator just stops, unless the bridge fails to join its texts, and the texts of
a completed run can be joined. A generator that stops without a word on how its
run went is taken for a completed one. -/
theorem completed_iff_completedFirst_iff (persona : AgentDefinition) (context : String)
    (tools : List String) :
    ((bridge.spawnAgent persona context tools).status = "completed" ↔
        CompletedFirst (bridge.yielded (bridge.generator persona context tools) 0)) ↔
      (bridge.JustStops (bridge.generator persona context tools) 0 →
        ∃ text ∈ textsOf (bridge.yielded (bridge.generator persona context tools) 0),
          text.str? = none) ∧
      (CompletedFirst (bridge.yielded (bridge.generator persona context tools) 0) →
        ∀ text ∈ textsOf (bridge.yielded (bridge.generator persona context tools) 0),
          text.str?.isSome = true) := by
  rw [spawnAgent_completed]
  rcases bridge.loop_cases (bridge.generator persona context tools) 0 [] with
    ⟨hends, hloop⟩ | ⟨hstops, hcompleted, hfailed⟩
  · simp only [hloop, Except.ok.injEq, exists_eq_left', true_and, joinText_isOk, List.nil_append]
    rcases hends with ⟨hstops, hcompleted⟩ | ⟨hstops, hcompleted⟩
    · simp [hstops, hcompleted]
    · simp [hstops, hcompleted]
  · simp only [hstops, hcompleted, iff_false, false_imp_iff, and_self, iff_true]
    rintro ⟨result, hresult, hstatus, -⟩
    rw [hfailed result hresult] at hstatus
    exact absurd hstatus (by decide)

/-- A kernel whose stream ends after it has started. -/
def silent : Bridge where
  inner := fun _ _ _ aggregateId =>
    .yield (.event ⟨.sessionStarted, aggregateId, []⟩) fun _ => .stop
  adapterId := "bridge:claude_sdk"
  autoDecline := true
  proposalHandler := none
  strPayload := fun _ => "\x7b\x7d"
  reprError := fun error => error.className
  reprText := id
  handleId := "agent-1"

theorem silent_stream_is_completed :
    ¬((silent.spawnAgent ⟨"a", "a", "dev", "build it", []⟩ "" []).status = "completed" ↔
      CompletedFirst (silent.yielded
        (silent.generator ⟨"a", "a", "dev", "build it", []⟩ "" []) 0)) := by
  intro h
  have hcompleted : CompletedFirst [.event ⟨.sessionStarted, "a", []⟩] := h.mp rfl
  simp [completedFirst_cons, not_completedFirst_nil] at hcompleted

end Bridge

end ForgeOS
