import ForgeOS.Kernel.Events
import Mathlib.Data.List.Count
import Mathlib.Data.List.Infix

/-!
One turn of a Codex session. The adapter takes the messages of its thread
from their queue, yields what they mean to the caller, and answers the
approval requests among them with the caller's verdict. The turn ends with
the message that completes or fails it.
-/

namespace ForgeOS

open Library

namespace CodexSession

/-! ### Approvals -/

/-- The methods that become proposals. -/
inductive ApprovalMethod where
  | commandExecution
  | fileChange
deriving DecidableEq

/-- What `isinstance(value, int)` accepts: integers, and booleans with them. -/
inductive RequestId where
  | int (value : Int)
  | bool (value : Bool)
deriving DecidableEq

def requestId? : Json → Option RequestId
  | .int value => some (.int value)
  | .bool value => some (.bool value)
  | _ => none

/-- `_abstract_tool_for_approval`; `none` where it raises. -/
def abstractTool (params : Json) : ApprovalMethod → Option String
  | .fileChange => do
      let changes ← ((← params.get? "changes").or (.arr [])).toList?
      let kinds := changes.filterMap (·.get? "kind")
      -- the kinds are put into a set
      if kinds.any fun kind => kind.typeName = "list" || kind.typeName = "dict" then none
      else if kinds ≠ [] && kinds.all fun kind =>
          kind.str? = some "update" || kind.str? = some "modify" || kind.str? = some "edit" then
        some "Edit"
      else some "Write"
  | .commandExecution => do
      if (← params.get? "networkApprovalContext").truthy then some "NetworkAccess"
      else some "Bash"

def approvalInputs (params : Json) : ApprovalMethod → Option JsonObject
  | .fileChange => do
      some [("changes", ← params.getOr? "changes" (.arr [])),
        ("grant_root", ← params.get? "grantRoot")]
  | .commandExecution => do
      let context ← params.get? "networkApprovalContext"
      if context.truthy then
        some [("host", ← context.get? "host"), ("protocol", ← context.get? "protocol")]
      else
        some [("command", ← params.get? "command"), ("cwd", ← params.get? "cwd"),
          ("command_actions", ← params.get? "commandActions")]

/-- The decision an approval request is answered with. -/
inductive Decision where
  | accept
  | acceptForSession
  | decline
deriving DecidableEq, Repr

/-- `_approval_response`. Lowering what lies outside ASCII makes no further
`session`. -/
def approvalResponse (result : ToolResult) : Decision :=
  if result.isError then .decline
  else
    match result.content with
    | .str content =>
        if "session".toList <:+: content.toLower.toList then .acceptForSession else .accept
    | _ => .accept

/-! ### Translation -/

/-- Where commands and edits are executed. -/
inductive Boundary where
  | kernel
  | forge
deriving DecidableEq

/-- The method of a message, empty when it is missing or no string. -/
def methodOf (msg : JsonObject) : String := ((msg.get? "method").bind Json.str?).getD ""

def approvalMethod? (method : String) : Option ApprovalMethod :=
  if method = "item/commandExecution/requestApproval" then some .commandExecution
  else if method = "item/fileChange/requestApproval" then some .fileChange
  else none

/-- What one message becomes: nothing, an event, the event that ends the turn,
or a proposal together with the id to answer. -/
inductive Translated where
  | skip
  | event (event : NormalizedEvent)
  | last (event : NormalizedEvent)
  | proposal (proposal : ToolUseProposal) (serverReqId : Json)

section Translation

variable (boundary : Boundary) (aggregateId : String)

def emit (kind : EventKind) (payload : JsonObject) : Translated :=
  .event ⟨kind, aggregateId, payload⟩

/-- A completed item: only what the kernel executed itself is reported. -/
def translateItem (item : Json) : Option Translated := do
  let itype := (← item.get? "type").str?.getD ""
  if itype = "webSearch" then
    some (emit aggregateId .serverToolExecuted [("tool", .str "web_search"),
      ("query", ← item.get? "query"), ("execution", .str "kernel_executed")])
  else if (itype = "commandExecution" ∨ itype = "fileChange") ∧ boundary = .kernel then
    some (emit aggregateId .serverToolExecuted [("tool", .str itype),
      ("status", ← item.get? "status"), ("execution", .str "kernel_executed"), ("item", item)])
  else if itype = "mcpToolCall" then
    some (emit aggregateId .serverToolExecuted [("tool", ← item.get? "tool"),
      ("server", ← item.get? "server"), ("status", ← item.get? "status"), ("item", item)])
  else some .skip

def turnEvent (turn : Json) : Option NormalizedEvent := do
  let status ← turn.get? "status"
  if status.str? = some "failed" then
    some ⟨.agentFailed, aggregateId, [("status", status), ("error", ← turn.get? "error")]⟩
  else some ⟨.agentCompleted, aggregateId, [("status", status)]⟩

/-- The part of `_translate_stream` behind the approvals. -/
def translateOther (params : Json) (method : String) : Option Translated := do
  if method = "item/agentMessage/delta" then
    some (emit aggregateId .textDelta [("text", ← params.getOr? "delta" (.str ""))])
  else if method = "item/reasoning/summaryTextDelta" ∨ method = "item/reasoning/textDelta" then
    some (emit aggregateId .thinkingDelta [("text", ← params.getOr? "delta" (.str ""))])
  else if method = "turn/plan/updated" then
    some (emit aggregateId .planUpdated [("plan", ← params.getOr? "plan" (.arr [])),
      ("explanation", ← params.get? "explanation")])
  else if method = "turn/diff/updated" then
    some (emit aggregateId .diffUpdated [("diff", ← params.getOr? "diff" (.str ""))])
  else if method = "item/completed" then
    translateItem boundary aggregateId ((← params.get? "item").or (.obj []))
  else if method = "turn/completed" then
    (turnEvent aggregateId ((← params.get? "turn").or (.obj []))).map .last
  else if method = "error" then
    some (.last ⟨.agentFailed, aggregateId, [("error", ← params.get? "error")]⟩)
  else some .skip

/-- The proposal made of an approval request. -/
def proposalOf (toolUseId : String) (params : Json) (method : ApprovalMethod) :
    Option ToolUseProposal := do
  some {
    kind := .toolUseProposed
    aggregateId := aggregateId
    payload := [("item_id", ← params.get? "itemId"), ("reason", ← params.get? "reason")]
    toolUseId := toolUseId
    toolName := match method with
      | .fileChange => "apply_patch"
      | .commandExecution => "shell"
    abstractTool := ← abstractTool params method
    inputs := ← approvalInputs params method }

/-- `_translate_stream` for one message; `none` where it raises. -/
def translate (toolUseId : String) (msg : JsonObject) : Option Translated :=
  let params := Json.or ((msg.get? "params").getD .null) (.obj [])
  match approvalMethod? (methodOf msg) with
  | some method =>
      (proposalOf aggregateId toolUseId params method).map
        fun proposal => .proposal proposal ((msg.get? "id").getD .null)
  | none => translateOther boundary aggregateId params (methodOf msg)

end Translation

/-! ### The turn -/

/-- The session, and what it has written and yielded so far. -/
structure Session where
  pendingApprovals : Dict String RequestId
  written : List (RequestId × Decision)
  yielded : List Yielded
  proposals : Nat

/-- How the event stream of a session stands: it ended, it raised, or it waits
for a message. -/
inductive Ending where
  | ended
  | raised
  | waiting
deriving DecidableEq

/-- What lies outside the session: the tool-use ids it draws, the verdicts its
caller resumes it with, and whether a response can still be written. -/
structure SessionEnv where
  boundary : Boundary
  aggregateId : String
  mint : Nat → String
  verdict : Nat → Option ToolResult
  writable : Nat → Bool

namespace Session

def initial : Session := ⟨[], [], [], 0⟩

/-- `pending_approvals[tool_use_id] = server_req_id`, for an integer id. -/
def propose (s : Session) (proposal : ToolUseProposal) (serverReqId : Json) : Session :=
  { s with
    pendingApprovals := match requestId? serverReqId with
      | some reqId => s.pendingApprovals.set proposal.toolUseId reqId
      | none => s.pendingApprovals
    yielded := s.yielded ++ [.proposal proposal]
    proposals := s.proposals + 1 }

/-- A caller that resumes without a verdict declines. -/
def verdictOn (env : SessionEnv) (number : Nat) (proposal : ToolUseProposal) : ToolResult :=
  (env.verdict number).getD ⟨proposal.toolUseId, .str "no decision supplied", true⟩

/-- `_answer_proposal`; `none` when the response cannot be written. A proposal
without an integer id is not answered. -/
def answerProposal (env : SessionEnv) (s : Session) (proposal : ToolUseProposal)
    (result : ToolResult) (serverReqId : Json) : Option Session :=
  let popped := { s with
    pendingApprovals := s.pendingApprovals.filter fun entry => entry.1 ≠ proposal.toolUseId }
  match (s.pendingApprovals.get? proposal.toolUseId).or (requestId? serverReqId) with
  | none => some popped
  | some reqId =>
      if env.writable s.written.length then
        some { popped with written := s.written ++ [(reqId, approvalResponse result)] }
      else none

/-- The consuming loop of `spawn_agent` over the messages taken from the queue. -/
def consume (env : SessionEnv) (s : Session) : List JsonObject → Ending × Session
  | [] => (.waiting, s)
  | msg :: rest =>
      match translate env.boundary env.aggregateId (env.mint s.proposals) msg with
      | none => (.raised, s)
      | some .skip => consume env s rest
      | some (.event event) =>
          consume env { s with yielded := s.yielded ++ [.event event] } rest
      | some (.last event) => (.ended, { s with yielded := s.yielded ++ [.event event] })
      | some (.proposal proposal serverReqId) =>
          match (s.propose proposal serverReqId).answerProposal env proposal
              (verdictOn env s.proposals proposal) serverReqId with
          | some answered => consume env answered rest
          | none => (.raised, s.propose proposal serverReqId)

end Session

/-! ### What is owed -/

def endsTurn (method : String) : Bool := method = "turn/completed" || method = "error"

/-- The messages a session takes until the turn ends. -/
def taken : List JsonObject → List JsonObject
  | [] => []
  | msg :: rest => if endsTurn (methodOf msg) then [msg] else msg :: taken rest

/-- A request of the server has an id and a method. -/
def isRequest (msg : JsonObject) : Bool :=
  (msg.get? "id").isSome && (msg.get? "method").isSome

/-- The integer id of a message. -/
def requestIdOf (msg : JsonObject) : Option RequestId := (msg.get? "id").bind requestId?

def isApproval (msg : JsonObject) : Bool := (approvalMethod? (methodOf msg)).isSome

/-- The responses written that carry the id of a message. -/
def responsesTo (s : Session) (msg : JsonObject) : List (RequestId × Decision) :=
  s.written.filter fun response => requestIdOf msg = some response.1

/-- The request id the session answers for a message. -/
def answeredId (msg : JsonObject) : Option RequestId :=
  if isApproval msg then requestIdOf msg else none

/-! ### What a message becomes -/

section Translation

variable {boundary : Boundary} {aggregateId toolUseId : String}

/-- A completed item is reported or ignored. -/
private theorem translateItem_cases {item : Json} {translated : Translated}
    (h : translateItem boundary aggregateId item = some translated) :
    translated = .skip ∨ ∃ event, translated = .event event := by
  simp only [translateItem, Option.bind_eq_bind, Option.bind_eq_some_iff] at h
  obtain ⟨type, -, h⟩ := h
  split at h
  · obtain ⟨query, -, h⟩ := Option.bind_eq_some_iff.mp h
    exact Or.inr ⟨_, (Option.some.inj h).symm⟩
  · split at h
    · obtain ⟨status, -, h⟩ := Option.bind_eq_some_iff.mp h
      exact Or.inr ⟨_, (Option.some.inj h).symm⟩
    · split at h
      · simp only [Option.bind_eq_some_iff] at h
        obtain ⟨tool, -, server, -, status, -, h⟩ := h
        exact Or.inr ⟨_, (Option.some.inj h).symm⟩
      · exact Or.inl (Option.some.inj h).symm

/-- Behind the approvals, the methods that end a turn become its last event,
and all others are reported or ignored. -/
theorem translateOther_cases {params : Json} {method : String} {translated : Translated}
    (h : translateOther boundary aggregateId params method = some translated) :
    (endsTurn method = true ∧ ∃ event, translated = .last event) ∨
    (endsTurn method = false ∧ (translated = .skip ∨ ∃ event, translated = .event event)) := by
  unfold translateOther at h
  split at h
  · rename_i hmethod
    obtain ⟨text, -, h⟩ := Option.bind_eq_some_iff.mp h
    exact Or.inr ⟨by rw [hmethod]; rfl, Or.inr ⟨_, (Option.some.inj h).symm⟩⟩
  split at h
  · rename_i hmethod
    obtain ⟨text, -, h⟩ := Option.bind_eq_some_iff.mp h
    refine Or.inr ⟨?_, Or.inr ⟨_, (Option.some.inj h).symm⟩⟩
    rcases hmethod with hmethod | hmethod <;> rw [hmethod] <;> rfl
  split at h
  · rename_i hmethod
    simp only [Option.bind_eq_bind, Option.bind_eq_some_iff] at h
    obtain ⟨plan, -, explanation, -, h⟩ := h
    exact Or.inr ⟨by rw [hmethod]; rfl, Or.inr ⟨_, (Option.some.inj h).symm⟩⟩
  split at h
  · rename_i hmethod
    obtain ⟨diff, -, h⟩ := Option.bind_eq_some_iff.mp h
    exact Or.inr ⟨by rw [hmethod]; rfl, Or.inr ⟨_, (Option.some.inj h).symm⟩⟩
  split at h
  · rename_i hmethod
    obtain ⟨item, -, h⟩ := Option.bind_eq_some_iff.mp h
    exact Or.inr ⟨by rw [hmethod]; rfl, translateItem_cases h⟩
  split at h
  · rename_i hmethod
    obtain ⟨turn, -, h⟩ := Option.bind_eq_some_iff.mp h
    obtain ⟨event, -, h⟩ := Option.map_eq_some_iff.mp h
    exact Or.inl ⟨by rw [hmethod]; rfl, event, h.symm⟩
  split at h
  · rename_i hmethod
    obtain ⟨error, -, h⟩ := Option.bind_eq_some_iff.mp h
    exact Or.inl ⟨by rw [hmethod]; rfl, _, (Option.some.inj h).symm⟩
  · rename_i hcompleted herror
    refine Or.inr ⟨?_, Or.inl (Option.some.inj h).symm⟩
    simp only [endsTurn, hcompleted, herror, decide_false, Bool.or_self]

theorem endsTurn_of_approval {method : String} {kind : ApprovalMethod}
    (h : approvalMethod? method = some kind) : endsTurn method = false := by
  unfold approvalMethod? at h
  split at h
  · rename_i hmethod
    rw [hmethod]
    rfl
  · split at h
    · rename_i hmethod
      rw [hmethod]
      rfl
    · cases h

/-- What a message becomes: the last event of the turn, a proposal that
carries the drawn id, or something that leaves the session as it is. -/
theorem translate_cases {msg : JsonObject} {translated : Translated}
    (h : translate boundary aggregateId toolUseId msg = some translated) :
    (endsTurn (methodOf msg) = true ∧ isApproval msg = false ∧
      ∃ event, translated = .last event) ∨
    (endsTurn (methodOf msg) = false ∧ isApproval msg = true ∧
      ∃ proposal, proposal.toolUseId = toolUseId ∧
        translated = .proposal proposal ((msg.get? "id").getD .null)) ∨
    (endsTurn (methodOf msg) = false ∧ isApproval msg = false ∧
      (translated = .skip ∨ ∃ event, translated = .event event)) := by
  unfold translate at h
  unfold isApproval
  cases hmethod : approvalMethod? (methodOf msg) with
  | some kind =>
      simp only [hmethod] at h
      obtain ⟨proposal, hproposal, h⟩ := Option.map_eq_some_iff.mp h
      refine Or.inr (Or.inl ⟨endsTurn_of_approval hmethod, rfl, proposal, ?_, h.symm⟩)
      simp only [proposalOf, Option.bind_eq_bind, Option.bind_eq_some_iff] at hproposal
      obtain ⟨itemId, -, reason, -, abstract, -, inputs, -, hproposal⟩ := hproposal
      rw [← Option.some.inj hproposal]
  | none =>
      simp only [hmethod] at h
      rcases translateOther_cases h with ⟨hends, hlast⟩ | ⟨hends, hother⟩
      · exact Or.inl ⟨hends, rfl, hlast⟩
      · exact Or.inr (Or.inr ⟨hends, rfl, hother⟩)

end Translation

theorem requestId?_getD (msg : JsonObject) :
    requestId? ((msg.get? "id").getD .null) = requestIdOf msg := by
  unfold requestIdOf
  cases msg.get? "id" <;> rfl

/-! ### Answers -/

section Answers

variable {env : SessionEnv} {s : Session}

/-- With no approval pending, answering a proposal writes one response, to the
id of its request, when that is an integer. Nothing is pending afterwards. -/
theorem answer_of_proposal {proposal : ToolUseProposal} {result : ToolResult} {serverReqId : Json}
    {answered : Session} (hpending : s.pendingApprovals = [])
    (h : (s.propose proposal serverReqId).answerProposal env proposal result serverReqId =
      some answered) :
    answered.pendingApprovals = [] ∧
      answered.written.map Prod.fst =
        s.written.map Prod.fst ++ (requestId? serverReqId).toList := by
  unfold Session.answerProposal Session.propose at h
  cases hid : requestId? serverReqId with
  | none =>
      simp only [hid, hpending, Dict.get?_nil, Option.or_none] at h
      rw [← Option.some.inj h]
      exact ⟨rfl, by simp⟩
  | some reqId =>
      simp only [hid, hpending, Dict.set, Dict.get?_cons, if_true, Option.some_or] at h
      split at h
      · rw [← Option.some.inj h]
        simp
      · cases h

/-- When the stream of a session ends, the ids it has answered are those of
the approvals it took, in order, as far as they are integers. -/
theorem written_of_ended (msgs : List JsonObject) (hpending : s.pendingApprovals = [])
    (hended : (s.consume env msgs).1 = .ended) :
    (s.consume env msgs).2.written.map Prod.fst =
      s.written.map Prod.fst ++ (taken msgs).filterMap answeredId := by
  induction msgs generalizing s with
  | nil => cases hended
  | cons msg rest ih =>
      unfold Session.consume at hended ⊢
      cases htranslate : translate env.boundary env.aggregateId (env.mint s.proposals) msg with
      | none =>
          simp only [htranslate] at hended
          cases hended
      | some translated =>
          simp only [htranslate] at hended ⊢
          rcases translate_cases htranslate with ⟨hends, happroval, event, rfl⟩ |
            ⟨hends, happroval, proposal, -, rfl⟩ | ⟨hends, happroval, rfl | ⟨event, rfl⟩⟩
          · simp [taken, hends, answeredId, happroval]
          · simp only [taken, hends, Bool.false_eq_true, if_false] at hended ⊢
            split at hended
            · rename_i answered hanswered
              obtain ⟨hnext, hwritten⟩ := answer_of_proposal hpending hanswered
              rw [ih hnext hended, hwritten, requestId?_getD, List.append_assoc]
              cases hid : requestIdOf msg <;> simp [answeredId, happroval, hid]
            · cases hended
          · have hrest := ih hpending hended
            simpa [taken, hends, answeredId, happroval] using hrest
          · have hrest := ih (s := { s with yielded := s.yielded ++ [.event event] })
              hpending hended
            simpa [taken, hends, answeredId, happroval] using hrest

/-- The responses that carry an integer id are as many as the approvals taken
that carry it. -/
theorem responses_length (msgs : List JsonObject) {msg : JsonObject} {reqId : RequestId}
    (hid : requestIdOf msg = some reqId)
    (hended : (Session.initial.consume env msgs).1 = .ended) :
    (responsesTo (Session.initial.consume env msgs).2 msg).length =
      ((taken msgs).filter fun other =>
        isApproval other && requestIdOf other = requestIdOf msg).length := by
  have hwritten := written_of_ended msgs rfl hended
  simp only [Session.initial, List.map_nil, List.nil_append] at hwritten
  have hcount : (responsesTo (Session.initial.consume env msgs).2 msg).length =
      ((Session.initial.consume env msgs).2.written.map Prod.fst).countP (· = reqId) := by
    rw [responsesTo, ← List.countP_eq_length_filter, List.countP_map]
    simp [hid, Function.comp_def, eq_comm]
  rw [hcount, Session.initial, hwritten, List.countP_filterMap, ← List.countP_eq_length_filter]
  congr 1
  funext other
  cases happroval : isApproval other <;> cases hother : requestIdOf other <;>
    simp [answeredId, happroval, hother, hid]

/-- When the event stream of a session ends, each request it took has exactly one
response precisely when each has an integer id that exactly one of the approval
requests carries. The others are taken and dropped: those with a string as their
id, and those of any other method. -/
theorem requests_answered_once_iff (env : SessionEnv) (msgs : List JsonObject)
    (hended : (Session.initial.consume env msgs).1 = .ended) :
    (∀ msg ∈ taken msgs, isRequest msg = true →
        (responsesTo (Session.initial.consume env msgs).2 msg).length = 1) ↔
      ∀ msg ∈ taken msgs, isRequest msg = true →
        (requestIdOf msg).isSome = true ∧
          ((taken msgs).filter fun other =>
            isApproval other && requestIdOf other = requestIdOf msg).length = 1 := by
  refine forall₃_congr fun msg _ _ => ?_
  cases hid : requestIdOf msg with
  | none => simp [responsesTo, hid]
  | some reqId =>
      rw [responses_length msgs hid hended, hid]
      simp

end Answers

/-- A caller that approves everything, over a pipe that stays open. -/
def approving : SessionEnv where
  boundary := .kernel
  aggregateId := "stage-agent"
  mint := fun _ => "appr-1"
  verdict := fun _ => some ⟨"appr-1", .str "ok", false⟩
  writable := fun _ => true

def commandApproval (reqId : Json) : JsonObject :=
  [("id", reqId), ("method", .str "item/commandExecution/requestApproval"),
    ("params", .obj [("threadId", .str "t1"), ("command", .str "ls")])]

def turnCompleted : JsonObject :=
  [("method", .str "turn/completed"), ("params", .obj [("threadId", .str "t1")])]

theorem requests_answered_once_iff_approval :
    (∀ msg ∈ taken [commandApproval (.int 7), turnCompleted], isRequest msg = true →
        (responsesTo (Session.initial.consume approving
          [commandApproval (.int 7), turnCompleted]).2 msg).length = 1) ↔
      ∀ msg ∈ taken [commandApproval (.int 7), turnCompleted], isRequest msg = true →
        (requestIdOf msg).isSome = true ∧
          ((taken [commandApproval (.int 7), turnCompleted]).filter fun other =>
            isApproval other && requestIdOf other = requestIdOf msg).length = 1 :=
  requests_answered_once_iff approving _ (by rfl)

/-- An approval request with a string id is proposed, decided and never
answered. -/
theorem string_id_approval_is_unanswered :
    (Session.initial.consume approving [commandApproval (.str "r-1"), turnCompleted]).1 = .ended ∧
      ¬∀ msg ∈ taken [commandApproval (.str "r-1"), turnCompleted], isRequest msg = true →
        (responsesTo (Session.initial.consume approving
          [commandApproval (.str "r-1"), turnCompleted]).2 msg).length = 1 := by
  refine ⟨rfl, ?_⟩
  intro hall
  have hresponses := hall (commandApproval (.str "r-1")) List.mem_cons_self rfl
  cases hresponses

end CodexSession

end ForgeOS
