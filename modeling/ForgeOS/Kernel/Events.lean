import ForgeOS.Json

/-!
What a kernel adapter yields while it runs an agent, and what it is resumed
with.
-/

namespace ForgeOS

inductive EventKind where
  | sessionStarted
  | textDelta
  | thinkingDelta
  | toolUseProposed
  | serverToolExecuted
  | planUpdated
  | diffUpdated
  | agentCompleted
  | agentFailed
deriving DecidableEq, Repr

/-- A kernel-agnostic event yielded by `spawn_agent`. -/
structure NormalizedEvent where
  kind : EventKind
  aggregateId : String
  payload : JsonObject

/-- A client-tool proposal, yielded at the proposal boundary. -/
structure ToolUseProposal extends NormalizedEvent where
  toolUseId : String
  toolName : String
  abstractTool : String
  inputs : JsonObject

inductive Yielded where
  | event (event : NormalizedEvent)
  | proposal (proposal : ToolUseProposal)

/-- The verdict on a proposal; its content is a string or a list of blocks. -/
structure ToolResult where
  toolUseId : String
  content : Json
  isError : Bool

end ForgeOS
