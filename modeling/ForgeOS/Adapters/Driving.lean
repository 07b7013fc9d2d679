import ForgeOS.Library.Coroutine
import ForgeOS.Adapters.Bridge

/-!
How the generators of the kernel adapters are driven. A caller resumes a
generator with a verdict or with none, throws into it, or leaves it alone; the
bridge to the synchronous interface is one such caller.
-/

namespace ForgeOS

open Library

/-- How a generator is resumed: by `asend`, or by `athrow`. -/
inductive Resumption where
  | send (result : Option ToolResult)
  | throw (error : PyError)

/-- The generator of a kernel adapter, with what it does besides yielding. -/
abbrev AdapterGen (ω : Type) := Coroutine ω PyError Yielded Resumption

abbrev AdapterCaller := Caller Yielded Resumption

/-- A generator as the bridge sees it. One that waits for ever is cut off
there. -/
def AdapterGen.toAsyncGen {ω : Type} : AdapterGen ω → AsyncGen
  | .done | .wait => .stop
  | .raise error => .raise error
  | .act _ next => AdapterGen.toAsyncGen next
  | .yield event resume => .yield event fun result => AdapterGen.toAsyncGen (resume (.send result))

def yieldedIn {ω : Type} (trace : List (Observation ω Yielded Resumption)) : List Yielded :=
  trace.filterMap fun
    | .yielded event => some event
    | _ => none

def Yielded.isProposal : Yielded → Bool
  | .proposal _ => true
  | .event _ => false

namespace Bridge

variable (bridge : Bridge)

/-- The loop of `_run_async` as the caller of its generator: it answers
proposals, resumes other events with nothing, and leaves the generator behind
its terminal event or an exception of the handler. -/
def caller : AdapterCaller := fun seen event =>
  match event with
  | .proposal proposal =>
      match bridge.handleProposal (seen.countP Yielded.isProposal) proposal with
      | .ok result => some (.send (some result))
      | .error _ => none
  | .event event =>
      match event.kind with
      | .agentCompleted => none
      | .agentFailed => none
      | _ => some (.send none)

/-- `AsyncToSyncBridge(inner)`, with its default settings. -/
def wrapping (inner : AgentPersona → String → List String → String → AsyncGen)
    (adapterId : String) (strPayload : JsonObject → String) (reprError : PyError → String)
    (reprText : String → String) (handleId : String) : Bridge where
  inner := inner
  adapterId := adapterId
  autoDecline := true
  proposalHandler := none
  strPayload := strPayload
  reprError := reprError
  reprText := reprText
  handleId := handleId

/-- With its default settings the bridge declines every proposal. -/
theorem caller_wrapping (inner : AgentPersona → String → List String → String → AsyncGen)
    (adapterId : String) (strPayload : JsonObject → String) (reprError : PyError → String)
    (reprText : String → String) (handleId : String) (seen : List Yielded)
    (proposal : ToolUseProposal) :
    (wrapping inner adapterId strPayload reprError reprText handleId).caller seen
        (.proposal proposal) =
      some (.send (some {
        toolUseId := proposal.toolUseId
        content := .str ("[forge bridge] Tool execution not available yet " ++
          s!"(bridge auto-declined {reprText proposal.abstractTool}). " ++
          "Wire a proposal_handler or use the full Forge pipeline.")
        isError := true })) := rfl

/-- The bridge driving a generator is its caller: it is yielded the same. -/
theorem yielded_toAsyncGen {ω : Type} (gen : AdapterGen ω) (seen : List Yielded) :
    bridge.yielded gen.toAsyncGen (seen.countP Yielded.isProposal) =
      yieldedIn (gen.trace bridge.caller seen) := by
  induction gen generalizing seen with
  | done => rfl
  | raise error => rfl
  | wait => rfl
  | act action next ih =>
      rw [Coroutine.trace_act]
      exact ih seen
  | yield event resume ih =>
      cases event with
      | proposal proposal =>
          cases hverdict :
              bridge.handleProposal (seen.countP Yielded.isProposal) proposal with
          | error error =>
              rw [Coroutine.trace_yield_none resume (by simp only [caller, hverdict])]
              simp only [AdapterGen.toAsyncGen, yielded, hverdict]
              rfl
          | ok result =>
              have hcaller : bridge.caller seen (.proposal proposal) =
                  some (.send (some result)) := by
                simp only [caller, hverdict]
              have hrest := ih (.send (some result)) (seen ++ [.proposal proposal])
              rw [List.countP_append] at hrest
              rw [Coroutine.trace_yield_some resume hcaller]
              simp only [AdapterGen.toAsyncGen, yielded, hverdict]
              exact congrArg _ hrest
      | event event =>
          cases hkind : event.kind with
          | agentCompleted =>
              rw [Coroutine.trace_yield_none resume (by simp only [caller, hkind])]
              simp only [AdapterGen.toAsyncGen, yielded, hkind]
              rfl
          | agentFailed =>
              rw [Coroutine.trace_yield_none resume (by simp only [caller, hkind])]
              simp only [AdapterGen.toAsyncGen, yielded, hkind]
              rfl
          | _ =>
              have hcaller : bridge.caller seen (.event event) = some (.send none) := by
                simp only [caller, hkind]
              have hrest := ih (.send none) (seen ++ [.event event])
              rw [List.countP_append] at hrest
              rw [Coroutine.trace_yield_some resume hcaller]
              simp only [AdapterGen.toAsyncGen, yielded, hkind]
              exact congrArg _ hrest

end Bridge

end ForgeOS
