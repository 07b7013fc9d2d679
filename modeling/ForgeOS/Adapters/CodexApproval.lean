import ForgeOS.Adapters.CodexSession
import ForgeOS.Adapters.Driving

/-!
The approval boundary of the Codex adapter. A session is a generator here:
besides yielding it takes messages from its queue and writes responses. What a
caller does at each yield decides what is written, so an acceptance on the wire
must be traced back to the verdict that allowed it.
-/

namespace ForgeOS

open Library

namespace CodexSession

inductive SessionAction where
  | took (msg : JsonObject)
  | wrote (reqId : RequestId) (decision : Decision)

abbrev SessionGen := AdapterGen SessionAction

abbrev SessionTrace := List (Observation SessionAction Yielded Resumption)

def Session.writtenSince (answered s : Session) : List SessionAction :=
  (answered.written.drop s.written.length).map fun response => .wrote response.1 response.2

section Generator

/- The exception translating a message, or answering it, fails with. -/
variable (raised : JsonObject → PyError)

/-- The consuming loop of `spawn_agent`, as the caller meets it. -/
def generate (env : SessionEnv) (s : Session) : List JsonObject → SessionGen
  | [] => .wait
  | msg :: rest =>
      .act (.took msg) <|
        match translate env.boundary env.aggregateId (env.mint s.proposals) msg with
        | none => .raise (raised msg)
        | some .skip => generate env s rest
        | some (.event event) =>
            .yield (.event event) fun
              | .send _ =>
                  generate env { s with yielded := s.yielded ++ [.event event] } rest
              | .throw error => .raise error
        | some (.last event) =>
            .yield (.event event) fun
              | .send _ => .done
              | .throw error => .raise error
        | some (.proposal proposal serverReqId) =>
            .yield (.proposal proposal) fun
              | .send verdict =>
                  let result :=
                    verdict.getD ⟨proposal.toolUseId, .str "no decision supplied", true⟩
                  match (s.propose proposal serverReqId).answerProposal env proposal result
                    serverReqId with
                  | some answered =>
                      Coroutine.actAll (generate env answered rest) (answered.writtenSince s)
                  | none => .raise (raised msg)
              | .throw error => .raise error

/-- `spawn_agent` from the start of its turn on. -/
def spawnAgent (env : SessionEnv) (started : JsonObject) (msgs : List JsonObject) : SessionGen :=
  .yield (.event ⟨.sessionStarted, env.aggregateId, started⟩) fun
    | .send _ => generate raised env .initial msgs
    | .throw error => .raise error

end Generator

/-- What an acceptance directly follows: its request, taken from the queue, the
proposal made of it, and the verdict that allows it. -/
def Allowed (stretch : SessionTrace) : Observation SessionAction Yielded Resumption → Prop
  | .acted (.wrote reqId decision) =>
      decision ≠ .decline → ∃ msg proposal result,
        stretch = [.acted (.took msg), .yielded (.proposal proposal),
          .sent (.send (some result))] ∧
        isApproval msg = true ∧ requestIdOf msg = some reqId ∧ result.isError = false ∧
        decision = approvalResponse result
  | _ => True

/-! ### Verdicts -/

theorem approvalResponse_of_isError {result : ToolResult} (h : result.isError = true) :
    approvalResponse result = .decline := by
  simp only [approvalResponse, h, if_true]

theorem isError_of_accepts {result : ToolResult} (h : approvalResponse result ≠ .decline) :
    result.isError = false := by
  cases herror : result.isError with
  | true => exact absurd (approvalResponse_of_isError herror) h
  | false => rfl

section Answers

variable {env : SessionEnv} {s : Session}

/-- With no approval pending, the answer to a proposal is one response to its
own request, with the decision of its own verdict, or nothing. -/
theorem writtenSince_of_answer {proposal : ToolUseProposal} {result : ToolResult}
    {serverReqId : Json} {answered : Session} (hpending : s.pendingApprovals = [])
    (h : (s.propose proposal serverReqId).answerProposal env proposal result serverReqId =
      some answered) :
    answered.pendingApprovals = [] ∧
      answered.writtenSince s =
        (requestId? serverReqId).toList.map (.wrote · (approvalResponse result)) := by
  refine ⟨(answer_of_proposal hpending h).1, ?_⟩
  unfold Session.answerProposal Session.propose at h
  cases hid : requestId? serverReqId with
  | none =>
      simp only [hid, hpending, Dict.get?_nil, Option.or_none] at h
      rw [← Option.some.inj h]
      simp [Session.writtenSince]
  | some reqId =>
      simp only [hid, hpending, Dict.set, Dict.get?_cons, if_true, Option.some_or] at h
      split at h
      · rw [← Option.some.inj h]
        simp [Session.writtenSince]
      · cases h

end Answers

section Trace

variable {raised : JsonObject → PyError} {env : SessionEnv}

/-- One message: what is written for a proposal is justified by the three
entries in front of it. -/
theorem follows_answer {msg : JsonObject} {proposal : ToolUseProposal}
    {verdict : Option ToolResult} (happroval : isApproval msg = true) :
    Follows Allowed
      ([.acted (.took msg), .yielded (.proposal proposal), .sent (.send verdict)] ++
        ((requestIdOf msg).toList.map (SessionAction.wrote · (approvalResponse
          (verdict.getD ⟨proposal.toolUseId, .str "no decision supplied", true⟩)))).map
          Observation.acted : SessionTrace) := by
  have hverdict : Follows Allowed
      ([.acted (.took msg), .yielded (.proposal proposal), .sent (.send verdict)] :
        SessionTrace) :=
    follows_cons trivial (follows_cons trivial (follows_cons trivial follows_nil))
  cases hid : requestIdOf msg with
  | none => simpa using hverdict
  | some reqId =>
      refine follows_snoc hverdict ?_
      intro haccepts
      cases verdict with
      | none => exact absurd rfl haccepts
      | some result =>
          exact ⟨msg, proposal, result, rfl, happroval, hid, isError_of_accepts haccepts, rfl⟩

theorem follows_generate (caller : AdapterCaller) (seen : List Yielded) (s : Session)
    (msgs : List JsonObject) (hpending : s.pendingApprovals = []) :
    Follows Allowed ((generate raised env s msgs).trace caller seen) := by
  induction msgs generalizing seen s with
  | nil => exact follows_nil
  | cons msg rest ih =>
      unfold generate
      rw [Coroutine.trace_act]
      cases htranslate : translate env.boundary env.aggregateId (env.mint s.proposals) msg with
      | none => exact follows_cons trivial follows_nil
      | some translated =>
          rcases translate_cases htranslate with ⟨-, -, event, rfl⟩ |
            ⟨-, happroval, proposal, -, rfl⟩ | ⟨-, -, rfl | ⟨event, rfl⟩⟩
          · -- the last event of the turn
            refine follows_cons trivial ?_
            cases hanswer : caller seen (.event event) with
            | none =>
                rw [Coroutine.trace_yield_none _ hanswer]
                exact follows_cons trivial follows_nil
            | some answer =>
                rw [Coroutine.trace_yield_some _ hanswer]
                cases answer <;>
                  exact follows_cons trivial (follows_cons trivial follows_nil)
          · -- a proposal, and what the caller makes of it
            cases hanswer : caller seen (.proposal proposal) with
            | none =>
                rw [Coroutine.trace_yield_none _ hanswer]
                exact follows_cons trivial (follows_cons trivial follows_nil)
            | some answer =>
                rw [Coroutine.trace_yield_some _ hanswer]
                cases answer with
                | throw error =>
                    exact follows_cons trivial (follows_cons trivial
                      (follows_cons trivial follows_nil))
                | send verdict =>
                    simp only
                    split
                    · rename_i answered hanswered
                      obtain ⟨hnext, hwritten⟩ := writtenSince_of_answer hpending hanswered
                      rw [Coroutine.trace_actAll, hwritten, requestId?_getD]
                      exact follows_append (follows_answer happroval)
                        (ih (seen ++ [.proposal proposal]) answered hnext)
                    · exact follows_cons trivial (follows_cons trivial
                        (follows_cons trivial follows_nil))
          · exact follows_cons trivial (ih seen s hpending)
          · -- an event that is passed on
            refine follows_cons trivial ?_
            cases hanswer : caller seen (.event event) with
            | none =>
                rw [Coroutine.trace_yield_none _ hanswer]
                exact follows_cons trivial follows_nil
            | some answer =>
                rw [Coroutine.trace_yield_some _ hanswer]
                cases answer with
                | throw error =>
                    exact follows_cons trivial (follows_cons trivial follows_nil)
                | send verdict =>
                    exact follows_cons trivial (follows_cons trivial (ih _ _ hpending))

theorem follows_spawnAgent (raised : JsonObject → PyError) (env : SessionEnv)
    (caller : AdapterCaller) (started : JsonObject) (msgs : List JsonObject) :
    Follows Allowed ((spawnAgent raised env started msgs).trace caller []) := by
  unfold spawnAgent
  cases hanswer : caller [] (.event ⟨.sessionStarted, env.aggregateId, started⟩) with
  | none =>
      rw [Coroutine.trace_yield_none _ hanswer]
      exact follows_cons trivial follows_nil
  | some answer =>
      rw [Coroutine.trace_yield_some _ hanswer]
      cases answer with
      | throw error => exact follows_cons trivial (follows_cons trivial follows_nil)
      | send verdict =>
          exact follows_cons trivial (follows_cons trivial
            (follows_generate caller _ .initial msgs rfl))

/-- Every acceptance a session writes carries the id of an approval request
and directly follows the result, no error, with which the caller resumed the
proposal of that request. Driven by the bridge with its default settings, a
session writes no acceptance at all. -/
theorem acceptances_allowed (raised : JsonObject → PyError) (env : SessionEnv)
    (started : JsonObject) (msgs : List JsonObject) :
    (∀ (caller : AdapterCaller) before reqId decision after,
      (spawnAgent raised env started msgs).trace caller [] =
        before ++ .acted (.wrote reqId decision) :: after →
      decision ≠ .decline →
      ∃ earlier msg proposal result,
        before = earlier ++ [.acted (.took msg), .yielded (.proposal proposal),
          .sent (.send (some result))] ∧
        isApproval msg = true ∧ requestIdOf msg = some reqId ∧ result.isError = false) ∧
    ∀ inner adapterId strPayload reprError reprText handleId reqId decision,
      .acted (.wrote reqId decision) ∈ (spawnAgent raised env started msgs).trace
        (Bridge.wrapping inner adapterId strPayload reprError reprText handleId).caller [] →
      decision = .decline := by
  have hall (caller : AdapterCaller) := follows_spawnAgent raised env caller started msgs
  constructor
  · intro caller before reqId decision after htrace haccepts
    obtain ⟨earlier, stretch, rfl, hallowed⟩ := hall caller before _ after htrace
    obtain ⟨msg, proposal, result, rfl, happroval, hid, herror, -⟩ := hallowed haccepts
    exact ⟨earlier, msg, proposal, result, rfl, happroval, hid, herror⟩
  · intro inner adapterId strPayload reprError reprText handleId reqId decision hwrote
    obtain ⟨before, after, htrace⟩ := List.append_of_mem hwrote
    by_contra haccepts
    obtain ⟨earlier, stretch, rfl, hallowed⟩ := hall _ before _ after htrace
    obtain ⟨msg, proposal, result, rfl, -, -, herror, -⟩ := hallowed haccepts
    -- the result answers that proposal, and the bridge answers with errors
    simp only [List.append_assoc, List.cons_append, List.nil_append] at htrace
    rw [List.append_cons] at htrace
    obtain ⟨seen, hanswer⟩ := Coroutine.caller_of_trace htrace
    rw [Bridge.caller_wrapping] at hanswer
    obtain rfl := Option.some.inj (Resumption.send.inj (Option.some.inj hanswer))
    cases herror

end Trace

/-! ### The session and its generator -/

/-- The caller that resumes every proposal as the environment has it. -/
def SessionEnv.caller (env : SessionEnv) : AdapterCaller := fun seen event =>
  match event with
  | .proposal _ => some (.send (env.verdict (seen.countP Yielded.isProposal)))
  | .event _ => some (.send none)

def writtenIn (trace : SessionTrace) : List (RequestId × Decision) :=
  trace.filterMap fun
    | .acted (.wrote reqId decision) => some (reqId, decision)
    | _ => none

theorem answered_of_answer {env : SessionEnv} {s answered : Session}
    {proposal : ToolUseProposal} {result : ToolResult} {serverReqId : Json}
    (h : s.answerProposal env proposal result serverReqId = some answered) :
    answered.proposals = s.proposals ∧ s.written <+: answered.written := by
  unfold Session.answerProposal at h
  split at h
  · obtain rfl := Option.some.inj h
    exact ⟨rfl, List.prefix_rfl⟩
  · split at h
    · obtain rfl := Option.some.inj h
      exact ⟨rfl, List.prefix_append ..⟩
    · cases h

theorem written_of_prefix {s answered : Session} (h : s.written <+: answered.written) :
    answered.written =
      s.written ++ writtenIn ((answered.writtenSince s).map Observation.acted) := by
  obtain ⟨responses, hresponses⟩ := h
  simp [Session.writtenSince, writtenIn, ← hresponses]

/-- A caller that resumes every proposal makes the generator write what the
session writes. -/
theorem written_consume (raised : JsonObject → PyError) (env : SessionEnv) (s : Session)
    (msgs : List JsonObject) (seen : List Yielded)
    (hseen : seen.countP Yielded.isProposal = s.proposals) :
    (s.consume env msgs).2.written =
      s.written ++ writtenIn ((generate raised env s msgs).trace env.caller seen) := by
  induction msgs generalizing s seen with
  | nil => simp [Session.consume, generate, writtenIn]
  | cons msg rest ih =>
      unfold Session.consume generate
      rw [Coroutine.trace_act]
      cases htranslate : translate env.boundary env.aggregateId (env.mint s.proposals) msg with
      | none => simp [writtenIn]
      | some translated =>
          cases translated with
          | skip => exact ih s seen hseen
          | event event =>
              have hcaller : env.caller seen (.event event) = some (.send none) := rfl
              rw [Coroutine.trace_yield_some _ hcaller]
              exact ih { s with yielded := s.yielded ++ [.event event] } _
                (by simpa [Yielded.isProposal] using hseen)
          | last event =>
              have hcaller : env.caller seen (.event event) = some (.send none) := rfl
              rw [Coroutine.trace_yield_some _ hcaller]
              simp [writtenIn]
          | proposal proposal serverReqId =>
              have hcaller : env.caller seen (.proposal proposal) =
                  some (.send (env.verdict s.proposals)) := by
                simp only [SessionEnv.caller, hseen]
              rw [Coroutine.trace_yield_some _ hcaller]
              simp only [Session.verdictOn]
              cases hanswer : (s.propose proposal serverReqId).answerProposal env proposal
                  ((env.verdict s.proposals).getD
                    ⟨proposal.toolUseId, .str "no decision supplied", true⟩) serverReqId with
              | none => simp [writtenIn, Session.propose]
              | some answered =>
                  obtain ⟨hproposals, hprefix⟩ := answered_of_answer hanswer
                  have hrest := ih answered (seen ++ [.proposal proposal])
                    (by rw [List.countP_append, hseen, hproposals]; rfl)
                  simp only
                  rw [Coroutine.trace_actAll, hrest, written_of_prefix hprefix,
                    List.append_assoc]
                  simp only [writtenIn, ← List.filterMap_append]
                  rfl

end CodexSession

end ForgeOS
