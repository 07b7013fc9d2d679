import ForgeOS.Adapters.OpenCodeRequests
import Mathlib.Data.List.Nodup

/-!
The back channel of the OpenCode adapter. A request of the proxy leaves its
future with the session under its call id before the proposal is queued, and the
generator, the timeout and the end of the run each take the future from there.
As long as the call ids on a run are distinct, whatever pops an entry pops that
of its own request: a result goes to the request it was resumed for, and the end
of the drain loop leaves no future behind.
-/

namespace ForgeOS

open Library

namespace OpenCode

/-! ### What a request holds -/

namespace ProposeRequest

variable {ρ : Type}

/-- What a request may be answered with: the content of a result resumed for its
own call id, or an error. -/
def AnsweredWith (dumps : Json → String) (resumed : List ToolResult)
    (request : ProposeRequest ρ) (response : HttpResponse) : Prop :=
  (∃ result ∈ resumed, result.toolUseId = request.callId ∧ response = respond dumps result) ∨
    ∃ status error, 400 ≤ status ∧ response = ⟨status, [("error", .str error)]⟩

/-- A request on a run for which the generator has been resumed with these
results. -/
structure Sound (dumps : Json → String) (resumed : List ToolResult)
    (request : ProposeRequest ρ) : Prop where
  delivered : ∀ result, request.future = some (.result result) →
    result ∈ resumed ∧ result.toolUseId = request.callId
  answered : ∀ response, request.answer = some response →
    request.AnsweredWith dumps resumed response

namespace Sound

variable {dumps : Json → String} {resumed later : List ToolResult} {request : ProposeRequest ρ}

theorem mono (h : request.Sound dumps resumed) (hresumed : resumed ⊆ later) :
    request.Sound dumps later where
  delivered result hresult :=
    ⟨hresumed (h.delivered result hresult).1, (h.delivered result hresult).2⟩
  answered response hresponse := by
    rcases h.answered response hresponse with ⟨result, hresult, hanswer⟩ | herror
    · exact Or.inl ⟨result, hresumed hresult, hanswer⟩
    · exact Or.inr herror

theorem settle (h : request.Sound dumps resumed) {future : McpFuture}
    (hfuture : ∀ result, future = .result result →
      result ∈ resumed ∧ result.toolUseId = request.callId) :
    (request.settle future).Sound dumps resumed where
  delivered result hresult := by
    rw [settle_callId]
    rcases request.settle_future future with ⟨-, hthen⟩ | ⟨-, hthen⟩
    · exact hfuture result (Option.some.inj (hthen.symm.trans hresult))
    · exact h.delivered result (hthen.symm.trans hresult)
  answered response hresponse := by
    rw [settle_answer] at hresponse
    unfold AnsweredWith
    rw [settle_callId]
    exact h.answered response hresponse

theorem expire (h : request.Sound dumps resumed) : request.expire.Sound dumps resumed where
  delivered result hresult := by
    refine h.delivered result ?_
    revert hresult
    unfold ProposeRequest.expire
    cases request.future with
    | none => exact id
    | some future => cases future <;> simp
  answered response hresponse := by
    obtain rfl := Option.some.inj hresponse
    exact Or.inr ⟨504, _, by decide, rfl⟩

theorem answer (h : request.Sound dumps resumed) {response : HttpResponse}
    (hresponse : request.AnsweredWith dumps resumed response) :
    { request with answer := some response }.Sound dumps resumed where
  delivered := h.delivered
  answered _ hother := Option.some.inj hother ▸ hresponse

end Sound

end ProposeRequest

/-! ### The moves of a run -/

def Item.mcpCall : Item → Option String
  | .mcp proposal => some proposal.toolUseId
  | _ => none

namespace AgentRun

variable {ι : Type}

/-- The call id of the proposal of the proxy at which the generator is paused. -/
def pausedCall (run : AgentRun ι) : List String :=
  match run.phase with
  | .paused item => item.mcpCall.toList
  | _ => []

/-- The call ids of the proposals of the proxy: those resumed, paused at, and
still queued. -/
def proxied (run : AgentRun ι) : List String :=
  run.resumed.map ToolResult.toolUseId ++
    (run.pausedCall ++ run.eventsQ.filterMap Item.mcpCall)

/-- The generator has finished through the drain loop. -/
def Drained (run : AgentRun ι) : Prop := ∃ ending, run.phase = .ended true ending

/-- What a step of the run alone can do to it. -/
structure Moves (run next : AgentRun ι) : Prop where
  aggregateId : next.aggregateId = run.aggregateId
  pendingMcp : next.pendingMcp = run.pendingMcp
  resumed : next.resumed = run.resumed
  drained : next.Drained → run.Drained
  proxied : next.proxied.Sublist run.proxied

/-- What any step keeps of a run whose drain loop goes on. -/
structure Keeps (run next : AgentRun ι) : Prop where
  aggregateId : next.aggregateId = run.aggregateId
  entries : ∀ callId i, next.pendingMcp callId = some i → run.pendingMcp callId = some i
  resumed : run.resumed ⊆ next.resumed
  drained : next.Drained → run.Drained

theorem Keeps.refl (run : AgentRun ι) : run.Keeps run := ⟨rfl, fun _ _ => id, fun _ => id, id⟩

theorem Keeps.trans {run next last : AgentRun ι} (h : run.Keeps next) (h' : next.Keeps last) :
    run.Keeps last where
  aggregateId := h'.aggregateId.trans h.aggregateId
  entries callId i hentry := h.entries callId i (h'.entries callId i hentry)
  resumed := List.Subset.trans h.resumed h'.resumed
  drained hdrained := h.drained (h'.drained hdrained)

theorem resumed_keeps (run : AgentRun ι) (result : ToolResult) :
    run.Keeps { run with phase := .draining, resumed := run.resumed ++ [result] } where
  aggregateId := rfl
  entries _ _ := id
  resumed := List.subset_append_left _ _
  drained := fun ⟨_, h⟩ => nomatch h

theorem Moves.keeps {run next : AgentRun ι} (h : run.Moves next) : run.Keeps next where
  aggregateId := h.aggregateId
  entries _ _ hentry := h.pendingMcp ▸ hentry
  resumed := h.resumed ▸ List.Subset.refl _
  drained := h.drained

/-- Popping an entry leaves the others. -/
theorem pop_keeps (run : AgentRun ι) (callId : String) : run.Keeps (run.pop callId) where
  aggregateId := rfl
  entries _ _ hentry := update_none_eq_some hentry
  resumed := List.Subset.refl _
  drained := id

theorem Keeps.of_rel {before after : Option (AgentRun ι)} (h : Option.Rel Keeps before after)
    {run : AgentRun ι} (hrun : before = some run) : ∃ next, after = some next ∧ run.Keeps next := by
  cases h with
  | none => cases hrun
  | some hkeeps => exact ⟨_, rfl, Option.some.inj hrun ▸ hkeeps⟩

theorem Keeps.rel_of {before after : Option (AgentRun ι)} (h : Option.Rel Keeps before after)
    {next : AgentRun ι} (hnext : after = some next) :
    ∃ run, before = some run ∧ run.Keeps next := by
  cases h with
  | none => cases hnext
  | some hkeeps => exact ⟨_, rfl, Option.some.inj hnext ▸ hkeeps⟩

theorem Moves.refl (run : AgentRun ι) : run.Moves run := ⟨rfl, rfl, rfl, id, .refl _⟩

/-- Outside the yields of the drain loop a proposal paused at is gone. -/
theorem proxied_phase (run : AgentRun ι) (sessionId : String) (sse : SseTask) {phase : RunPhase}
    (hpaused : ∀ item, phase ≠ .paused item) :
    { run with phase, sessionId, sse }.proxied.Sublist run.proxied := by
  have hcall : { run with phase, sessionId, sse }.pausedCall = [] := by
    unfold pausedCall
    split
    · rename_i item hphase
      exact absurd hphase (hpaused item)
    · rfl
  unfold proxied
  rw [hcall, List.nil_append]
  exact .append (.refl _) (List.sublist_append_right _ _)

/-- A phase that is neither paused nor drained. -/
theorem Moves.phase (run : AgentRun ι) (sessionId : String) (sse : SseTask) {phase : RunPhase}
    (hpaused : ∀ item, phase ≠ .paused item) (hdrained : ∀ ending, phase ≠ .ended true ending) :
    run.Moves { run with phase, sessionId, sse } where
  aggregateId := rfl
  pendingMcp := rfl
  resumed := rfl
  drained := fun ⟨ending, h⟩ => absurd h (hdrained ending)
  proxied := run.proxied_phase sessionId sse hpaused

theorem abort_moves (run : AgentRun ι) (ending : Ending) : run.Moves (run.abort ending) :=
  .phase run run.sessionId run.sse nofun nofun

theorem leave_moves (run : AgentRun ι) (ending : Ending) : run.Moves (run.leave ending) :=
  .phase run run.sessionId _ nofun nofun

/-- The event stream queues no proposal of the proxy. -/
theorem queue_moves (run : AgentRun ι) (sse : SseTask) {items : List Item}
    (hitems : items.filterMap Item.mcpCall = []) :
    run.Moves { run with eventsQ := run.eventsQ ++ items, sse } where
  aggregateId := rfl
  pendingMcp := rfl
  resumed := rfl
  drained := id
  proxied := by
    unfold AgentRun.proxied
    rw [List.filterMap_append, hitems, List.append_nil]
    exact .refl _

theorem take_moves (run : AgentRun ι) : run.Moves run.take := by
  unfold take
  split
  · rename_i item rest hphase hqueue
    refine ⟨rfl, rfl, rfl, fun ⟨_, h⟩ => (nomatch h), ?_⟩
    have hbefore : run.pausedCall = [] := by
      unfold pausedCall
      rw [hphase]
    unfold proxied
    rw [hbefore, hqueue]
    cases hcall : item.mcpCall <;> simp [pausedCall, hcall]
  · exact .refl run

theorem step_moves (run : AgentRun ι) (k : RunStep) : run.Moves (run.step k) := by
  cases k with
  | created sessionId =>
      simp only [step, created]
      split
      · exact .phase run sessionId run.sse nofun nofun
      · exact .refl run
  | noSessionId =>
      simp only [step, noSessionId]
      split
      · exact abort_moves run _
      · exact .refl run
  | close =>
      simp only [step, close]
      split
      · exact abort_moves run _
      · exact leave_moves run _
      · exact leave_moves run _
      · exact .refl run
  | promptSubmitted =>
      simp only [step, promptSubmitted]
      split
      · exact .phase run run.sessionId run.sse nofun nofun
      · exact .refl run
  | promptFails error =>
      simp only [step, promptFails]
      split
      · exact abort_moves run _
      · exact .refl run
  | streamed output =>
      simp only [step, streamed]
      split
      · cases output with
        | event event => exact queue_moves run run.sse rfl
        | permission proposal permissionId => exact queue_moves run run.sse rfl
        | terminal event => exact queue_moves run .done rfl
      · exact .refl run
  | streamEnds =>
      simp only [step, streamEnds]
      split
      · exact ⟨rfl, rfl, rfl, id, .refl _⟩
      · exact .refl run
  | take => exact take_moves run
  | timeout =>
      simp only [step, timeout]
      split
      · exact .phase run run.sessionId run.sse nofun nofun
      · exact .refl run
  | responded =>
      simp only [step, responded]
      split
      · exact .phase run run.sessionId run.sse nofun nofun
      · exact .refl run
  | respondFails error =>
      simp only [step, respondFails]
      split
      · exact leave_moves run _
      · exact .refl run
  | interrupt =>
      simp only [step, interrupt]
      split
      · exact abort_moves run _
      · exact abort_moves run _
      · exact leave_moves run _
      · exact leave_moves run _
      · exact .refl run

theorem resume_moves {run next : AgentRun ι} {sent : Option ToolResult}
    (h : run.resume sent = (next, none)) : run.Moves next := by
  have hleave {ending : Ending} (hnext : (run.leave ending, (none : Option ToolResult)) =
      (next, none)) : run.Moves next := (Prod.mk.inj hnext).1 ▸ leave_moves run ending
  have hdraining (hnext : ({ run with phase := .draining }, (none : Option ToolResult)) =
      (next, none)) : run.Moves next :=
    (Prod.mk.inj hnext).1 ▸ .phase run run.sessionId run.sse nofun nofun
  unfold resume at h
  split at h
  · exact (Prod.mk.inj h).1 ▸ .phase run run.sessionId .running nofun nofun
  · exact hleave h
  · split at h
    · exact hleave h
    · exact hdraining h
  · split at h
    · exact hleave h
    · split at h
      · exact hdraining h
      · exact (Prod.mk.inj h).1 ▸ .phase run run.sessionId run.sse nofun nofun
  · split at h
    · exact hleave h
    · cases h
  · exact hleave h
  · exact (Prod.mk.inj h).1 ▸ .refl run

theorem verdict_ok {toolUseId : String} {sent : Option ToolResult} {result : ToolResult}
    (h : verdict toolUseId sent = .ok result) : result.toolUseId = toolUseId := by
  unfold verdict at h
  split at h
  · cases h
  · split at h
    · cases h
    · rename_i hid
      exact Except.ok.inj h ▸ not_not.mp hid

/-- A result that is handed on has the call id of the proposal paused at. -/
theorem resume_result {run next : AgentRun ι} {sent : Option ToolResult} {result : ToolResult}
    (h : run.resume sent = (next, some result)) :
    next = { run with phase := .draining, resumed := run.resumed ++ [result] } ∧
      run.pausedCall = [result.toolUseId] := by
  unfold resume at h
  split at h
  · cases h
  · cases h
  · split at h <;> cases h
  · split at h
    · cases h
    · split at h <;> cases h
  · rename_i proposal hphase
    split at h
    · cases h
    · rename_i accepted hverdict
      obtain ⟨rfl, hresult⟩ := Prod.mk.inj h
      obtain rfl := Option.some.inj hresult
      refine ⟨rfl, ?_⟩
      unfold pausedCall
      rw [hphase, verdict_ok hverdict]
      rfl
  · cases h
  · cases h

/-- A resumed proposal stays one of those on the run. -/
theorem proxied_resumed {run : AgentRun ι} {result : ToolResult}
    (hpaused : run.pausedCall = [result.toolUseId]) :
    { run with phase := .draining, resumed := run.resumed ++ [result] }.proxied =
      run.proxied := by
  unfold proxied
  rw [hpaused]
  simp [pausedCall]

end AgentRun

end OpenCode

open OpenCode

namespace OpenCodeAdapter

variable {ρ ι : Type} {s : OpenCodeAdapter ρ ι}

open ProposeRequest (Progress)

/-! ### Sessions, entries and requests -/

/-- A request that has been accepted for a run. -/
def Received (s : OpenCodeAdapter ρ ι) (r : ρ) (i : ι) (request : ProposeRequest ρ) : Prop :=
  s.requests i = some request ∧ request.run = some r

/-- A run that ends fails the requests that stand under their call id, and those
only. -/
theorem failPending_received [DecidableEq ι] {ends : ρ → Bool} (message : String) {r : ρ}
    {run : AgentRun ι} {i : ι} {request : ProposeRequest ρ} (hends : ends r = true)
    (hrun : s.runs r = some run) (hreceived : s.Received r i request) :
    s.failPending ends message i =
      some (if run.pendingMcp request.callId = some i then request.fail message else request) := by
  unfold failPending
  rw [hreceived.1, Option.map_some, hreceived.2]
  simp [hends, hrun]

/-- The runs that are registered have not finished, what stands in `pending_mcp`
is a request under its own call id, and what the requests hold is theirs. -/
structure Consistent (dumps : Json → String) (s : OpenCodeAdapter ρ ι) : Prop where
  registered : ∀ id r, s.sessions id = some r →
    ∃ run, s.runs r = some run ∧ run.aggregateId = id ∧ ¬run.Drained
  entries : ∀ r run callId i, s.runs r = some run → run.pendingMcp callId = some i →
    ∃ request, s.Received r i request ∧ request.callId = callId
  requests : ∀ r i request, s.Received r i request →
    ∃ run, s.runs r = some run ∧ request.Sound dumps run.resumed

namespace Consistent

variable {dumps : Json → String} {t : OpenCodeAdapter ρ ι}

theorem of_sessions (h : s.Consistent dumps) (hruns : t.runs = s.runs)
    (hrequests : t.requests = s.requests)
    (hsessions : ∀ id r, t.sessions id = some r → s.sessions id = some r) : t.Consistent dumps where
  registered id r hid := hruns ▸ h.registered id r (hsessions id r hid)
  entries r run callId i hrun hentry := by
    rw [hruns] at hrun
    obtain ⟨request, hreceived, hcall⟩ := h.entries r run callId i hrun hentry
    exact ⟨request, ⟨hrequests ▸ hreceived.1, hreceived.2⟩, hcall⟩
  requests r i request hreceived := by
    rw [hruns]
    exact h.requests r i request ⟨hrequests ▸ hreceived.1, hreceived.2⟩

theorem of_runs (h : s.Consistent dumps) (hsessions : t.sessions = s.sessions)
    (hrequests : t.requests = s.requests)
    (hruns : ∀ r, Option.Rel AgentRun.Keeps (s.runs r) (t.runs r)) : t.Consistent dumps where
  registered id r hid := by
    rw [hsessions] at hid
    obtain ⟨run, hrun, haggregate, hdrained⟩ := h.registered id r hid
    obtain ⟨next, hnext, hkeeps⟩ := AgentRun.Keeps.of_rel (hruns r) hrun
    exact ⟨next, hnext, hkeeps.aggregateId.trans haggregate,
      fun hover => hdrained (hkeeps.drained hover)⟩
  entries r next callId i hnext hentry := by
    obtain ⟨run, hrun, hkeeps⟩ := AgentRun.Keeps.rel_of (hruns r) hnext
    obtain ⟨request, hreceived, hcall⟩ :=
      h.entries r run callId i hrun (hkeeps.entries callId i hentry)
    exact ⟨request, ⟨hrequests ▸ hreceived.1, hreceived.2⟩, hcall⟩
  requests r i request hreceived := by
    obtain ⟨run, hrun, hsound⟩ := h.requests r i request ⟨hrequests ▸ hreceived.1, hreceived.2⟩
    obtain ⟨next, hnext, hkeeps⟩ := AgentRun.Keeps.of_rel (hruns r) hrun
    exact ⟨next, hnext, hsound.mono hkeeps.resumed⟩

theorem of_requests (h : s.Consistent dumps) (hsessions : t.sessions = s.sessions)
    (hruns : t.runs = s.runs)
    (hprogress : ∀ i request, s.requests i = some request →
      ∃ next, t.requests i = some next ∧ Progress request next)
    (hsound : ∀ r i next, t.Received r i next → ∃ request, s.Received r i request ∧
      ∀ run, s.runs r = some run → request.Sound dumps run.resumed →
        next.Sound dumps run.resumed) : t.Consistent dumps where
  registered id r hid := by
    rw [hsessions] at hid
    rw [hruns]
    exact h.registered id r hid
  entries r run callId i hrun hentry := by
    rw [hruns] at hrun
    obtain ⟨request, hreceived, hcall⟩ := h.entries r run callId i hrun hentry
    obtain ⟨next, hnext, hstep⟩ := hprogress i request hreceived.1
    exact ⟨next, ⟨hnext, hstep.run.trans hreceived.2⟩, hstep.callId.trans hcall⟩
  requests r i next hnext := by
    obtain ⟨request, hrequest, hkept⟩ := hsound r i next hnext
    obtain ⟨run, hrun, hbefore⟩ := h.requests r i request hrequest
    exact ⟨run, (congrFun hruns r).trans hrun, hkept run hrun hbefore⟩

section Runs

variable [DecidableEq ρ]

theorem setRun (h : s.Consistent dumps) {r : ρ} {run next : AgentRun ι}
    (hrun : s.runs r = some run) (hkeeps : run.Keeps next) :
    (s.setRun r next).Consistent dumps := by
  refine h.of_runs rfl rfl fun other => ?_
  by_cases hother : other = r
  · subst hother
    rw [hrun, setRun_self]
    exact .some hkeeps
  · rw [setRun_of_ne hother]
    cases s.runs other with
    | none => exact .none
    | some run => exact .some (.refl run)

theorem modify (h : s.Consistent dumps) (r : ρ) {f : AgentRun ι → AgentRun ι}
    (hkeeps : ∀ run : AgentRun ι, run.Keeps (f run)) : (s.modify r f).Consistent dumps := by
  unfold OpenCodeAdapter.modify
  split
  · rename_i run hrun
    exact h.setRun hrun (hkeeps run)
  · exact h

theorem popRequest (h : s.Consistent dumps) (request : ProposeRequest ρ) :
    (s.popRequest request).Consistent dumps := by
  unfold OpenCodeAdapter.popRequest
  split
  · exact h.modify _ fun run => run.pop_keeps _
  · exact h

theorem start (h : s.Consistent dumps) (r : ρ) (aggregateId : String) :
    (s.start r aggregateId).Consistent dumps := by
  unfold OpenCodeAdapter.start
  split
  · rename_i hnew
    have hother {other : ρ} {run : AgentRun ι} (hrun : s.runs other = some run) :
        (s.setRun r (.initial aggregateId)).runs other = some run := by
      rw [setRun_of_ne (fun h => by rw [h, hnew] at hrun; cases hrun)]
      exact hrun
    constructor
    case registered =>
      intro id other hid
      rcases update_eq_some hid with ⟨rfl, hsame⟩ | ⟨-, hbefore⟩
      · obtain rfl := Option.some.inj hsame
        exact ⟨.initial id, setRun_self .., rfl, fun ⟨_, h⟩ => nomatch h⟩
      · obtain ⟨run, hrun, hregistered⟩ := h.registered id other hbefore
        exact ⟨run, hother hrun, hregistered⟩
    case entries =>
      intro other run callId i hrun hentry
      rcases update_eq_some hrun with ⟨-, hsame⟩ | ⟨-, hbefore⟩
      · obtain rfl := Option.some.inj hsame
        cases hentry
      · exact h.entries other run callId i hbefore hentry
    case requests =>
      intro other i request hreceived
      obtain ⟨run, hrun, hsound⟩ := h.requests other i request hreceived
      exact ⟨run, hother hrun, hsound⟩
  · exact h

theorem createFails (h : s.Consistent dumps) (r : ρ) (raised : Raised) :
    (s.createFails r raised).Consistent dumps := by
  unfold OpenCodeAdapter.createFails
  split
  · rename_i run hrun
    split
    · refine (h.setRun hrun (run.abort_moves _).keeps).of_sessions rfl rfl fun id other hid => ?_
      exact update_none_eq_some hid
    · exact h.setRun hrun (run.abort_moves _).keeps
    · exact h
  · exact h

/-- The generator finishes; its registration goes with it. -/
theorem finish (h : s.Consistent dumps) {r : ρ} {run : AgentRun ι} (hrun : s.runs r = some run)
    (ending : Ending) :
    { s.setRun r { run with phase := .ended true ending } with
      sessions := Function.update s.sessions run.aggregateId none }.Consistent dumps where
  registered id other hid := by
    rcases update_eq_some hid with ⟨-, hnone⟩ | ⟨hne, hbefore⟩
    · cases hnone
    · obtain ⟨before, hother, haggregate, hdrained⟩ := h.registered id other hbefore
      refine ⟨before, (setRun_of_ne ?_ _).trans hother, haggregate, hdrained⟩
      rintro rfl
      obtain rfl := Option.some.inj (hrun.symm.trans hother)
      exact hne haggregate.symm
  entries other next callId i hnext hentry := by
    rcases update_eq_some hnext with ⟨rfl, hsame⟩ | ⟨-, hbefore⟩
    · obtain rfl := Option.some.inj hsame
      exact h.entries other run callId i hrun hentry
    · exact h.entries other next callId i hbefore hentry
  requests other i request hreceived := by
    obtain ⟨before, hother, hsound⟩ := h.requests other i request hreceived
    by_cases hsame : other = r
    · subst hsame
      obtain rfl := Option.some.inj (hrun.symm.trans hother)
      exact ⟨_, setRun_self .., hsound⟩
    · exact ⟨before, (setRun_of_ne hsame _).trans hother, hsound⟩

end Runs

section Requests

variable [DecidableEq ι]

/-- One request moves on. -/
theorem setRequest (h : s.Consistent dumps) {i : ι} {request next : ProposeRequest ρ}
    (hrequest : s.requests i = some request) (hprogress : Progress request next)
    (hsound : ∀ r run, request.run = some r → s.runs r = some run →
      request.Sound dumps run.resumed → next.Sound dumps run.resumed) :
    (s.setRequest i next).Consistent dumps := by
  refine h.of_requests rfl rfl (fun j other => setRequest_progress hrequest hprogress) ?_
  rintro r j after ⟨hafter, hrun⟩
  rcases update_eq_some hafter with ⟨rfl, hsame⟩ | ⟨-, hkept⟩
  · obtain rfl := Option.some.inj hsame
    have hreceived : s.Received r j request := ⟨hrequest, hprogress.run.symm.trans hrun⟩
    exact ⟨request, hreceived, fun run => hsound r run hreceived.2⟩
  · exact ⟨after, ⟨hkept, hrun⟩, fun _ _ => id⟩

/-- A request that is refused concerns no run. -/
theorem refuse (h : s.Consistent dumps) {i : ι} (hnew : s.requests i = none) (callId : String)
    (status : Nat) (error : String) :
    (s.setRequest i (.refused callId status error)).Consistent dumps := by
  refine h.of_requests rfl rfl (fun j other => setRequest_new hnew _) ?_
  rintro r j after ⟨hafter, hrun⟩
  rcases update_eq_some hafter with ⟨-, hsame⟩ | ⟨-, hkept⟩
  · obtain rfl := Option.some.inj hsame
    cases hrun
  · exact ⟨after, ⟨hkept, hrun⟩, fun _ _ => id⟩

theorem failPending (h : s.Consistent dumps) (ends : ρ → Bool) (message : String) :
    { s with requests := s.failPending ends message }.Consistent dumps := by
  refine h.of_requests rfl rfl (fun j other => failPending_progress ends message) ?_
  rintro r i next ⟨hnext, hrun⟩
  cases hrequest : s.requests i with
  | none =>
      cases (failPending_none ends message hrequest).symm.trans hnext
  | some request =>
      obtain ⟨after, hafter, hprogress⟩ := failPending_progress ends message hrequest
      obtain rfl : after = next := Option.some.inj (hafter.symm.trans hnext)
      refine ⟨request, ⟨hrequest, hprogress.run.symm.trans hrun⟩, fun run _ hsound => ?_⟩
      rcases failPending_cases ends message hrequest hnext with rfl | rfl
      · exact hsound
      · exact hsound.settle nofun

end Requests

variable [DecidableEq ρ] [DecidableEq ι]

/-- A result goes to the request under whose call id it was resumed. -/
theorem deliver (h : s.Consistent dumps) {r : ρ} {run next : AgentRun ι} {result : ToolResult}
    (hrun : s.runs r = some run) (hkeeps : run.Keeps next) (hresult : result ∈ next.resumed) :
    (s.deliver r next result).Consistent dumps := by
  have hpop : run.Keeps (next.pop result.toolUseId) := hkeeps.trans (next.pop_keeps _)
  have hpopped := h.setRun hrun hpop
  unfold OpenCodeAdapter.deliver
  dsimp only
  split
  · rename_i i hentry
    obtain ⟨request, hreceived, hcall⟩ :=
      h.entries r run result.toolUseId i hrun (hkeeps.entries _ _ hentry)
    rw [hreceived.1]
    refine hpopped.setRequest hreceived.1
      (.settle request (.result result) nofun nofun) ?_
    intro other after hother hafter hsound
    obtain rfl : r = other := Option.some.inj (hreceived.2.symm.trans hother)
    obtain rfl := Option.some.inj ((setRun_self r _).symm.trans hafter)
    refine hsound.settle fun held hheld => ?_
    obtain rfl := McpFuture.result.inj hheld
    exact ⟨hresult, hcall.symm⟩
  · exact hpopped

theorem resume (h : s.Consistent dumps) (r : ρ) (sent : Option ToolResult) :
    (s.resume r sent).Consistent dumps := by
  unfold OpenCodeAdapter.resume
  split
  · rename_i run hrun
    split
    · rename_i next result hresume
      obtain ⟨rfl, -⟩ := AgentRun.resume_result hresume
      exact h.deliver hrun (run.resumed_keeps result) (by simp)
    · rename_i next hresume
      exact h.setRun hrun (AgentRun.resume_moves hresume).keeps
  · exact h

theorem stopped (h : s.Consistent dumps) (r : ρ) : (s.stopped r).Consistent dumps := by
  unfold OpenCodeAdapter.stopped
  split
  · rename_i run hrun
    split
    · rename_i ending _
      exact (h.failPending (· = r) "spawn_agent ended with pending MCP call").finish hrun ending
    · exact h
  · exact h

theorem accept (h : s.Consistent dumps) {r : ρ} {run : AgentRun ι} {i : ι}
    (hrun : s.runs r = some run) (hnew : s.requests i = none) (callId : String)
    (items : List Item) :
    ((s.setRun r { run with
      pendingMcp := Function.update run.pendingMcp callId (some i)
      eventsQ := run.eventsQ ++ items }).setRequest i
        ⟨callId, some r, some .pending, none⟩).Consistent dumps where
  registered id other hid := by
    obtain ⟨before, hother, haggregate, hdrained⟩ := h.registered id other hid
    by_cases hsame : other = r
    · subst hsame
      obtain rfl := Option.some.inj (hrun.symm.trans hother)
      exact ⟨_, setRun_self .., haggregate, hdrained⟩
    · exact ⟨before, (setRun_of_ne hsame _).trans hother, haggregate, hdrained⟩
  entries other next otherCall j hnext hentry := by
    have hkept {before : AgentRun ι} (hbefore : s.runs other = some before)
        (hentry : before.pendingMcp otherCall = some j) :
        ∃ request, ((s.setRun r { run with
          pendingMcp := Function.update run.pendingMcp callId (some i)
          eventsQ := run.eventsQ ++ items }).setRequest i
            ⟨callId, some r, some .pending, none⟩).Received other j request ∧
              request.callId = otherCall := by
      obtain ⟨request, hreceived, hcall⟩ := h.entries other before otherCall j hbefore hentry
      have hj : j ≠ i := fun hj => nomatch (hj ▸ hreceived.1).symm.trans hnew
      exact ⟨request, ⟨(setRequest_of_ne hj _).trans hreceived.1, hreceived.2⟩, hcall⟩
    rcases update_eq_some hnext with ⟨rfl, hsame⟩ | ⟨-, hbefore⟩
    · obtain rfl := Option.some.inj hsame
      rcases update_eq_some hentry with ⟨rfl, hi⟩ | ⟨-, hbefore⟩
      · obtain rfl := Option.some.inj hi
        exact ⟨_, ⟨setRequest_self .., rfl⟩, rfl⟩
      · exact hkept hrun hbefore
    · exact hkept hbefore hentry
  requests other j request hreceived := by
    rcases update_eq_some hreceived.1 with ⟨-, hsame⟩ | ⟨-, hbefore⟩
    · obtain rfl := Option.some.inj hsame
      obtain rfl := Option.some.inj hreceived.2
      exact ⟨_, setRun_self .., nofun, nofun⟩
    · obtain ⟨before, hother, hsound⟩ := h.requests other j request ⟨hbefore, hreceived.2⟩
      by_cases hsame : other = r
      · subst hsame
        obtain rfl := Option.some.inj (hrun.symm.trans hother)
        exact ⟨_, setRun_self .., hsound⟩
      · exact ⟨before, (setRun_of_ne hsame _).trans hother, hsound⟩

theorem arrive (h : s.Consistent dumps) (i : ι) (body : ProposeBody) :
    (s.arrive i body).Consistent dumps := by
  unfold OpenCodeAdapter.arrive
  split
  · exact h
  · rename_i hnew
    split
    · exact h.refuse hnew ..
    · split
      · exact h.refuse hnew ..
      · split
        · exact h
        · rename_i hrun
          exact h.accept hrun hnew body.callId [.mcp body.proposal]

theorem wake (h : s.Consistent dumps) (reprMessage : String → String) (i : ι) :
    (s.wake dumps reprMessage i).Consistent dumps := by
  unfold OpenCodeAdapter.wake
  split
  · rename_i request hrequest
    split
    · rename_i result hanswer hfuture
      refine h.setRequest hrequest (.answer request hanswer _) fun r run _ _ hsound => ?_
      obtain ⟨hresumed, hcall⟩ := hsound.delivered result hfuture
      exact hsound.answer (Or.inl ⟨result, hresumed, hcall, rfl⟩)
    · rename_i message hanswer hfuture
      refine (h.popRequest request).setRequest
        ((congrFun (popRequest_requests request) i).trans hrequest)
        (.answer request hanswer _) fun r run _ _ hsound => ?_
      exact hsound.answer (Or.inr ⟨500, _, by decide, rfl⟩)
    · exact h
  · exact h

theorem expire (h : s.Consistent dumps) (i : ι) : (s.expire i).Consistent dumps := by
  unfold OpenCodeAdapter.expire
  split
  · rename_i request hrequest
    split
    · rename_i hanswer _
      exact (h.popRequest request).setRequest
        ((congrFun (popRequest_requests request) i).trans hrequest)
        (.expire request hanswer) fun r run _ _ hsound => hsound.expire
    · exact h
  · exact h

theorem shutdown (h : s.Consistent dumps) : s.shutdown.Consistent dumps := by
  have hcleared (r : ρ) : Option.Rel AgentRun.Keeps (s.runs r) (s.shutdown.runs r) := by
    unfold OpenCodeAdapter.shutdown
    dsimp only
    cases s.runs r with
    | none => exact .none
    | some run =>
        refine .some ?_
        dsimp only
        split
        · exact ⟨rfl, nofun, List.Subset.refl _, id⟩
        · exact .refl run
  have hruns : { s with
      runs := s.shutdown.runs
      requests := s.shutdown.requests }.Consistent dumps :=
    (h.failPending _ _).of_runs rfl rfl hcleared
  exact hruns.of_sessions rfl rfl nofun

theorem step (h : s.Consistent dumps) (reprMessage : String → String) (k : AdapterStep ρ ι) :
    (s.step dumps reprMessage k).Consistent dumps := by
  cases k with
  | start r aggregateId => exact h.start r aggregateId
  | createFails r raised => exact h.createFails r raised
  | within r k => exact h.modify r fun run => (run.step_moves k).keeps
  | resume r sent => exact h.resume r sent
  | stopped r => exact h.stopped r
  | arrive i body => exact h.arrive i body
  | malformed i detail =>
      simp only [OpenCodeAdapter.step, malformed]
      split
      · exact h
      · rename_i hnew
        exact h.refuse hnew ..
  | wake i => exact h.wake reprMessage i
  | expire i => exact h.expire i
  | shutdown => exact h.shutdown

end Consistent

theorem consistent_initial (dumps : Json → String) :
    (initial : OpenCodeAdapter ρ ι).Consistent dumps where
  registered := nofun
  entries := nofun
  requests := fun _ _ _ h => nomatch h.1

end OpenCodeAdapter

end ForgeOS
