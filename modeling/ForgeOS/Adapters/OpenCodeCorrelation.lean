import ForgeOS.Adapters.OpenCodeChannel

/-!
Requests of one run under distinct call ids. A future that is pending stands in
`pending_mcp` under the call id of its request, since no other request of the run
pops that entry; and each proposal of the proxy is resumed at most once. With
what `Consistent` says this gives the correlation of the back channel.
-/

namespace ForgeOS

open Library OpenCode

namespace OpenCodeAdapter

open ProposeRequest (Progress)

variable {ρ ι : Type} {s t : OpenCodeAdapter ρ ι} {r : ρ}

/-- The requests on a run have distinct call ids. -/
def DistinctCalls (s : OpenCodeAdapter ρ ι) (r : ρ) : Prop :=
  ∀ i j a b, s.Received r i a → s.Received r j b → a.callId = b.callId → i = j

/-- Where the requests of a run stand while they are pending, and which
proposals of the proxy the run has had. -/
structure Tracked (s : OpenCodeAdapter ρ ι) (r : ρ) : Prop where
  pending : ∀ run i request, s.runs r = some run → s.Received r i request →
    request.future = some .pending →
      run.pendingMcp request.callId = some i ∧ ¬run.Drained
  nodup : ∀ run, s.runs r = some run → run.proxied.Nodup
  received : ∀ run, s.runs r = some run → ∀ callId ∈ run.proxied,
    ∃ i request, s.Received r i request ∧ request.callId = callId

theorem tracked_initial (r : ρ) : (initial : OpenCodeAdapter ρ ι).Tracked r where
  pending _ _ _ hrun := nomatch hrun
  nodup _ hrun := nomatch hrun
  received _ hrun := nomatch hrun

namespace Tracked

theorem of_runs (h : s.Tracked r) (hrequests : t.requests = s.requests)
    (hruns : ∀ next, t.runs r = some next → ∃ run, s.runs r = some run ∧
      next.proxied.Sublist run.proxied ∧ ∀ i request, s.Received r i request →
        request.future = some .pending → run.pendingMcp request.callId = some i →
          ¬run.Drained → next.pendingMcp request.callId = some i ∧ ¬next.Drained) :
    t.Tracked r where
  pending next i request hnext hreceived hpending := by
    have hbefore : s.Received r i request := ⟨hrequests ▸ hreceived.1, hreceived.2⟩
    obtain ⟨run, hrun, -, hkept⟩ := hruns next hnext
    obtain ⟨hentry, hdrained⟩ := h.pending run i request hrun hbefore hpending
    exact hkept i request hbefore hpending hentry hdrained
  nodup next hnext := by
    obtain ⟨run, hrun, hproxied, -⟩ := hruns next hnext
    exact (h.nodup run hrun).sublist hproxied
  received next hnext callId hcall := by
    obtain ⟨run, hrun, hproxied, -⟩ := hruns next hnext
    obtain ⟨i, request, hreceived, hrequest⟩ := h.received run hrun callId (hproxied.subset hcall)
    exact ⟨i, request, ⟨hrequests ▸ hreceived.1, hreceived.2⟩, hrequest⟩

theorem of_requests (h : s.Tracked r) (hruns : t.runs = s.runs)
    (hprogress : ∀ i request, s.requests i = some request →
      ∃ next, t.requests i = some next ∧ Progress request next)
    (hnew : ∀ i next, s.requests i = none → ¬t.Received r i next) : t.Tracked r where
  pending run i next hrun hnext hpending := by
    rw [hruns] at hrun
    cases hbefore : s.requests i with
    | none => exact absurd hnext (hnew i next hbefore)
    | some request =>
        obtain ⟨after, hafter, hstep⟩ := hprogress i request hbefore
        obtain rfl : after = next := Option.some.inj (hafter.symm.trans hnext.1)
        have hreceived : s.Received r i request := ⟨hbefore, hstep.run.symm.trans hnext.2⟩
        rw [hstep.callId]
        exact h.pending run i request hrun hreceived (hstep.pending hpending)
  nodup run hrun := h.nodup run (hruns ▸ hrun)
  received run hrun callId hcall := by
    obtain ⟨i, request, hreceived, hrequest⟩ := h.received run (hruns ▸ hrun) callId hcall
    obtain ⟨next, hnext, hstep⟩ := hprogress i request hreceived.1
    exact ⟨i, next, ⟨hnext, hstep.run.trans hreceived.2⟩, hstep.callId.trans hrequest⟩

section Runs

variable [DecidableEq ρ]

/-- A change of one run that keeps the entries of the requests pending on it. -/
theorem setRun (h : s.Tracked r) {other : ρ} {run next : AgentRun ι}
    (hrun : s.runs other = some run) (hproxied : next.proxied.Sublist run.proxied)
    (hkept : other = r → ∀ i request, s.Received r i request →
      request.future = some .pending → run.pendingMcp request.callId = some i →
        ¬run.Drained → next.pendingMcp request.callId = some i ∧ ¬next.Drained) :
    (s.setRun other next).Tracked r := by
  refine h.of_runs rfl fun after hafter => ?_
  rcases update_eq_some hafter with ⟨rfl, hsame⟩ | ⟨-, hbefore⟩
  · obtain rfl := Option.some.inj hsame
    exact ⟨run, hrun, hproxied, hkept rfl⟩
  · exact ⟨after, hbefore, .refl _, fun _ _ _ _ hentry hdrained => ⟨hentry, hdrained⟩⟩

theorem setRun_moves (h : s.Tracked r) {other : ρ} {run next : AgentRun ι}
    (hrun : s.runs other = some run) (hmoves : run.Moves next) :
    (s.setRun other next).Tracked r := by
  refine h.setRun hrun hmoves.proxied fun _ i request _ _ hentry hdrained => ?_
  rw [hmoves.pendingMcp]
  exact ⟨hentry, fun hnext => hdrained (hmoves.drained hnext)⟩

theorem modify (h : s.Tracked r) (other : ρ) {f : AgentRun ι → AgentRun ι}
    (hmoves : ∀ run : AgentRun ι, run.Moves (f run)) : (s.modify other f).Tracked r := by
  unfold OpenCodeAdapter.modify
  split
  · rename_i run hrun
    exact h.setRun_moves hrun (hmoves run)
  · exact h

theorem start {dumps : Json → String} (h : s.Tracked r) (hs : s.Consistent dumps) (other : ρ)
    (aggregateId : String) : (s.start other aggregateId).Tracked r := by
  unfold OpenCodeAdapter.start
  split
  · rename_i hnew
    by_cases hother : r = other
    · subst hother
      have hrun {run : AgentRun ι} (hrun : (s.setRun r (.initial aggregateId)).runs r = some run) :
          run = .initial aggregateId := Option.some.inj (hrun.symm.trans (setRun_self ..))
      constructor
      case pending =>
        intro run i request _ hreceived
        obtain ⟨before, hbefore, -⟩ := hs.requests r i request hreceived
        cases hnew.symm.trans hbefore
      case nodup =>
        intro run hnext
        rw [hrun hnext]
        exact List.nodup_nil
      case received =>
        intro run hnext callId hcall
        rw [hrun hnext] at hcall
        cases hcall
    · refine h.of_runs rfl fun next hnext => ?_
      have hbefore : s.runs r = some next := (setRun_of_ne hother _).symm.trans hnext
      exact ⟨next, hbefore, .refl _, fun _ _ _ _ hentry hdrained => ⟨hentry, hdrained⟩⟩
  · exact h

theorem createFails (h : s.Tracked r) (other : ρ) (raised : Raised) :
    (s.createFails other raised).Tracked r := by
  unfold OpenCodeAdapter.createFails
  split
  · rename_i run hrun
    split
    · rename_i error _
      have hset := h.setRun_moves hrun (run.abort_moves (.raised error))
      exact hset.of_runs rfl fun next hnext =>
        ⟨next, hnext, .refl _, fun _ _ _ _ hentry hdrained => ⟨hentry, hdrained⟩⟩
    · exact h.setRun_moves hrun (run.abort_moves _)
    · exact h
  · exact h

end Runs

section Requests

variable [DecidableEq ι]

theorem setRequest (h : s.Tracked r) {i : ι} {request next : ProposeRequest ρ}
    (hrequest : s.requests i = some request) (hprogress : Progress request next) :
    (s.setRequest i next).Tracked r := by
  refine h.of_requests rfl (fun j other => setRequest_progress hrequest hprogress) ?_
  rintro j after hnew ⟨hafter, -⟩
  rcases update_eq_some hafter with ⟨rfl, -⟩ | ⟨-, hbefore⟩
  · cases hnew.symm.trans hrequest
  · cases hnew.symm.trans hbefore

theorem setRequest_elsewhere (h : s.Tracked r) {i : ι} {request : ProposeRequest ρ}
    (hnew : s.requests i = none) (helsewhere : request.run ≠ some r) :
    (s.setRequest i request).Tracked r := by
  refine h.of_requests rfl (fun j other => setRequest_new hnew request) ?_
  rintro j after hother ⟨hafter, hrun⟩
  rcases update_eq_some hafter with ⟨-, hsame⟩ | ⟨-, hbefore⟩
  · exact helsewhere (Option.some.inj hsame ▸ hrun)
  · cases hother.symm.trans hbefore

theorem refuse (h : s.Tracked r) {i : ι} (hnew : s.requests i = none) (callId : String)
    (status : Nat) (error : String) :
    (s.setRequest i (.refused callId status error)).Tracked r :=
  h.setRequest_elsewhere hnew nofun

theorem failPending (h : s.Tracked r) (ends : ρ → Bool) (message : String) :
    { s with requests := s.failPending ends message }.Tracked r := by
  refine h.of_requests rfl (fun j other => failPending_progress ends message) ?_
  rintro i next hnew ⟨hnext, -⟩
  cases (failPending_none ends message hnew).symm.trans hnext

theorem failPending_done (h : s.Tracked r) {ends : ρ → Bool} {message : String}
    (hends : ends r = true) {run : AgentRun ι} (hrun : s.runs r = some run) {i : ι}
    {next : ProposeRequest ρ}
    (hnext : { s with requests := s.failPending ends message }.Received r i next) :
    next.future ≠ some .pending := by
  intro hpending
  cases hrequest : s.requests i with
  | none => cases (failPending_none ends message hrequest).symm.trans hnext.1
  | some request =>
      obtain ⟨after, hafter, hprogress⟩ := failPending_progress ends message hrequest
      obtain rfl : after = next := Option.some.inj (hafter.symm.trans hnext.1)
      have hreceived : s.Received r i request := ⟨hrequest, hprogress.run.symm.trans hnext.2⟩
      obtain ⟨hentry, -⟩ :=
        h.pending run i request hrun hreceived (hprogress.pending hpending)
      have hfails : s.failPending ends message i = some (request.fail message) := by
        rw [failPending_received message hends hrun hreceived, if_pos hentry]
      obtain rfl := Option.some.inj (hfails.symm.trans hafter)
      rw [ProposeRequest.fail_eq_settle] at hpending
      exact absurd hpending (ProposeRequest.settle_not_pending request nofun)

end Requests

variable [DecidableEq ρ] [DecidableEq ι]

/-- A result that is handed on answers the request whose entry it pops. -/
theorem deliver (h : s.Tracked r) {other : ρ} {run next : AgentRun ι} {result : ToolResult}
    (hrun : s.runs other = some run) (hproxied : next.proxied.Sublist run.proxied)
    (hentries : next.pendingMcp = run.pendingMcp) (hdrained : next.Drained → run.Drained) :
    (s.deliver other next result).Tracked r := by
  have hpop {t : OpenCodeAdapter ρ ι} (ht : t.Tracked r) (hthere : t.runs other = some run)
      (hdone : other = r → ∀ i request, t.Received r i request → request.future = some .pending →
        run.pendingMcp result.toolUseId ≠ some i) :
      (t.setRun other (next.pop result.toolUseId)).Tracked r := by
    refine ht.setRun hthere hproxied fun hr i request hreceived hpending hentry hbefore => ?_
    refine ⟨?_, fun hnext => hbefore (hdrained hnext)⟩
    have hcall : request.callId ≠ result.toolUseId := fun hcall =>
      hdone hr i request hreceived hpending (hcall ▸ hentry)
    change Function.update next.pendingMcp result.toolUseId none request.callId = some i
    rw [Function.update_of_ne hcall, hentries]
    exact hentry
  unfold OpenCodeAdapter.deliver
  dsimp only
  rw [hentries]
  cases hentry : run.pendingMcp result.toolUseId with
  | none => exact hpop h hrun fun _ i request _ _ => by rw [hentry]; exact nofun
  | some i =>
      dsimp only
      cases hrequest : s.requests i with
      | none =>
          refine hpop h hrun fun _ j request hreceived _ hj => ?_
          obtain rfl := Option.some.inj (hentry.symm.trans hj)
          cases hrequest.symm.trans hreceived.1
      | some request =>
          have hanswered : (s.setRequest i (request.fulfil result)).Tracked r :=
            h.setRequest hrequest (.settle request (.result result) nofun nofun)
          refine hpop hanswered hrun fun _ j after hreceived hpending hj => ?_
          obtain rfl := Option.some.inj (hentry.symm.trans hj)
          obtain rfl := Option.some.inj ((setRequest_self i _).symm.trans hreceived.1)
          rw [ProposeRequest.fulfil_eq_settle] at hpending
          exact absurd hpending (ProposeRequest.settle_not_pending request nofun)

theorem resume (h : s.Tracked r) (other : ρ) (sent : Option ToolResult) :
    (s.resume other sent).Tracked r := by
  unfold OpenCodeAdapter.resume
  split
  · rename_i run hrun
    split
    · rename_i next result hresume
      obtain ⟨rfl, hpaused⟩ := AgentRun.resume_result hresume
      refine h.deliver hrun ?_ rfl (run.resumed_keeps result).drained
      rw [AgentRun.proxied_resumed hpaused]
    · rename_i next hresume
      exact h.setRun_moves hrun (AgentRun.resume_moves hresume)
  · exact h

theorem stopped (h : s.Tracked r) (other : ρ) : (s.stopped other).Tracked r := by
  unfold OpenCodeAdapter.stopped
  split
  · rename_i run hrun
    split
    · rename_i ending hphase
      let message := "spawn_agent ended with pending MCP call"
      have hfailed := h.failPending (· = other) message
      have hproxied : { run with phase := .ended true ending }.proxied.Sublist run.proxied :=
        run.proxied_phase run.sessionId run.sse nofun
      have hended := hfailed.setRun hrun hproxied
        fun hother i request hreceived hpending _ _ =>
          absurd hpending (h.failPending_done (by simp [hother]) (hother ▸ hrun) hreceived)
      exact hended.of_runs rfl fun next hnext =>
        ⟨next, hnext, .refl _, fun _ _ _ _ hentry hdrained => ⟨hentry, hdrained⟩⟩
    · exact h
  · exact h

/-- A run takes in a new request. -/
theorem accept (h : s.Tracked r) {other : ρ} {run : AgentRun ι} {i : ι}
    (hrun : s.runs other = some run) (hdrained : ¬run.Drained) (hnew : s.requests i = none)
    {callId : String} {item : Item} (hitem : item.mcpCall = some callId)
    (hdistinct : ∀ j request, s.Received other j request → other = r → request.callId ≠ callId) :
    ((s.setRun other { run with
      pendingMcp := Function.update run.pendingMcp callId (some i)
      eventsQ := run.eventsQ ++ [item] }).setRequest i
        ⟨callId, some other, some .pending, none⟩).Tracked r := by
  by_cases hother : other = r
  · subst hother
    have hproxied : { run with
        pendingMcp := Function.update run.pendingMcp callId (some i)
        eventsQ := run.eventsQ ++ [item] }.proxied = run.proxied ++ [callId] := by
      simp [AgentRun.proxied, AgentRun.pausedCall, hitem]
    constructor
    case pending =>
      intro next j request hnext hreceived hpending
      obtain rfl := Option.some.inj ((setRun_self other _).symm.trans hnext)
      refine ⟨?_, hdrained⟩
      rcases update_eq_some hreceived.1 with ⟨rfl, hsame⟩ | ⟨-, hbefore⟩
      · obtain rfl := Option.some.inj hsame
        exact Function.update_self ..
      · have hrequest : s.Received other j request := ⟨hbefore, hreceived.2⟩
        have hcall := hdistinct j request hrequest rfl
        exact (Function.update_of_ne hcall ..).trans
          (h.pending run j request hrun hrequest hpending).1
    case nodup =>
      intro next hnext
      obtain rfl := Option.some.inj ((setRun_self other _).symm.trans hnext)
      rw [hproxied, List.nodup_append_comm, List.singleton_append, List.nodup_cons]
      refine ⟨fun hmem => ?_, h.nodup run hrun⟩
      obtain ⟨j, request, hreceived, hcall⟩ := h.received run hrun callId hmem
      exact hdistinct j request hreceived rfl hcall
    case received =>
      intro next hnext otherCall hmem
      obtain rfl := Option.some.inj ((setRun_self other _).symm.trans hnext)
      rw [hproxied, List.mem_append, List.mem_singleton] at hmem
      rcases hmem with hbefore | rfl
      · obtain ⟨j, request, hreceived, hcall⟩ := h.received run hrun otherCall hbefore
        have hj : j ≠ i := by
          rintro rfl
          cases hnew.symm.trans hreceived.1
        exact ⟨j, request, ⟨(setRequest_of_ne hj _).trans hreceived.1, hreceived.2⟩, hcall⟩
      · exact ⟨i, _, ⟨setRequest_self .., rfl⟩, rfl⟩
  · have hset : (s.setRun other { run with
        pendingMcp := Function.update run.pendingMcp callId (some i)
        eventsQ := run.eventsQ ++ [item] }).Tracked r := by
      refine h.of_runs rfl fun next hnext => ?_
      have hbefore := (setRun_of_ne (Ne.symm hother) _).symm.trans hnext
      exact ⟨next, hbefore, .refl _, fun _ _ _ _ hentry hkept => ⟨hentry, hkept⟩⟩
    exact hset.setRequest_elsewhere hnew fun h => hother (Option.some.inj h)

theorem arrive {dumps : Json → String} (h : s.Tracked r) (hs : s.Consistent dumps) (i : ι)
    (body : ProposeBody) (hdistinct : (s.arrive i body).DistinctCalls r) :
    (s.arrive i body).Tracked r := by
  revert hdistinct
  unfold OpenCodeAdapter.arrive
  split
  · exact fun _ => h
  · rename_i hnew
    split
    · exact fun _ => h.refuse hnew ..
    · split
      · exact fun _ => h.refuse hnew ..
      · rename_i other hsession
        split
        · exact fun _ => h
        · rename_i run hrun
          intro hdistinct
          obtain ⟨registered, hregistered, -, hdrained⟩ := hs.registered _ other hsession
          obtain rfl := Option.some.inj (hrun.symm.trans hregistered)
          refine h.accept hrun hdrained hnew rfl ?_
          rintro j request hreceived rfl hcall
          have hj : j ≠ i := by
            rintro rfl
            cases hnew.symm.trans hreceived.1
          exact hj (hdistinct j i request _
            ⟨(setRequest_of_ne hj _).trans hreceived.1, hreceived.2⟩
            ⟨setRequest_self .., rfl⟩ hcall)

/-- The handler of a request pops its entry and answers. -/
theorem popRequest (h : s.Tracked r) (hdistinct : s.DistinctCalls r) {i : ι}
    {request next : ProposeRequest ρ} (hrequest : s.requests i = some request)
    (hprogress : Progress request next) (hdone : next.future ≠ some .pending) :
    ((s.popRequest request).setRequest i next).Tracked r := by
  have hanswered := h.setRequest hrequest hprogress
  have hswap : (s.popRequest request).setRequest i next =
      (s.setRequest i next).popRequest request := by
    unfold OpenCodeAdapter.popRequest OpenCodeAdapter.modify
    split
    · split <;> simp_all [OpenCodeAdapter.setRequest, OpenCodeAdapter.setRun]
    · rfl
  rw [hswap]
  unfold OpenCodeAdapter.popRequest
  split
  · rename_i other hother
    unfold OpenCodeAdapter.modify
    split
    · rename_i run hrun
      refine hanswered.setRun hrun (.refl _) fun hr j after hreceived hpending hentry hbefore => ?_
      refine ⟨?_, hbefore⟩
      have hcall : after.callId ≠ request.callId := by
        intro hcall
        rcases update_eq_some hreceived.1 with ⟨-, hsame⟩ | ⟨hj, hbefore⟩
        · exact hdone (Option.some.inj hsame ▸ hpending)
        · exact hj (hdistinct j i after request ⟨hbefore, hreceived.2⟩
            ⟨hrequest, hother.trans (congrArg some hr)⟩ hcall)
      exact (Function.update_of_ne hcall ..).trans hentry
    · exact hanswered
  · exact hanswered

theorem wake (h : s.Tracked r) (hdistinct : s.DistinctCalls r) (dumps : Json → String)
    (reprMessage : String → String) (i : ι) : (s.wake dumps reprMessage i).Tracked r := by
  unfold OpenCodeAdapter.wake
  split
  · rename_i request hrequest
    split
    · rename_i hanswer _
      exact h.setRequest hrequest (.answer request hanswer _)
    · rename_i hanswer hfuture
      refine h.popRequest hdistinct hrequest (.answer request hanswer _) ?_
      change request.future ≠ some .pending
      rw [hfuture]
      exact nofun
    · exact h
  · exact h

theorem expire (h : s.Tracked r) (hdistinct : s.DistinctCalls r) (i : ι) :
    (s.expire i).Tracked r := by
  unfold OpenCodeAdapter.expire
  split
  · rename_i request hrequest
    split
    · rename_i hanswer _
      exact h.popRequest hdistinct hrequest (.expire request hanswer)
        request.expire_not_pending
    · exact h
  · exact h

theorem shutdown (h : s.Tracked r) : s.shutdown.Tracked r := by
  have hfailed := h.failPending
    (fun other => ((s.runs other).bind fun run => s.sessions run.aggregateId) = some other)
    "adapter shutting down"
  refine hfailed.of_runs rfl fun next hnext => ?_
  obtain ⟨run, hrun, hcleared⟩ := Option.map_eq_some_iff.mp hnext
  refine ⟨run, hrun, ?_⟩
  split at hcleared
  · rename_i hregistered
    subst hcleared
    refine ⟨.refl _, fun i request hreceived hpending _ _ => absurd hpending ?_⟩
    exact h.failPending_done (by simp [hrun, hregistered]) hrun hreceived
  · subst hcleared
    exact ⟨.refl _, fun _ _ _ _ hentry hdrained => ⟨hentry, hdrained⟩⟩

end Tracked

variable [DecidableEq ρ] [DecidableEq ι]

/-- Requests stay on their run under their call id. -/
theorem DistinctCalls.of_step {dumps : Json → String} {reprMessage : String → String}
    {k : AdapterStep ρ ι} (h : (s.step dumps reprMessage k).DistinctCalls r) :
    s.DistinctCalls r := by
  intro i j a b hi hj hcall
  obtain ⟨a', ha, hprogress⟩ := step_progress dumps reprMessage k hi.1
  obtain ⟨b', hb, hprogress'⟩ := step_progress dumps reprMessage k hj.1
  refine h i j a' b' ⟨ha, hprogress.run.trans hi.2⟩ ⟨hb, hprogress'.run.trans hj.2⟩ ?_
  rw [hprogress.callId, hprogress'.callId, hcall]

theorem Tracked.step {dumps : Json → String} (h : s.Tracked r) (hs : s.Consistent dumps)
    (reprMessage : String → String) (k : AdapterStep ρ ι)
    (hdistinct : (s.step dumps reprMessage k).DistinctCalls r) :
    (s.step dumps reprMessage k).Tracked r := by
  have hbefore : s.DistinctCalls r := hdistinct.of_step
  cases k with
  | start other aggregateId => exact h.start hs other aggregateId
  | createFails other raised => exact h.createFails other raised
  | within other k => exact h.modify other fun run => run.step_moves k
  | resume other sent => exact h.resume other sent
  | stopped other => exact h.stopped other
  | arrive i body => exact h.arrive hs i body hdistinct
  | malformed i detail =>
      simp only [OpenCodeAdapter.step, malformed]
      split
      · exact h
      · rename_i hnew
        exact h.refuse hnew ..
  | wake i => exact h.wake hbefore dumps reprMessage i
  | expire i => exact h.expire hbefore i
  | shutdown => exact h.shutdown

/-- What the back channel does for the requests on a run: a response carries the
result that was resumed for the request's own call id, or an error; each call id
is resumed once; and no future outlives the drain loop. -/
structure Correlated (dumps : Json → String) (s : OpenCodeAdapter ρ ι) (r : ρ) : Prop where
  answered : ∀ i request response, s.Received r i request → request.answer = some response →
    ∃ run, s.runs r = some run ∧ request.AnsweredWith dumps run.resumed response
  delivered : ∀ i request result, s.Received r i request →
    request.future = some (.result result) →
      ∃ run, s.runs r = some run ∧ result ∈ run.resumed ∧ result.toolUseId = request.callId
  resumedOnce : ∀ run, s.runs r = some run → (run.resumed.map ToolResult.toolUseId).Nodup
  drained : ∀ run i request, s.runs r = some run → run.Drained → s.Received r i request →
    request.future ≠ some .pending

/-- A request is answered at most once, and has been answered once its timeout
has come or its handler has run on from a future that is done. -/
structure AnsweredOnce (dumps : Json → String) (reprMessage : String → String)
    (steps : List (AdapterStep ρ ι)) (i : ι) : Prop where
  once : collect (fun s => step s dumps reprMessage) (responses dumps reprMessage i) initial
    steps = ((after dumps reprMessage steps).answerOf i).toList
  expired : ∀ before later, steps = before ++ .expire i :: later →
    (after dumps reprMessage before).requests i ≠ none →
      (after dumps reprMessage steps).answerOf i ≠ none
  woken : ∀ before later request, steps = before ++ .wake i :: later →
    (after dumps reprMessage before).requests i = some request →
      request.future ≠ some .pending → (after dumps reprMessage steps).answerOf i ≠ none

omit [DecidableEq ρ] [DecidableEq ι] in
theorem Correlated.of_tracked {dumps : Json → String} (hs : s.Consistent dumps)
    (h : s.Tracked r) : s.Correlated dumps r where
  answered i request response hreceived hanswer := by
    obtain ⟨run, hrun, hsound⟩ := hs.requests r i request hreceived
    exact ⟨run, hrun, hsound.answered response hanswer⟩
  delivered i request result hreceived hresult := by
    obtain ⟨run, hrun, hsound⟩ := hs.requests r i request hreceived
    exact ⟨run, hrun, hsound.delivered result hresult⟩
  resumedOnce run hrun := (List.nodup_append.mp (h.nodup run hrun)).1
  drained run i request hrun hdrained hreceived hpending :=
    (h.pending run i request hrun hreceived hpending).2 hdrained

theorem answerOf_after {dumps : Json → String} {reprMessage : String → String}
    {steps before later : List (AdapterStep ρ ι)} {k : AdapterStep ρ ι} {i : ι}
    (hsteps : steps = before ++ k :: later)
    (hanswer : ((after dumps reprMessage before).step dumps reprMessage k).answerOf i ≠ none) :
    (after dumps reprMessage steps).answerOf i ≠ none := by
  obtain ⟨response, hresponse⟩ := Option.ne_none_iff_exists'.mp hanswer
  have hlater (t : OpenCodeAdapter ρ ι) (ht : t.answerOf i = some response) :
      (run (fun s => step s dumps reprMessage) t later).answerOf i = some response :=
    run_invariant (I := fun t => answerOf t i = some response) ht
      fun _ k' _ h => step_answerOf dumps reprMessage k' h
  have hafter : (after dumps reprMessage steps).answerOf i = some response := by
    subst hsteps
    unfold after
    rw [run_append]
    exact hlater _ hresponse
  rw [hafter]
  exact nofun

theorem answeredOnce (dumps : Json → String) (reprMessage : String → String)
    (steps : List (AdapterStep ρ ι)) (i : ι) : AnsweredOnce dumps reprMessage steps i where
  once := collect_responses dumps reprMessage steps i
  expired before later hsteps hthere := by
    obtain ⟨request, hrequest⟩ := Option.ne_none_iff_exists'.mp hthere
    exact answerOf_after hsteps
      (expire_answers hrequest (allAwait_after dumps reprMessage before i request hrequest))
  woken before later request hsteps hrequest hdone :=
    answerOf_after hsteps (wake_answers dumps reprMessage hrequest
      (allAwait_after dumps reprMessage before i request hrequest) hdone)

/-- Requests with distinct call ids on one run are each answered once, with the
result of their own call id or an error, and all of them by the end of the drain
loop. This holds of any order in which the requests, the results and the end of
the run come. -/
theorem requests_correlated (dumps : Json → String) (reprMessage : String → String)
    (steps : List (AdapterStep ρ ι)) (r : ρ)
    (hdistinct : (after dumps reprMessage steps).DistinctCalls r) :
    (after dumps reprMessage steps).Correlated dumps r ∧
      ∀ i, AnsweredOnce dumps reprMessage steps i := by
  have hconsistent (before : List (AdapterStep ρ ι)) :
      (after dumps reprMessage before).Consistent dumps :=
    run_invariant (consistent_initial dumps) fun _ k _ h => h.step reprMessage k
  have htracked : (after dumps reprMessage steps).Tracked r := by
    induction steps using List.reverseRecOn with
    | nil => exact tracked_initial r
    | append_singleton before k ih =>
        rw [after_snoc] at hdistinct ⊢
        exact (ih hdistinct.of_step).step (hconsistent before) reprMessage k hdistinct
  exact ⟨.of_tracked (hconsistent steps) htracked, answeredOnce dumps reprMessage steps⟩

/-- Two requests on one run; the caller resumes the first, the second times out. -/
def twoCalls : List (AdapterStep Unit Bool) :=
  [.start () "srs", .within () (.created "ses-1"), .resume () none, .within () .promptSubmitted,
    .arrive false ⟨"srs", "call-1", "ReadLKG", []⟩, .arrive true ⟨"srs", "call-2", "ReadLKG", []⟩,
    .within () .take, .resume () (some ⟨"call-1", .str "lkg", false⟩), .expire true, .wake false]

theorem requests_correlated_twoCalls :
    ((after (fun _ => "null") id twoCalls).Correlated (fun _ => "null") () ∧
      ∀ i, AnsweredOnce (fun _ => "null") id twoCalls i) ∧
    (after (fun _ => "null") id twoCalls).answerOf false =
      some ⟨200, [("content", .str "lkg")]⟩ ∧
    (after (fun _ => "null") id twoCalls).answerOf true =
      some ⟨504, [("error", .str "Forge validator timed out")]⟩ := by
  have hcalls (i : Bool) : ((after (fun _ => "null") id twoCalls).requests i).map
      ProposeRequest.callId = some (if i then "call-2" else "call-1") := by
    cases i <;> rfl
  refine ⟨requests_correlated _ _ twoCalls () ?_, rfl, rfl⟩
  rintro i j a b ⟨ha, -⟩ ⟨hb, -⟩ hcall
  have hi := hcalls i
  have hj := hcalls j
  rw [ha] at hi
  rw [hb] at hj
  have hsame : (if i then "call-2" else "call-1") = if j then "call-2" else "call-1" :=
    (Option.some.inj hi).symm.trans (hcall.trans (Option.some.inj hj))
  revert hsame
  cases i <;> cases j <;> decide

end OpenCodeAdapter

end ForgeOS
