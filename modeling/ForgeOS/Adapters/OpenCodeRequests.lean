import ForgeOS.Adapters.OpenCode
import Mathlib.Data.List.Induction

/-!
The requests of the proxy, each from its arrival to its response. A request is
refused at once, or awaits its future until that is done or the timeout comes.
Whatever else happens in between, it is answered once.
-/

namespace ForgeOS

open Library

theorem update_eq_some {α β : Type} [DecidableEq α] {f : α → Option β} {a a' : α}
    {v : Option β} {b : β} (h : Function.update f a v a' = some b) :
    (a' = a ∧ v = some b) ∨ (a' ≠ a ∧ f a' = some b) := by
  by_cases ha : a' = a
  · subst ha
    rw [Function.update_self] at h
    exact Or.inl ⟨rfl, h⟩
  · rw [Function.update_of_ne ha] at h
    exact Or.inr ⟨ha, h⟩

theorem update_none_eq_some {α β : Type} [DecidableEq α] {f : α → Option β} {a a' : α} {b : β}
    (h : Function.update f a none a' = some b) : f a' = some b := by
  rcases update_eq_some h with ⟨-, hnone⟩ | ⟨-, hkept⟩
  · cases hnone
  · exact hkept

namespace OpenCode

/-! ### The life of a request -/

namespace ProposeRequest

variable {ρ : Type}

/-- `fut.set_result` or `fut.set_exception`, unless the future is done. -/
def settle (request : ProposeRequest ρ) (future : McpFuture) : ProposeRequest ρ :=
  match request.future with
  | some .pending => { request with future := some future }
  | _ => request

theorem fail_eq_settle (request : ProposeRequest ρ) (message : String) :
    request.fail message = request.settle (.failed message) := rfl

theorem fulfil_eq_settle (request : ProposeRequest ρ) (result : ToolResult) :
    request.fulfil result = request.settle (.result result) := rfl

@[simp]
theorem settle_callId (request : ProposeRequest ρ) (future : McpFuture) :
    (request.settle future).callId = request.callId := by
  unfold settle
  split <;> rfl

@[simp]
theorem settle_run (request : ProposeRequest ρ) (future : McpFuture) :
    (request.settle future).run = request.run := by
  unfold settle
  split <;> rfl

@[simp]
theorem settle_answer (request : ProposeRequest ρ) (future : McpFuture) :
    (request.settle future).answer = request.answer := by
  unfold settle
  split <;> rfl

theorem settle_future (request : ProposeRequest ρ) (future : McpFuture) :
    (request.future = some .pending ∧ (request.settle future).future = some future) ∨
      (request.future ≠ some .pending ∧ (request.settle future).future = request.future) := by
  unfold settle
  split
  · exact Or.inl ⟨by assumption, rfl⟩
  · exact Or.inr ⟨by assumption, rfl⟩

theorem settle_not_pending (request : ProposeRequest ρ) {future : McpFuture}
    (hdone : future ≠ .pending) : (request.settle future).future ≠ some .pending := by
  rcases request.settle_future future with ⟨-, hfuture⟩ | ⟨hrequest, hfuture⟩
  · rw [hfuture]
    exact fun h => hdone (Option.some.inj h)
  · rw [hfuture]
    exact hrequest

theorem expire_not_pending (request : ProposeRequest ρ) :
    request.expire.future ≠ some .pending := by
  unfold expire
  cases request.future with
  | none => simp
  | some future => cases future <;> simp

/-- What one step makes of a request. -/
inductive Progress : ProposeRequest ρ → ProposeRequest ρ → Prop where
  | same (request) : Progress request request
  | settle (request) (future : McpFuture) (hdone : future ≠ .pending)
      (hcancelled : future ≠ .cancelled) : Progress request (request.settle future)
  | expire (request : ProposeRequest ρ) (hopen : request.answer = none) :
      Progress request request.expire
  | answer (request : ProposeRequest ρ) (hopen : request.answer = none)
      (response : HttpResponse) : Progress request { request with answer := some response }

/-- An unanswered request awaits a future that has not been cancelled. -/
def Awaits (request : ProposeRequest ρ) : Prop :=
  request.answer = none → ∃ future, request.future = some future ∧ future ≠ .cancelled

namespace Progress

variable {request next : ProposeRequest ρ}

theorem callId (h : Progress request next) : next.callId = request.callId := by
  cases h <;> simp [ProposeRequest.expire]

theorem run (h : Progress request next) : next.run = request.run := by
  cases h <;> simp [ProposeRequest.expire]

/-- An answer is final. -/
theorem keeps_answer (h : Progress request next) {response : HttpResponse}
    (hanswer : request.answer = some response) : next.answer = some response := by
  cases h with
  | same => exact hanswer
  | settle => rw [settle_answer, hanswer]
  | expire hopen =>
      rw [hopen] at hanswer
      cases hanswer
  | answer hopen =>
      rw [hopen] at hanswer
      cases hanswer

/-- A future that is done stays done. -/
theorem pending (h : Progress request next) (hpending : next.future = some .pending) :
    request.future = some .pending := by
  cases h with
  | same => exact hpending
  | settle _ hdone => exact absurd hpending (settle_not_pending _ hdone)
  | expire => exact absurd hpending (expire_not_pending _)
  | answer => exact hpending

theorem awaits (h : Progress request next) (hawaits : request.Awaits) : next.Awaits := by
  intro hnext
  have hopen : request.answer = none := by
    cases hanswer : request.answer with
    | none => rfl
    | some response =>
        rw [h.keeps_answer hanswer] at hnext
        cases hnext
  obtain ⟨future, hfuture, hcancelled⟩ := hawaits hopen
  cases h with
  | same => exact ⟨future, hfuture, hcancelled⟩
  | settle settled _ hsettled =>
      rcases request.settle_future settled with ⟨-, hthen⟩ | ⟨-, hthen⟩
      · exact ⟨settled, hthen, hsettled⟩
      · exact ⟨future, hthen.trans hfuture, hcancelled⟩
  | expire => cases hnext
  | answer => cases hnext

end Progress

end ProposeRequest

end OpenCode

open OpenCode

namespace OpenCodeAdapter

variable {ρ ι : Type} {s : OpenCodeAdapter ρ ι}

open ProposeRequest (Progress)

/-! ### What a step leaves as it is -/

section Runs

variable [DecidableEq ρ]

@[simp]
theorem setRun_requests (r : ρ) (run : AgentRun ι) : (s.setRun r run).requests = s.requests := rfl

@[simp]
theorem setRun_sessions (r : ρ) (run : AgentRun ι) : (s.setRun r run).sessions = s.sessions := rfl

theorem setRun_self (r : ρ) (run : AgentRun ι) : (s.setRun r run).runs r = some run :=
  Function.update_self ..

theorem setRun_of_ne {r other : ρ} (hother : other ≠ r) (run : AgentRun ι) :
    (s.setRun r run).runs other = s.runs other := Function.update_of_ne hother ..

@[simp]
theorem modify_requests (r : ρ) (f : AgentRun ι → AgentRun ι) :
    (s.modify r f).requests = s.requests := by
  unfold modify
  split <;> rfl

@[simp]
theorem modify_sessions (r : ρ) (f : AgentRun ι → AgentRun ι) :
    (s.modify r f).sessions = s.sessions := by
  unfold modify
  split <;> rfl

@[simp]
theorem popRequest_requests (request : ProposeRequest ρ) :
    (s.popRequest request).requests = s.requests := by
  unfold popRequest
  split
  · exact modify_requests _ _
  · rfl

@[simp]
theorem popRequest_sessions (request : ProposeRequest ρ) :
    (s.popRequest request).sessions = s.sessions := by
  unfold popRequest
  split
  · exact modify_sessions _ _
  · rfl

end Runs

section Requests

variable [DecidableEq ι]

@[simp]
theorem setRequest_runs (i : ι) (request : ProposeRequest ρ) :
    (s.setRequest i request).runs = s.runs := rfl

@[simp]
theorem setRequest_sessions (i : ι) (request : ProposeRequest ρ) :
    (s.setRequest i request).sessions = s.sessions := rfl

theorem setRequest_self (i : ι) (request : ProposeRequest ρ) :
    (s.setRequest i request).requests i = some request := Function.update_self ..

theorem setRequest_of_ne {i j : ι} (hj : j ≠ i) (request : ProposeRequest ρ) :
    (s.setRequest i request).requests j = s.requests j := Function.update_of_ne hj ..

theorem setRequest_progress {i j : ι} {request next : ProposeRequest ρ}
    (hrequest : s.requests i = some request) (hnext : Progress request next)
    {other : ProposeRequest ρ} (hother : s.requests j = some other) :
    ∃ after, (s.setRequest i next).requests j = some after ∧ Progress other after := by
  by_cases hj : j = i
  · subst hj
    obtain rfl : request = other := Option.some.inj (hrequest.symm.trans hother)
    exact ⟨next, setRequest_self .., hnext⟩
  · exact ⟨other, (setRequest_of_ne hj _).trans hother, .same other⟩

theorem setRequest_new {i j : ι} (hnew : s.requests i = none) (request : ProposeRequest ρ)
    {other : ProposeRequest ρ} (hother : s.requests j = some other) :
    ∃ after, (s.setRequest i request).requests j = some after ∧ Progress other after := by
  have hj : j ≠ i := by
    rintro rfl
    rw [hnew] at hother
    cases hother
  exact ⟨other, (setRequest_of_ne hj _).trans hother, .same other⟩

end Requests

variable [DecidableEq ρ] [DecidableEq ι]

omit [DecidableEq ρ] in
theorem failPending_none (ends : ρ → Bool) (message : String) {i : ι}
    (hrequest : s.requests i = none) : s.failPending ends message i = none := by
  unfold failPending
  rw [hrequest]
  rfl

omit [DecidableEq ρ] in
theorem failPending_cases (ends : ρ → Bool) (message : String) {i : ι}
    {request next : ProposeRequest ρ} (hrequest : s.requests i = some request)
    (hnext : s.failPending ends message i = some next) :
    next = request ∨ next = request.fail message := by
  rw [failPending, hrequest, Option.map_some] at hnext
  obtain rfl := Option.some.inj hnext
  cases request.run with
  | none => exact Or.inl rfl
  | some r =>
      dsimp only
      split
      · exact Or.inr rfl
      · exact Or.inl rfl

omit [DecidableEq ρ] in
theorem failPending_progress (ends : ρ → Bool) (message : String) {j : ι}
    {other : ProposeRequest ρ} (hother : s.requests j = some other) :
    ∃ after, s.failPending ends message j = some after ∧ Progress other after := by
  cases hafter : s.failPending ends message j with
  | none =>
      rw [failPending, hother] at hafter
      cases hafter
  | some after =>
      refine ⟨after, rfl, ?_⟩
      rcases failPending_cases ends message hother hafter with rfl | rfl
      · exact .same _
      · exact .settle other (.failed message) nofun nofun

theorem deliver_progress (r : ρ) (run : AgentRun ι) (result : ToolResult) {j : ι}
    {other : ProposeRequest ρ} (hother : s.requests j = some other) :
    ∃ after, (s.deliver r run result).requests j = some after ∧ Progress other after := by
  unfold deliver
  dsimp only
  split
  · split
    · rename_i i _ request hrequest
      exact setRequest_progress (s := s.setRun r (run.pop result.toolUseId)) hrequest
        (.settle request (.result result) nofun nofun) hother
    · exact ⟨other, hother, .same other⟩
  · exact ⟨other, hother, .same other⟩

theorem arrive_progress (i : ι) (body : ProposeBody) {j : ι} {other : ProposeRequest ρ}
    (hother : s.requests j = some other) :
    ∃ after, (s.arrive i body).requests j = some after ∧ Progress other after := by
  unfold arrive
  split
  · exact ⟨other, hother, .same other⟩
  · rename_i hnew
    split
    · exact setRequest_new hnew _ hother
    · split
      · exact setRequest_new hnew _ hother
      · split
        · exact ⟨other, hother, .same other⟩
        · exact setRequest_new (s := s.setRun _ _) hnew _ hother

theorem wake_progress (dumps : Json → String) (reprMessage : String → String) (i : ι) {j : ι}
    {other : ProposeRequest ρ} (hother : s.requests j = some other) :
    ∃ after, (s.wake dumps reprMessage i).requests j = some after ∧ Progress other after := by
  unfold wake
  split
  · rename_i request hrequest
    split
    · rename_i hanswer _
      exact setRequest_progress hrequest (.answer request hanswer _) hother
    · rename_i hanswer _
      exact setRequest_progress (s := s.popRequest request)
        ((congrFun (popRequest_requests request) i).trans hrequest)
        (.answer request hanswer _) ((congrFun (popRequest_requests request) j).trans hother)
    · exact ⟨other, hother, .same other⟩
  · exact ⟨other, hother, .same other⟩

theorem expire_progress (i : ι) {j : ι} {other : ProposeRequest ρ}
    (hother : s.requests j = some other) :
    ∃ after, (s.expire i).requests j = some after ∧ Progress other after := by
  unfold expire
  split
  · rename_i request hrequest
    split
    · rename_i hanswer _
      exact setRequest_progress (s := s.popRequest request)
        ((congrFun (popRequest_requests request) i).trans hrequest)
        (.expire request hanswer) ((congrFun (popRequest_requests request) j).trans hother)
    · exact ⟨other, hother, .same other⟩
  · exact ⟨other, hother, .same other⟩

theorem step_progress (dumps : Json → String) (reprMessage : String → String)
    (k : AdapterStep ρ ι) {j : ι} {other : ProposeRequest ρ}
    (hother : s.requests j = some other) :
    ∃ after, (s.step dumps reprMessage k).requests j = some after ∧ Progress other after := by
  cases k with
  | start r aggregateId =>
      refine ⟨other, ?_, .same other⟩
      simp only [step, start]
      split <;> exact hother
  | createFails r raised =>
      refine ⟨other, ?_, .same other⟩
      simp only [step, createFails]
      split
      · split <;> exact hother
      · exact hother
  | within r k =>
      exact ⟨other, (congrFun (modify_requests r _) j).trans hother, .same other⟩
  | resume r sent =>
      simp only [step, resume]
      split
      · split
        · exact deliver_progress r _ _ hother
        · exact ⟨other, hother, .same other⟩
      · exact ⟨other, hother, .same other⟩
  | stopped r =>
      simp only [step, stopped]
      split
      · split
        · exact failPending_progress _ _ hother
        · exact ⟨other, hother, .same other⟩
      · exact ⟨other, hother, .same other⟩
  | arrive i body => exact arrive_progress i body hother
  | malformed i detail =>
      simp only [step, malformed]
      split
      · exact ⟨other, hother, .same other⟩
      · rename_i hnew
        exact setRequest_new hnew _ hother
  | wake i => exact wake_progress dumps reprMessage i hother
  | expire i => exact expire_progress i hother
  | shutdown => exact failPending_progress _ _ hother

/-! ### New requests -/

/-- A request as `_handle_propose` leaves it at first; it is accepted only for a
run that is registered. -/
inductive Arrived (s : OpenCodeAdapter ρ ι) : ProposeRequest ρ → Prop where
  | refused (callId : String) (status : Nat) (error : String) :
      Arrived s (.refused callId status error)
  | accepted (callId : String) {id : String} {r : ρ} (hsession : s.sessions id = some r) :
      Arrived s ⟨callId, some r, some .pending, none⟩

omit [DecidableEq ρ] [DecidableEq ι] in
theorem Arrived.awaits {request : ProposeRequest ρ} (h : s.Arrived request) : request.Awaits := by
  cases h with
  | refused => exact nofun
  | accepted => exact fun _ => ⟨.pending, rfl, nofun⟩

omit [DecidableEq ρ] in
theorem setRequest_none {i j : ι} {request next : ProposeRequest ρ}
    (hrequest : s.requests i = some request) (hother : s.requests j = none) :
    (s.setRequest i next).requests j = none := by
  have hj : j ≠ i := by
    rintro rfl
    cases hother.symm.trans hrequest
  exact (setRequest_of_ne hj next).trans hother

omit [DecidableEq ρ] in
theorem setRequest_eq_of_none {i j : ι} {request after : ProposeRequest ρ}
    (hother : s.requests j = none)
    (hafter : (s.setRequest i request).requests j = some after) : after = request := by
  rcases update_eq_some hafter with ⟨-, hsame⟩ | ⟨-, hkept⟩
  · exact (Option.some.inj hsame).symm
  · cases hother.symm.trans hkept

theorem step_arrived (dumps : Json → String) (reprMessage : String → String)
    (k : AdapterStep ρ ι) {j : ι} {after : ProposeRequest ρ} (hother : s.requests j = none)
    (hafter : (s.step dumps reprMessage k).requests j = some after) : s.Arrived after := by
  have hsame {t : OpenCodeAdapter ρ ι} (ht : t.requests = s.requests)
      (h : t.requests j = some after) : s.Arrived after := by
    rw [ht, hother] at h
    cases h
  have hpending {ends : ρ → Bool} {message : String}
      (h : s.failPending ends message j = some after) : s.Arrived after := by
    rw [failPending_none ends message hother] at h
    cases h
  cases k with
  | start r aggregateId =>
      simp only [step, start] at hafter
      split at hafter <;> exact hsame rfl hafter
  | createFails r raised =>
      simp only [step, createFails] at hafter
      split at hafter
      · split at hafter <;> exact hsame rfl hafter
      · exact hsame rfl hafter
  | within r k => exact hsame (modify_requests r _) hafter
  | resume r sent =>
      simp only [step, resume] at hafter
      split at hafter
      · split at hafter
        · simp only [deliver] at hafter
          split at hafter
          · split at hafter
            · rename_i hrequest
              cases (setRequest_none (s := s.setRun r _) hrequest hother).symm.trans hafter
            · exact hsame rfl hafter
          · exact hsame rfl hafter
        · exact hsame rfl hafter
      · exact hsame rfl hafter
  | stopped r =>
      simp only [step, stopped] at hafter
      split at hafter
      · split at hafter
        · exact hpending hafter
        · exact hsame rfl hafter
      · exact hsame rfl hafter
  | arrive i body =>
      simp only [step, arrive] at hafter
      split at hafter
      · exact hsame rfl hafter
      · split at hafter
        · exact setRequest_eq_of_none hother hafter ▸ .refused ..
        · split at hafter
          · exact setRequest_eq_of_none hother hafter ▸ .refused ..
          · rename_i hsession
            split at hafter
            · exact hsame rfl hafter
            · obtain rfl := setRequest_eq_of_none (s := s.setRun _ _) hother hafter
              exact .accepted body.callId hsession
  | malformed i detail =>
      simp only [step, malformed] at hafter
      split at hafter
      · exact hsame rfl hafter
      · exact setRequest_eq_of_none hother hafter ▸ .refused ..
  | wake i =>
      simp only [step, wake] at hafter
      split at hafter
      · rename_i request hrequest
        split at hafter
        · cases (setRequest_none hrequest hother).symm.trans hafter
        · cases (setRequest_none (s := s.popRequest request)
            ((congrFun (popRequest_requests request) i).trans hrequest)
            ((congrFun (popRequest_requests request) j).trans hother)).symm.trans hafter
        · exact hsame rfl hafter
      · exact hsame rfl hafter
  | expire i =>
      simp only [step, expire] at hafter
      split at hafter
      · rename_i request hrequest
        split at hafter
        · cases (setRequest_none (s := s.popRequest request)
            ((congrFun (popRequest_requests request) i).trans hrequest)
            ((congrFun (popRequest_requests request) j).trans hother)).symm.trans hafter
        · exact hsame rfl hafter
      · exact hsame rfl hafter
  | shutdown => exact hpending hafter

/-! ### Each request is answered once -/

/-- Every request that is unanswered can still be answered. -/
def AllAwait (s : OpenCodeAdapter ρ ι) : Prop :=
  ∀ i request, s.requests i = some request → request.Awaits

theorem AllAwait.step (dumps : Json → String) (reprMessage : String → String)
    (k : AdapterStep ρ ι) (h : s.AllAwait) : (s.step dumps reprMessage k).AllAwait := by
  intro i after hafter
  cases hbefore : s.requests i with
  | none => exact (step_arrived dumps reprMessage k hbefore hafter).awaits
  | some request =>
      obtain ⟨next, hnext, hprogress⟩ := step_progress dumps reprMessage k hbefore
      obtain rfl : next = after := Option.some.inj (hnext.symm.trans hafter)
      exact hprogress.awaits (h i request hbefore)

omit [DecidableEq ρ] [DecidableEq ι] in
theorem allAwait_initial : (initial : OpenCodeAdapter ρ ι).AllAwait := nofun

def answerOf (s : OpenCodeAdapter ρ ι) (i : ι) : Option HttpResponse :=
  (s.requests i).bind ProposeRequest.answer

/-- What a step answers a request with. -/
def responses (dumps : Json → String) (reprMessage : String → String) (i : ι)
    (s : OpenCodeAdapter ρ ι) (k : AdapterStep ρ ι) : List HttpResponse :=
  match s.answerOf i, (s.step dumps reprMessage k).answerOf i with
  | none, some response => [response]
  | _, _ => []

theorem step_answerOf (dumps : Json → String) (reprMessage : String → String)
    (k : AdapterStep ρ ι) {i : ι} {response : HttpResponse} (h : s.answerOf i = some response) :
    (s.step dumps reprMessage k).answerOf i = some response := by
  obtain ⟨request, hrequest, hanswer⟩ := Option.bind_eq_some_iff.mp h
  obtain ⟨next, hnext, hprogress⟩ := step_progress dumps reprMessage k hrequest
  rw [answerOf, hnext]
  exact hprogress.keeps_answer hanswer

def after (dumps : Json → String) (reprMessage : String → String)
    (steps : List (AdapterStep ρ ι)) : OpenCodeAdapter ρ ι :=
  run (fun s => step s dumps reprMessage) initial steps

theorem after_snoc (dumps : Json → String) (reprMessage : String → String)
    (steps : List (AdapterStep ρ ι)) (k : AdapterStep ρ ι) :
    after dumps reprMessage (steps ++ [k]) =
      (after dumps reprMessage steps).step dumps reprMessage k := run_snoc ..

theorem allAwait_after (dumps : Json → String) (reprMessage : String → String)
    (steps : List (AdapterStep ρ ι)) : (after dumps reprMessage steps).AllAwait :=
  run_invariant allAwait_initial (fun _ k _ h => h.step dumps reprMessage k)

/-- The responses to a request over a run are its answer at the end, if there is
one. -/
theorem collect_responses (dumps : Json → String) (reprMessage : String → String)
    (steps : List (AdapterStep ρ ι)) (i : ι) :
    collect (fun s => step s dumps reprMessage) (responses dumps reprMessage i) initial steps =
      ((after dumps reprMessage steps).answerOf i).toList := by
  induction steps using List.reverseRecOn with
  | nil => rfl
  | append_singleton steps k ih =>
      rw [collect_snoc, ih, after_snoc]
      change _ ++ responses dumps reprMessage i (after dumps reprMessage steps) k = _
      unfold responses
      cases hbefore : (after dumps reprMessage steps).answerOf i with
      | none =>
          cases ((after dumps reprMessage steps).step dumps reprMessage k).answerOf i <;> rfl
      | some response =>
          rw [step_answerOf dumps reprMessage k hbefore]
          rfl

theorem expire_of_open {i : ι} {request : ProposeRequest ρ} {future : McpFuture}
    (hrequest : s.requests i = some request) (hanswer : request.answer = none)
    (hfuture : request.future = some future) :
    s.expire i = (s.popRequest request).setRequest i request.expire := by
  unfold expire
  rw [hrequest]
  dsimp only
  rw [hanswer, hfuture]

theorem wake_of_result (dumps : Json → String) (reprMessage : String → String) {i : ι}
    {request : ProposeRequest ρ} {result : ToolResult}
    (hrequest : s.requests i = some request) (hanswer : request.answer = none)
    (hfuture : request.future = some (.result result)) :
    s.wake dumps reprMessage i =
      s.setRequest i { request with answer := some (respond dumps result) } := by
  unfold wake
  rw [hrequest]
  dsimp only
  rw [hanswer, hfuture]

theorem wake_of_failed (dumps : Json → String) (reprMessage : String → String) {i : ι}
    {request : ProposeRequest ρ} {message : String}
    (hrequest : s.requests i = some request) (hanswer : request.answer = none)
    (hfuture : request.future = some (.failed message)) :
    s.wake dumps reprMessage i = (s.popRequest request).setRequest i { request with
      answer := some ⟨500,
        [("error", .str s!"validator error: RuntimeError({reprMessage message})")]⟩ } := by
  unfold wake
  rw [hrequest]
  dsimp only
  rw [hanswer, hfuture]

theorem expire_answers {i : ι} {request : ProposeRequest ρ}
    (hrequest : s.requests i = some request) (hawaits : request.Awaits) :
    (s.expire i).answerOf i ≠ none := by
  cases hanswer : request.answer with
  | some response =>
      have hkept := step_answerOf (fun _ => "") id (.expire i)
        (show s.answerOf i = some response by rw [answerOf, hrequest]; exact hanswer)
      exact fun h => nomatch hkept.symm.trans h
  | none =>
      obtain ⟨future, hfuture, -⟩ := hawaits hanswer
      rw [expire_of_open hrequest hanswer hfuture, answerOf, setRequest_self]
      exact nofun

/-- The handler answers as soon as the future is done. -/
theorem wake_answers (dumps : Json → String) (reprMessage : String → String) {i : ι}
    {request : ProposeRequest ρ} (hrequest : s.requests i = some request)
    (hawaits : request.Awaits) (hdone : request.future ≠ some .pending) :
    (s.wake dumps reprMessage i).answerOf i ≠ none := by
  cases hanswer : request.answer with
  | some response =>
      have hkept := step_answerOf dumps reprMessage (.wake i)
        (show s.answerOf i = some response by rw [answerOf, hrequest]; exact hanswer)
      exact fun h => nomatch hkept.symm.trans h
  | none =>
      obtain ⟨future, hfuture, hcancelled⟩ := hawaits hanswer
      cases future with
      | pending => exact absurd hfuture hdone
      | cancelled => exact absurd rfl hcancelled
      | result result =>
          rw [wake_of_result dumps reprMessage hrequest hanswer hfuture, answerOf, setRequest_self]
          exact nofun
      | failed message =>
          rw [wake_of_failed dumps reprMessage hrequest hanswer hfuture, answerOf, setRequest_self]
          exact nofun

end OpenCodeAdapter

end ForgeOS
