import ForgeOS.Kernel.AcpClient

/-!
How the requests of the ACP client fail. Each of them inspects what it reads
on its own, and what it expects of a message is not what an agent may send:
a value with no `error` to ask for, an error that is no object, a result of
another shape raise whatever Python raises there.
-/

namespace ForgeOS

open Library

def Json.IsObject : Json → Prop
  | .obj _ => True
  | _ => False

namespace Acp

/-- The responses a method can take: `error` can be looked for in them, an
error is an object, and without one they have the shape the method expects. -/
def AnswerFits (shape : Json → Prop) : Json → Prop
  | .obj entries =>
      match Dict.get? entries "error" with
      | some error => error.IsObject
      | none => shape (.obj entries)
  | .arr items => (∀ item ∈ items, item.str? ≠ some "error") ∧ shape (.arr items)
  | .str text => ¬"error".toList <:+: text.toList ∧ shape (.str text)
  | _ => False

/-- An object whose `result`, if it has one, is an object. -/
def HasResult (response : Json) : Prop :=
  ∃ result, response.getOr? "result" (.obj []) = some (.obj result)

/-- The `sessions` of its result are objects with an id. -/
def HasSessions (response : Json) : Prop :=
  ∃ result items, response.getOr? "result" (.obj []) = some (.obj result) ∧
    ((Dict.get? result "sessions").getD (.arr [])).toList? = some items ∧
    ∀ item ∈ items, ∃ session, item = .obj session ∧ (Dict.get? session "id").isSome = true

/-- The next line is a response a method can take, or none comes in time. -/
def NextFits (shape : Json → Prop) : List Receipt → Prop
  | .message msg :: _ => AnswerFits shape msg
  | .closed :: _ => False
  | .invalid :: _ => False
  | .timeout :: _ => True
  | .notRunning :: _ => True
  | [] => True

/-- The lines a prompt reads until it stops are objects, and an error in the
last of them is one. It may also be `null`, or the end of the output. -/
def PromptFits (reqId : Nat) : List Receipt → Prop
  | .message (.obj msg) :: rest =>
      if isUpdate msg then True
      else if carriesId reqId msg then AnswerFits (fun _ => True) (.obj msg)
      else PromptFits reqId rest
  | .message .null :: _ => True
  | .message _ :: _ => False
  | .invalid :: _ => False
  | .closed :: _ => True
  | .timeout :: _ => True
  | .notRunning :: _ => True
  | [] => True

/-- All the updates a prompt yields when it is read to its end, and how it
ends. -/
def promptRun (reqId : Nat) : List Receipt → List Json × Except AcpError Json
  | .message (.obj msg) :: rest =>
      if isUpdate msg then
        let run := promptRun reqId rest
        ((Dict.get? msg "params").getD (.obj []) :: run.1, run.2)
      else if carriesId reqId msg then
        ([], (checkError "prompt" "unknown error" (.obj msg)).map fun _ =>
          (Dict.get? msg "result").getD (.obj []))
      else promptRun reqId rest
  | .message .null :: _ => ([], .error .connectionClosed)
  | .message _ :: _ => ([], .error .raised)
  | .invalid :: _ => ([], .error .raised)
  | .closed :: _ => ([], .error .connectionClosed)
  | .timeout :: _ => ([], .error .timedOut)
  | .notRunning :: _ => ([], .error .notRunning)
  | [] => ([], .error .timedOut)

end Acp

namespace AcpClient

open Acp

/-- How a call fails, if it does. -/
def failure (s : AcpClient) : AcpCall → Option AcpError
  | .sendInitialize sending => errorOf ((sendInitialize sending).exec s).1
  | .sessionList sending => errorOf ((sessionList sending).exec s).1
  | .sessionResume sessionId sending => errorOf ((sessionResume sessionId sending).exec s).1
  | .sessionClose sending => errorOf ((sessionClose sending).exec s).1
  | .sessionConfigOptions sending => errorOf ((sessionConfigOptions sending).exec s).1
  | .prompt sending => errorOf ((prompt sending).exec s).1
  | .resumePrompt reqId => errorOf ((resumePrompt reqId).exec s).1

/-- What a call asks of the output, if its request is written; there may be no
process to write it to. -/
def SendFits (sending : Sending) (output : Prop) : Prop :=
  sending = .notRunning ∨ sending = .written ∧ output

/-- The request of a call can be written, and what the agent has put out is
what the method expects, or the client does not run. -/
def OutputFits (s : AcpClient) : AcpCall → Prop
  | .sendInitialize sending => SendFits sending (NextFits HasResult s.unread)
  | .sessionList sending => SendFits sending (NextFits HasSessions s.unread)
  | .sessionResume _ sending => SendFits sending (NextFits (fun _ => True) s.unread)
  | .sessionClose sending => SendFits sending (NextFits (fun _ => True) s.unread)
  | .sessionConfigOptions sending => SendFits sending (NextFits Json.IsObject s.unread)
  | .prompt sending => SendFits sending (PromptFits (s.msgId + 1) s.unread)
  | .resumePrompt reqId => reqId ∈ s.prompts → PromptFits reqId s.unread

/-! ### Single reads -/

/-- What fails in a computation that goes on with a value: its first part, or
the rest. -/
theorem errorOf_bind {α β : Type} (m : Acp α) (f : α → Acp β) (s : AcpClient) :
    errorOf ((m >>= f).exec s).1 =
      match m.exec s with
      | (.ok a, t) => errorOf ((f a).exec t).1
      | (.error error, _) => some error := by
  rw [Effect.exec_bind]
  rcases m.exec s with ⟨error | a, t⟩
  · rfl
  · rfl

theorem checkError_fits (operation default : String) (shape : Json → Prop) (response : Json) :
    AnswerFits shape response ↔
      (errorOf (checkError operation default response)).all AcpError.isClientError = true ∧
        (checkError operation default response = .ok () → shape response) := by
  cases response with
  | obj entries =>
      simp only [AnswerFits, checkError]
      cases Dict.get? entries "error" with
      | none => simp
      | some error => cases error <;> simp [Json.IsObject, Json.getOr?]
  | arr items =>
      simp only [AnswerFits, checkError, List.any_eq_true, decide_eq_true_eq]
      split_ifs with herror
      · obtain ⟨item, hitem, hword⟩ := herror
        constructor
        · rintro ⟨hnone, -⟩
          exact absurd hword (hnone item hitem)
        · rintro ⟨hraised, -⟩
          cases hraised
      · have hnone : ∀ item ∈ items, item.str? ≠ some "error" := fun item hitem hword =>
          herror ⟨item, hitem, hword⟩
        simpa using fun _ => hnone
  | str text =>
      simp only [AnswerFits, checkError]
      split_ifs with herror
      · refine iff_of_false (fun h => h.1 herror) fun h => ?_
        cases h.1
      · exact ⟨fun h => ⟨rfl, fun _ => h.2⟩, fun h => ⟨herror, h.2 rfl⟩⟩
  | _ => simp [AnswerFits, checkError]

/-- The answer a request finds in the next line. -/
def nextAnswer (operation default : String) : List Receipt → Except AcpError Json
  | .message msg :: _ => (checkError operation default msg).map fun _ => msg
  | .closed :: _ => .error .raised
  | .invalid :: _ => .error .raised
  | .timeout :: _ => .error .timedOut
  | .notRunning :: _ => .error .notRunning
  | [] => .error .timedOut

theorem exec_exchange (operation default : String) (s : AcpClient) :
    ((exchange operation default .written).exec s).1 = nextAnswer operation default s.unread := by
  have hcheck (response : Json) (t : AcpClient) :
      (((do
          Effect.ofExcept (checkError operation default response)
          return response) : Acp Json).exec t).1 =
        (checkError operation default response).map fun _ => response := by
    rw [Effect.exec_bind, Effect.exec_ofExcept]
    cases checkError operation default response <;> rfl
  unfold exchange nextAnswer
  rcases hunread : s.unread with _ | ⟨msg | _ | _ | _ | _, rest⟩
  · simp [sendRequest, Sending.error?, receive, Effect.exec_bind, hunread]
  · simp only [sendRequest, Sending.error?, receive, Effect.exec_bind, Effect.exec_get,
      Effect.exec_modify, Effect.exec_pure, hunread]
    cases isContainer msg with
    | true => exact hcheck msg _
    | false => exact hcheck msg _
  · simp only [sendRequest, Sending.error?, receive, Effect.exec_bind, Effect.exec_get,
      Effect.exec_modify, Effect.exec_pure, hunread]
    exact hcheck .null _
  · simp [sendRequest, Sending.error?, receive, Effect.exec_bind, hunread]
  · simp [sendRequest, Sending.error?, receive, Effect.exec_bind, hunread]
  · simp [sendRequest, Sending.error?, receive, Effect.exec_bind, hunread]

/-- A method that goes on with its answer: what it raises besides its own
error depends on the answer alone. -/
theorem exchange_fits {α : Type} (operation default : String) (sending : Sending)
    {shape : Json → Prop} {f : Json → Acp α}
    (hf : ∀ response t,
      (errorOf ((f response).exec t).1).all AcpError.isClientError = true ↔ shape response)
    (s : AcpClient) :
    (errorOf ((exchange operation default sending >>= f).exec s).1).all
        AcpError.isClientError = true ↔
      SendFits sending (NextFits shape s.unread) := by
  rw [errorOf_bind]
  cases sending with
  | written =>
      have hanswer := exec_exchange operation default s
      rcases hrun : (exchange operation default .written).exec s with ⟨outcome, t⟩
      rw [hrun] at hanswer
      subst hanswer
      rcases s.unread with _ | ⟨msg | _ | _ | _ | _, rest⟩
      · simp [nextAnswer, NextFits, SendFits]
      · simp only [nextAnswer, NextFits, SendFits, reduceCtorEq, false_or, true_and,
          checkError_fits operation default]
        cases checkError operation default msg with
        | ok _ => simpa [Except.map] using hf msg t
        | error error => simp [Except.map]
      all_goals simp [nextAnswer, NextFits, SendFits]
  | _ => simp [exchange, sendRequest, Sending.error?, SendFits, Effect.exec_bind]

/-! ### The methods -/

theorem sendInitialize_fits (sending : Sending) (s : AcpClient) :
    (errorOf ((sendInitialize sending).exec s).1).all AcpError.isClientError = true ↔
      SendFits sending (NextFits HasResult s.unread) := by
  refine exchange_fits "initialize" "initialize failed" sending (fun response t => ?_) s
  rw [errorOf_bind, Effect.exec_ofExcept, getAttr, HasResult]
  cases response.getOr? "result" (.obj []) with
  | none => simp
  | some result =>
      cases result with
      | obj entries =>
          simp only [errorOf_bind, getAttr, Json.getOr?, Effect.exec_ofExcept,
            Effect.exec_modify, Effect.exec_pure]
          simp
      | _ => simp [getAttr, Json.getOr?, Effect.exec_bind]

theorem sessionInfo_ok_iff (session : Json) :
    (sessionInfo session).isOk = true ↔
      ∃ entries, session = .obj entries ∧ (Dict.get? entries "id").isSome = true := by
  cases session with
  | obj entries =>
      simp only [sessionInfo, Json.obj.injEq, exists_eq_left']
      cases Dict.get? entries "id" <;> simp [Except.isOk, Except.toBool]
  | _ => simp [sessionInfo, Except.isOk, Except.toBool]

theorem sessionInfo_error {session : Json} {error : AcpError}
    (h : sessionInfo session = .error error) : error = .raised := by
  unfold sessionInfo at h
  split at h
  · split at h
    · cases h
    · exact (Except.error.inj h).symm
  · exact (Except.error.inj h).symm

/-- The list of sessions fails at one that is no session, and then raises. -/
theorem sessions_fit (items : List Json) :
    (errorOf (items.mapM sessionInfo)).all AcpError.isClientError = true ↔
      ∀ item ∈ items, ∃ session, item = .obj session ∧
        (Dict.get? session "id").isSome = true := by
  simp only [← sessionInfo_ok_iff]
  induction items with
  | nil => simp [pure, Except.pure]
  | cons item rest ih =>
      rw [List.mapM_cons, List.forall_mem_cons, ← ih]
      cases hitem : sessionInfo item with
      | error error => simp [sessionInfo_error hitem, Except.isOk, Except.toBool]
      | ok info =>
          cases rest.mapM sessionInfo <;> simp [Except.isOk, Except.toBool, pure, Except.pure]

theorem sessionList_fits (sending : Sending) (s : AcpClient) :
    (errorOf ((sessionList sending).exec s).1).all AcpError.isClientError = true ↔
      SendFits sending (NextFits HasSessions s.unread) := by
  refine exchange_fits "session list" "session list failed" sending (fun response t => ?_) s
  rw [errorOf_bind, Effect.exec_ofExcept, getAttr, HasSessions]
  cases response.getOr? "result" (.obj []) with
  | none => simp
  | some result =>
      cases result with
      | obj entries =>
          simp only [errorOf_bind, Effect.exec_ofExcept, getAttr, Json.getOr?]
          cases hitems : ((Dict.get? entries "sessions").getD (.arr [])).toList? with
          | none => simp [hitems]
          | some items => simp [hitems, sessions_fit]
      | _ => simp [getAttr, Json.getOr?, Effect.exec_bind]

theorem sessionConfigOptions_fits (sending : Sending) (s : AcpClient) :
    (errorOf ((sessionConfigOptions sending).exec s).1).all AcpError.isClientError = true ↔
      SendFits sending (NextFits Json.IsObject s.unread) := by
  refine exchange_fits "config options" "config options failed" sending (fun response t => ?_) s
  cases response <;> simp [getAttr, Json.getOr?, Json.IsObject]

theorem sessionResume_fits (sessionId : String) (sending : Sending) (s : AcpClient) :
    (errorOf ((sessionResume sessionId sending).exec s).1).all AcpError.isClientError = true ↔
      SendFits sending (NextFits (fun _ => True) s.unread) := by
  refine exchange_fits "session resume" "resume failed" sending (fun response t => ?_) s
  simp

theorem sessionClose_fits (sending : Sending) (s : AcpClient) :
    (errorOf ((sessionClose sending).exec s).1).all AcpError.isClientError = true ↔
      SendFits sending (NextFits (fun _ => True) s.unread) := by
  refine exchange_fits "session close" "close failed" sending (fun response t => ?_) s
  simp

/-! ### Prompts -/

theorem continuePrompt_fits (reqId : Nat) (s : AcpClient) :
    (errorOf ((continuePrompt reqId).exec s).1).all AcpError.isClientError = true ↔
      PromptFits reqId s.unread := by
  unfold continuePrompt
  simp only [errorOf_bind, Effect.exec_get, Effect.exec_modify]
  generalize s.unread = unread
  fun_induction readPrompt reqId unread with
  | case7 msg rest hupdate =>
      simp only [PromptFits, hupdate, if_true, errorOf_bind, Effect.exec_modify, Effect.exec_pure]
      simp
  | case8 msg rest hupdate hcarries =>
      simp only [PromptFits, hupdate, hcarries, if_true, Bool.false_eq_true, if_false, takeAnswer,
        errorOf_bind, Effect.exec_modify, Effect.exec_ofExcept, Effect.exec_pure,
        checkError_fits "prompt" "unknown error"]
      cases checkError "prompt" "unknown error" (.obj msg) <;> simp
  | case9 msg rest hupdate hcarries ih =>
      rw [ih]
      simp [PromptFits, hupdate, hcarries]
  | case10 msg rest hnull hobj =>
      cases msg with
      | null => exact absurd rfl hnull
      | obj entries => exact absurd rfl (hobj entries)
      | _ => simp [PromptFits]
  | _ => simp [PromptFits]

/-- The generator hands out the next update of its run, or ends as that does. -/
theorem continuePrompt_run (reqId : Nat) (s : AcpClient) :
    (∃ params, ((continuePrompt reqId).exec s).1 = .ok (.update params) ∧
      reqId ∈ ((continuePrompt reqId).exec s).2.prompts ∧
      promptRun reqId s.unread =
        (params :: (promptRun reqId ((continuePrompt reqId).exec s).2.unread).1,
          (promptRun reqId ((continuePrompt reqId).exec s).2.unread).2)) ∨
    ∃ ending, promptRun reqId s.unread = ([], ending) ∧
      ((continuePrompt reqId).exec s).1 = ending.map .result := by
  unfold continuePrompt
  simp only [Effect.exec_bind, Effect.exec_get, Effect.exec_modify]
  generalize s.unread = unread
  fun_induction readPrompt reqId unread with
  | case7 msg rest hupdate =>
      exact Or.inl ⟨_, rfl, List.mem_cons_self, by simp only [promptRun, hupdate, if_true]; rfl⟩
  | case8 msg rest hupdate hcarries =>
      refine Or.inr ⟨_, by simp only [promptRun, hupdate, hcarries]; rfl, ?_⟩
      simp only [takeAnswer, Effect.exec_bind, Effect.exec_modify, Effect.exec_ofExcept]
      cases checkError "prompt" "unknown error" (.obj msg) <;> rfl
  | case9 msg rest hupdate hcarries ih =>
      simpa [promptRun, hupdate, hcarries] using ih
  | case10 msg rest hnull hobj =>
      cases msg with
      | null => exact absurd rfl hnull
      | obj entries => exact absurd rfl (hobj entries)
      | _ => exact Or.inr ⟨_, rfl, rfl⟩
  | _ => exact Or.inr ⟨_, rfl, rfl⟩

theorem prompt_fits (sending : Sending) (s : AcpClient) :
    (errorOf ((prompt sending).exec s).1).all AcpError.isClientError = true ↔
      SendFits sending (PromptFits (s.msgId + 1) s.unread) := by
  cases sending with
  | written =>
      rw [prompt, errorOf_bind]
      simp only [sendRequest, Sending.error?, Effect.exec_bind, Effect.exec_get,
        Effect.exec_modify, Effect.exec_pure, SendFits, reduceCtorEq, false_or, true_and]
      exact continuePrompt_fits _ _
  | _ => simp [prompt, sendRequest, Sending.error?, SendFits, Effect.exec_bind]

theorem resumePrompt_fits (reqId : Nat) (s : AcpClient) :
    (errorOf ((resumePrompt reqId).exec s).1).all AcpError.isClientError = true ↔
      (reqId ∈ s.prompts → PromptFits reqId s.unread) := by
  simp only [resumePrompt, errorOf_bind, Effect.exec_get]
  split_ifs with hopen
  · have hfits := continuePrompt_fits reqId { s with prompts := s.prompts.erase reqId }
    simp only [errorOf_bind, Effect.exec_modify, hopen, forall_const]
    rw [← hfits]
    cases (continuePrompt reqId).exec { s with prompts := s.prompts.erase reqId } with
    | mk outcome t => cases outcome <;> simp
  · simp [hopen]

/-- A call raises `ACPClientError` or nothing, exactly if what the agent puts
out is what the method expects. -/
theorem failure_iff_outputFits (s : AcpClient) (call : AcpCall) :
    (s.failure call).all AcpError.isClientError = true ↔ s.OutputFits call := by
  cases call with
  | sendInitialize sending => exact sendInitialize_fits sending s
  | sessionList sending => exact sessionList_fits sending s
  | sessionResume sessionId sending => exact sessionResume_fits sessionId sending s
  | sessionClose sending => exact sessionClose_fits sending s
  | sessionConfigOptions sending => exact sessionConfigOptions_fits sending s
  | prompt sending => exact prompt_fits sending s
  | resumePrompt reqId => exact resumePrompt_fits reqId s

end AcpClient

end ForgeOS
