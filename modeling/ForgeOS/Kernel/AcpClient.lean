import ForgeOS.Json
import ForgeOS.Library.Effect
import Mathlib.Data.List.Infix
import Mathlib.Data.Rat.Defs

/-!
The requests of the ACP client. All of them share the stream of lines the
agent writes, in which notifications, requests of the agent and late responses
come in between. `prompt` reads until it finds its id; the other methods take
the next line for their answer.
-/

namespace ForgeOS

open Library

/-- What one `_receive` comes back with. -/
inductive Receipt where
  | message (msg : Json)
  | closed
  | invalid
  | timeout
  /-- The process has been stopped. -/
  | notRunning

/-- How one `_send` ends: the line is written, or there is no process to write
it to, or writing raises an `OSError`, as into a broken pipe, or any other
exception, as for a text that has no encoding. -/
inductive Sending where
  | written
  | notRunning
  | broken
  | refused
deriving DecidableEq, Repr

/-- `ACPClientError` in its forms, or any other exception. -/
inductive AcpError where
  | timedOut
  | connectionClosed
  /-- `ACP process not running`. -/
  | notRunning
  /-- `ACP … failed: …`. -/
  | failed (operation : String) (detail : Json)
  | osError
  | raised

/-- The exception is an `ACPClientError`. -/
@[simp]
def AcpError.isClientError : AcpError → Bool
  | .timedOut | .connectionClosed | .notRunning | .failed _ _ => true
  | .osError | .raised => false

/-- What `_send` raises, if it does. -/
def Sending.error? : Sending → Option AcpError
  | .written => none
  | .notRunning => some .notRunning
  | .broken => some .osError
  | .refused => some .raised

/-- The client. What `_receive` will come back with, call for call, is given
from the start; `prompts` are the generators that wait to be resumed, and
`taken` the messages taken as the answers to requests so far. -/
structure AcpClient where
  msgId : Nat
  sessionId : Json
  serverInfo : Json
  unread : List Receipt
  prompts : List Nat
  taken : List (Nat × Json)

/-- A computation of the client. -/
abbrev Acp (α : Type) := Effect AcpClient AcpError α

namespace Acp

/-- A message `"error" in response` can be asked of. -/
def isContainer : Json → Bool
  | .str _ | .arr _ | .obj _ => true
  | _ => false

/-- `response["id"] == request_id`, for a response that has an id. -/
def carriesId (reqId : Nat) (msg : JsonObject) : Bool :=
  match (msg.get? "id").bind Json.number? with
  | some number => number.eq (.finite reqId)
  | none => false

/-- `_receive`: a closed output is `None`, and with nothing left it times out. -/
def receive : Acp Json := do
  let client ← get
  modify fun client => { client with unread := client.unread.tail }
  match client.unread with
  | .message msg :: _ => return msg
  | .closed :: _ => return .null
  | .invalid :: _ => throw .raised
  | .timeout :: _ => throw .timedOut
  | .notRunning :: _ => throw .notRunning
  | [] => throw .timedOut

/-- `_build_request` and `_send`. -/
def sendRequest (sending : Sending) : Acp Nat := do
  let reqId := (← get).msgId + 1
  modify fun client => { client with msgId := client.msgId + 1 }
  match sending.error? with
  | none => return reqId
  | some error => throw error

/-- A message is taken as the answer to a request. -/
def takeAnswer (reqId : Nat) (msg : Json) : Acp Unit :=
  modify fun client => { client with taken := client.taken ++ [(reqId, msg)] }

/-- `if "error" in response: raise`. -/
def checkError (operation default : String) : Json → Except AcpError Unit
  | .obj entries =>
      match Dict.get? entries "error" with
      | none => .ok ()
      | some error =>
          match error.getOr? "message" (.str default) with
          | some detail => .error (.failed operation detail)
          | none => .error .raised
  | .arr items => if items.any fun item => item.str? = some "error" then .error .raised else .ok ()
  | .str text => if "error".toList <:+: text.toList then .error .raised else .ok ()
  | _ => .error .raised

/-- `value.get(key, default)`, or the `AttributeError` of what has no `get`. -/
def getAttr (value : Json) (key : String) (default : Json) : Except AcpError Json :=
  match value.getOr? key default with
  | some found => .ok found
  | none => .error .raised

/-- The request of every method but `prompt`: the next line is its answer. -/
def exchange (operation default : String) (sending : Sending) : Acp Json := do
  let reqId ← sendRequest sending
  let response ← receive
  if isContainer response then takeAnswer reqId response
  Effect.ofExcept (checkError operation default response)
  return response

/-- `_initialize`. -/
def sendInitialize (sending : Sending) : Acp Json := do
  let response ← exchange "initialize" "initialize failed" sending
  let result ← Effect.ofExcept (getAttr response "result" (.obj []))
  let serverInfo ← Effect.ofExcept (getAttr result "serverInfo" (.obj []))
  modify fun client => { client with serverInfo := serverInfo }
  let sessionId ← Effect.ofExcept (getAttr result "sessionId" .null)
  modify fun client => { client with sessionId := sessionId }
  return result

structure SessionInfo where
  id : Json
  title : Json
  metadata : Json

def sessionInfo (session : Json) : Except AcpError SessionInfo :=
  match session with
  | .obj entries =>
      match Dict.get? entries "id" with
      | some id => .ok ⟨id, (Dict.get? entries "title").getD .null,
          (Dict.get? entries "metadata").getD (.obj [])⟩
      | none => .error .raised
  | _ => .error .raised

def sessionList (sending : Sending) : Acp (List SessionInfo) := do
  let response ← exchange "session list" "session list failed" sending
  let result ← Effect.ofExcept (getAttr response "result" (.obj []))
  let sessions ← Effect.ofExcept (getAttr result "sessions" (.arr []))
  match sessions.toList? with
  | some items => Effect.ofExcept (items.mapM sessionInfo)
  | none => throw .raised

def sessionResume (sessionId : String) (sending : Sending) : Acp Unit := do
  let _ ← exchange "session resume" "resume failed" sending
  modify fun client => { client with sessionId := .str sessionId }

def sessionClose (sending : Sending) : Acp Unit := do
  let _ ← exchange "session close" "close failed" sending

def sessionConfigOptions (sending : Sending) : Acp Json := do
  let response ← exchange "config options" "config options failed" sending
  Effect.ofExcept (getAttr response "result" (.obj []))

/-! ### Prompts -/

/-- How the loop of `prompt` stops reading. -/
inductive PromptStop where
  | yielded (params : Json)
  | answered (msg : JsonObject)
  | raised (error : AcpError)

def isUpdate (msg : JsonObject) : Bool :=
  (msg.get? "method").bind Json.str? = some "session/update"

/-- The loop of `prompt`, up to its next `yield` or its end, with what is left
unread. -/
def readPrompt (reqId : Nat) : List Receipt → PromptStop × List Receipt
  | [] => (.raised .timedOut, [])
  | .timeout :: rest => (.raised .timedOut, rest)
  | .notRunning :: rest => (.raised .notRunning, rest)
  | .invalid :: rest => (.raised .raised, rest)
  | .closed :: rest => (.raised .connectionClosed, rest)
  | .message .null :: rest => (.raised .connectionClosed, rest)
  | .message (.obj msg) :: rest =>
      if isUpdate msg then (.yielded ((Dict.get? msg "params").getD (.obj [])), rest)
      else if carriesId reqId msg then (.answered msg, rest)
      else readPrompt reqId rest
  | .message _ :: rest => (.raised .raised, rest)

/-- What a `prompt` generator hands out: an update, or its result. -/
inductive PromptValue where
  | update (params : Json)
  | result (value : Json)

/-- The generator runs on, having sending its request. -/
def continuePrompt (reqId : Nat) : Acp PromptValue := do
  let client ← get
  let stop := readPrompt reqId client.unread
  modify fun client => { client with unread := stop.2 }
  match stop.1 with
  | .yielded params =>
      modify fun client => { client with prompts := reqId :: client.prompts }
      return .update params
  | .answered msg =>
      takeAnswer reqId (.obj msg)
      Effect.ofExcept (checkError "prompt" "unknown error" (.obj msg))
      return .result ((Dict.get? msg "result").getD (.obj []))
  | .raised error => throw error

/-- The first `next` of a generator. -/
def prompt (sending : Sending) : Acp PromptValue := do
  let reqId ← sendRequest sending
  continuePrompt reqId

/-- A further `next`. A generator that is exhausted, abandoned or unknown does
nothing. -/
def resumePrompt (reqId : Nat) : Acp (Option PromptValue) := do
  if reqId ∈ (← get).prompts then
    modify fun client => { client with prompts := client.prompts.erase reqId }
    return some (← continuePrompt reqId)
  else return none

end Acp

/-- One call of the client. -/
inductive AcpCall where
  | sendInitialize (sending : Sending)
  | sessionList (sending : Sending)
  | sessionResume (sessionId : String) (sending : Sending)
  | sessionClose (sending : Sending)
  | sessionConfigOptions (sending : Sending)
  | prompt (sending : Sending)
  | resumePrompt (reqId : Nat)

namespace AcpClient

open Acp

def initial (unread : List Receipt) : AcpClient := ⟨0, .null, .obj [], unread, [], []⟩

def step (s : AcpClient) : AcpCall → AcpClient
  | .sendInitialize sending => ((sendInitialize sending).exec s).2
  | .sessionList sending => ((sessionList sending).exec s).2
  | .sessionResume sessionId sending => ((sessionResume sessionId sending).exec s).2
  | .sessionClose sending => ((sessionClose sending).exec s).2
  | .sessionConfigOptions sending => ((sessionConfigOptions sending).exec s).2
  | .prompt sending => ((prompt sending).exec s).2
  | .resumePrompt reqId => ((resumePrompt reqId).exec s).2

/-- A response carries the id of its request and no method. -/
def IsResponseTo (reqId : Nat) (msg : Json) : Prop :=
  ∃ entries, msg = .obj entries ∧ carriesId reqId entries = true ∧
    Dict.get? entries "method" = none

/-- Every message taken as an answer is the response to that request. -/
def AnswersMatch (s : AcpClient) : Prop :=
  ∀ answer ∈ s.taken, IsResponseTo answer.1 answer.2

/-- The messages a prompt reads until it stops. -/
def promptReads (reqId : Nat) : List Receipt → List JsonObject
  | .message (.obj msg) :: rest =>
      if isUpdate msg || carriesId reqId msg then [msg] else msg :: promptReads reqId rest
  | _ => []

/-- No message the prompt reads is a request of the agent with the prompt's
own id. -/
def NoForeignRequest (reqId : Nat) (unread : List Receipt) : Prop :=
  ∀ msg ∈ promptReads reqId unread, isUpdate msg = false → carriesId reqId msg = true →
    Dict.get? msg "method" = none

/-- The next line, when it is a container, is the response to the request that
is sending now: nothing else is unread before it. -/
def NextIsResponse (s : AcpClient) (sending : Sending) : Prop :=
  sending = .written → ∀ msg rest, s.unread = .message msg :: rest → isContainer msg = true →
    IsResponseTo (s.msgId + 1) msg

/-- What a call needs of the stream for its answer to be its own response. -/
def StreamFits (s : AcpClient) : AcpCall → Prop
  | .sendInitialize sending => s.NextIsResponse sending
  | .sessionList sending => s.NextIsResponse sending
  | .sessionResume _ sending => s.NextIsResponse sending
  | .sessionClose sending => s.NextIsResponse sending
  | .sessionConfigOptions sending => s.NextIsResponse sending
  | .prompt sending => sending = .written → NoForeignRequest (s.msgId + 1) s.unread
  | .resumePrompt reqId => reqId ∈ s.prompts → NoForeignRequest reqId s.unread

/-! ### What a call takes for its answer -/

def takenBySingleRead (s : AcpClient) (sending : Sending) : List (Nat × Json) :=
  match sending, s.unread with
  | .written, .message msg :: _ => if isContainer msg then [(s.msgId + 1, msg)] else []
  | _, _ => []

/-- What a prompt takes. -/
def takenByPrompt (reqId : Nat) (unread : List Receipt) : List (Nat × Json) :=
  match (readPrompt reqId unread).1 with
  | .answered msg => [(reqId, .obj msg)]
  | _ => []

variable {s : AcpClient}

/-- The computation takes no message for an answer. -/
private def KeepsTaken {α : Type} (m : Acp α) : Prop := ∀ t, (m.exec t).2.taken = t.taken

private theorem taken_bind {α β : Type} {m : Acp α} {f : α → Acp β}
    (h : ∀ a, KeepsTaken (f a)) (s : AcpClient) :
    ((m >>= f).exec s).2.taken = (m.exec s).2.taken := by
  rw [Effect.exec_bind]
  rcases m.exec s with ⟨outcome, t⟩
  cases outcome with
  | ok a => exact h a t
  | error error => rfl

private theorem keepsTaken_bind {α β : Type} {m : Acp α} {f : α → Acp β} (hm : KeepsTaken m)
    (h : ∀ a, KeepsTaken (f a)) : KeepsTaken (m >>= f) := fun t =>
  (taken_bind h t).trans (hm t)

private theorem keepsTaken_ofExcept {α : Type} (outcome : Except AcpError α) :
    KeepsTaken (Effect.ofExcept outcome) := fun _ => rfl

private theorem keepsTaken_pure {α : Type} (a : α) : KeepsTaken (pure a : Acp α) := fun _ => rfl

theorem taken_exchange (operation default : String) (sending : Sending) (s : AcpClient) :
    ((exchange operation default sending).exec s).2.taken =
      s.taken ++ s.takenBySingleRead sending := by
  unfold exchange takenBySingleRead
  cases sending with
  | written =>
      rcases hunread : s.unread with _ | ⟨msg | _ | _ | _ | _, rest⟩
      · simp [sendRequest, receive, Effect.exec_bind, hunread, Sending.error?]
      · cases hcontainer : isContainer msg with
        | true =>
            simp only [sendRequest, Sending.error?, receive, takeAnswer, Effect.exec_bind,
              Effect.exec_get, Effect.exec_modify, Effect.exec_pure, hunread, hcontainer, if_true,
              Effect.exec_ofExcept]
            cases checkError operation default msg <;> rfl
        | false =>
            simp only [sendRequest, Sending.error?, receive, Effect.exec_bind, Effect.exec_get,
              Effect.exec_modify, Effect.exec_pure, hunread, hcontainer,
              Bool.false_eq_true, if_false, Effect.exec_ofExcept, List.append_nil]
            cases checkError operation default msg <;> rfl
      · simp only [sendRequest, Sending.error?, receive, Effect.exec_bind, Effect.exec_get,
          Effect.exec_modify, Effect.exec_pure, hunread, isContainer, Bool.false_eq_true, if_false,
          Effect.exec_ofExcept, List.append_nil]
        generalize checkError operation default _ = checked
        cases checked <;> rfl
      all_goals simp [sendRequest, receive, Effect.exec_bind, hunread, Sending.error?]
  | _ => simp [sendRequest, Effect.exec_bind, Sending.error?]

theorem taken_continuePrompt (reqId : Nat) (s : AcpClient) :
    ((continuePrompt reqId).exec s).2.taken = s.taken ++ takenByPrompt reqId s.unread := by
  unfold continuePrompt takenByPrompt
  simp only [Effect.exec_bind, Effect.exec_get, Effect.exec_modify]
  cases (readPrompt reqId s.unread).1 with
  | yielded params =>
      simp only [Effect.exec_bind, Effect.exec_modify, Effect.exec_pure, List.append_nil]
  | answered msg =>
      simp only [takeAnswer, Effect.exec_bind, Effect.exec_modify, Effect.exec_ofExcept]
      cases checkError "prompt" "unknown error" (.obj msg) <;> rfl
  | raised error => simp

/-- What one call takes for its answer. -/
def takenBy (s : AcpClient) : AcpCall → List (Nat × Json)
  | .prompt sending =>
      if sending = .written then takenByPrompt (s.msgId + 1) s.unread else []
  | .resumePrompt reqId => if reqId ∈ s.prompts then takenByPrompt reqId s.unread else []
  | .sendInitialize sending | .sessionList sending | .sessionResume _ sending
  | .sessionClose sending | .sessionConfigOptions sending => s.takenBySingleRead sending

theorem taken_step (s : AcpClient) (call : AcpCall) :
    (s.step call).taken = s.taken ++ s.takenBy call := by
  cases call with
  | sendInitialize sending =>
      refine (taken_bind (fun response => ?_) s).trans (taken_exchange ..)
      exact keepsTaken_bind (keepsTaken_ofExcept _) fun result =>
        keepsTaken_bind (keepsTaken_ofExcept _) fun serverInfo =>
          keepsTaken_bind (fun _ => rfl) fun _ =>
            keepsTaken_bind (keepsTaken_ofExcept _) fun sessionId =>
              keepsTaken_bind (fun _ => rfl) fun _ => keepsTaken_pure _
  | sessionList sending =>
      refine (taken_bind (fun response => ?_) s).trans (taken_exchange ..)
      refine keepsTaken_bind (keepsTaken_ofExcept _) fun result =>
        keepsTaken_bind (keepsTaken_ofExcept _) fun sessions => ?_
      split
      · exact keepsTaken_ofExcept _
      · exact fun _ => rfl
  | sessionResume sessionId sending =>
      exact (taken_bind (fun response _ => rfl) s).trans (taken_exchange ..)
  | sessionClose sending =>
      exact (taken_bind (fun response => keepsTaken_pure _) s).trans (taken_exchange ..)
  | sessionConfigOptions sending =>
      exact (taken_bind (fun response => keepsTaken_ofExcept _) s).trans (taken_exchange ..)
  | prompt sending =>
      cases sending with
      | written =>
          simp only [step, prompt, sendRequest, Sending.error?, takenBy, Effect.exec_bind,
            Effect.exec_get, Effect.exec_modify, Effect.exec_pure, if_true]
          exact taken_continuePrompt _ _
      | _ => simp [step, prompt, sendRequest, Sending.error?, takenBy, Effect.exec_bind]
  | resumePrompt reqId =>
      simp only [step, resumePrompt, takenBy, Effect.exec_bind, Effect.exec_get]
      split
      · rename_i hopen
        rw [Effect.exec_bind_ok _ (Effect.exec_modify _ s)]
        exact (taken_bind (fun value => keepsTaken_pure (some value)) _).trans
          (taken_continuePrompt reqId _)
      · simp

/-! ### When the answers match -/

theorem singleRead_matches_iff (s : AcpClient) (sending : Sending) :
    (∀ answer ∈ s.takenBySingleRead sending, IsResponseTo answer.1 answer.2) ↔
      s.NextIsResponse sending := by
  unfold takenBySingleRead NextIsResponse
  cases sending with
  | written =>
      rcases hunread : s.unread with _ | ⟨msg | _ | _ | _ | _, rest⟩
      · simp
      · cases hcontainer : isContainer msg <;> simp [hcontainer]
      · simp
      · simp
      · simp
      · simp
  | _ => simp

theorem prompt_matches_iff (reqId : Nat) (unread : List Receipt) :
    (∀ answer ∈ takenByPrompt reqId unread, IsResponseTo answer.1 answer.2) ↔
      NoForeignRequest reqId unread := by
  unfold takenByPrompt NoForeignRequest
  fun_induction readPrompt reqId unread with
  | case7 msg rest hupdate => simp [promptReads, hupdate]
  | case8 msg rest hupdate hcarries => simp [promptReads, hupdate, hcarries, IsResponseTo]
  | case9 msg rest hupdate hcarries ih =>
      rw [ih]
      simp [promptReads, hupdate, hcarries]
  | case10 msg rest hnull hobj =>
      cases msg with
      | obj entries => exact absurd rfl (hobj entries)
      | _ => simp [promptReads]
  | _ => simp [promptReads]

theorem takenBy_matches_iff (s : AcpClient) (call : AcpCall) :
    (∀ answer ∈ s.takenBy call, IsResponseTo answer.1 answer.2) ↔ s.StreamFits call := by
  cases call with
  | prompt sending =>
      cases sending with
      | written => simpa [takenBy, StreamFits] using prompt_matches_iff (s.msgId + 1) s.unread
      | _ => simp [takenBy, StreamFits]
  | resumePrompt reqId =>
      by_cases hopen : reqId ∈ s.prompts
      · simpa [takenBy, StreamFits, hopen] using prompt_matches_iff reqId s.unread
      · simp [takenBy, StreamFits, hopen]
  | _ => exact singleRead_matches_iff s _

/-- All along a run the answers taken are the responses to their requests,
exactly if every call finds the stream fitting. Only a prompt looks for its own
id; the other calls take the next message. -/
theorem answersMatch_throughout_iff (unread : List Receipt) (calls : List AcpCall) :
    (∀ before after, calls = before ++ after → (run step (initial unread) before).AnswersMatch) ↔
      Throughout step StreamFits (initial unread) calls := by
  refine run_throughout_iff step (K := fun _ => True) calls (fun _ _ _ _ => trivial) ?_ trivial
    (by simp [AnswersMatch, initial])
  intro s call _ _ hmatch
  rw [← takenBy_matches_iff, AnswersMatch, taken_step]
  constructor
  · intro hall answer hanswer
    exact hall answer (List.mem_append_right _ hanswer)
  · intro hnew answer hanswer
    rcases List.mem_append.mp hanswer with hold | hnext
    · exact hmatch answer hold
    · exact hnew answer hnext

def lateAnswer : Json := .obj [("id", .int 1), ("result", .obj [("stopReason", .str "end_turn")])]

/-- A prompt is abandoned at its first update, and the list of sessions is
read off its late response. -/
theorem late_answer_is_taken :
    ¬∀ before after, [AcpCall.prompt .written, .sessionList .written] = before ++ after →
      (run step (initial [.message (.obj [("method", .str "session/update")]),
        .message lateAnswer]) before).AnswersMatch := by
  intro hall
  obtain ⟨entries, hentries, hid, -⟩ :=
    hall [.prompt .written, .sessionList .written] [] rfl (2, lateAnswer) List.mem_cons_self
  obtain rfl := Json.obj.inj hentries
  exact absurd hid (by decide)

end AcpClient

end ForgeOS
