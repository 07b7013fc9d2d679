import ForgeOS.Json
import ForgeOS.Library.Effect
import Mathlib.Data.Rat.Defs
import Mathlib.Logic.Function.Basic

/-!
The inbound side of the client of the Codex app-server. One reader takes the
messages the server writes, resolves the futures of the client's own requests
and puts everything else into the queue of the thread it names. A thread has
a queue only once the call that started it has run on from its response, and
the reader does not wait for that: what arrives in between goes to the orphan
queue, which nobody reads.
-/

namespace ForgeOS

open Library

namespace AppServer

/-- The request a response's `id` finds in `_pending`: keys compare by value,
so booleans and integral floats find integers. `none` is the error of an
unhashable key. -/
def pendingKey : Json → Option (Option Int)
  | .bool value => some (some (if value then 1 else 0))
  | .int value => some (some value)
  | .float (.finite value) => some (if value.den = 1 then some value.num else none)
  | .arr _ | .obj _ => none
  | _ => some none

/-- The key `_thread_queues` is asked for: nothing for a false one, an error
for one that cannot be hashed. Keys of other types than strings find no
thread. -/
def threadKey (threadId : Json) : Option (Option String) :=
  if threadId.truthy then
    match threadId with
    | .str value => some (some value)
    | .arr _ | .obj _ => none
    | _ => some none
  else some none

/-- The thread a notification or a server request is routed by: `threadId`,
else the id of its `thread`, else that of its `item`. Params of another shape
raise. -/
def threadOf (msg : JsonObject) : Option (Option String) := do
  let params := Json.or ((msg.get? "params").getD .null) (.obj [])
  let own ← params.get? "threadId"
  let thread ← params.get? "thread"
  let item ← params.get? "item"
  if own.truthy then threadKey own
  else
    let threadId ← (thread.or (.obj [])).get? "id"
    if threadId.truthy then threadKey threadId
    else
      let itemThread ← (item.or (.obj [])).get? "threadId"
      threadKey itemThread

/-- How `_dispatch` treats a message. -/
inductive Inbound where
  | response (key : Option Int)
  | routed (thread : Option String)
deriving DecidableEq

/-- A message with an `id` and no `method` answers one of our requests; any
other is routed. `none` is an exception, which ends the read loop. -/
def classify : Json → Option Inbound
  | .obj msg =>
      match Dict.get? msg "id", Dict.get? msg "method" with
      | some msgId, none => (pendingKey msgId).map .response
      | _, _ => (threadOf msg).map .routed
  | _ => none

/-- What a response resolves its future with. -/
def outcome : Json → Except Json Json
  | .obj msg =>
      match Dict.get? msg "error" with
      | some error => .error error
      | none => .ok ((Dict.get? msg "result").getD (.obj []))
  | other => .error other

/-- `value[key]`. -/
def item? : Json → String → Option Json
  | .obj entries, key => Dict.get? entries key
  | _, _ => none

/-- `result["thread"]["id"]`, for the thread ids the protocol has. -/
def createdThread : Except Json Json → Option String
  | .ok result => do
      let thread ← item? result "thread"
      let threadId ← item? thread "id"
      threadId.str?
  | .error _ => none

/-- Where one `spawn_agent` call stands with its thread. -/
inductive SpawnCall where
  | idle
  | waiting (reqId : Int)
  | answered (response : Except Json Json)
  | registered (threadId : String)
  | finished

end AppServer

open AppServer

/-- The client, and the `spawn_agent` calls that share it. A pending request
without a call is one whose answer starts no thread. The queue of a call is
everything put into it, taken out again or not. -/
structure AppServerClient (ι : Type) where
  nextId : Int
  pending : Int → Option (Option ι)
  threadQueues : String → Option ι
  orphanQueue : List Json
  inbound : ι → List Json
  reading : Bool
  calls : ι → SpawnCall

/-- One step of the calls or of the reader. -/
inductive ClientStep (ι : Type) where
  | start (call : ι)
  | request
  | arrive (msg : Json)
  | resume (call : ι)
  | finish (call : ι)

namespace AppServerClient

variable {ι : Type} [DecidableEq ι]

omit [DecidableEq ι] in
def initial : AppServerClient ι :=
  ⟨0, fun _ => none, fun _ => none, [], fun _ => [], true, fun _ => .idle⟩

omit [DecidableEq ι] in
/-- `request` up to its `await`, for a request that starts no thread. -/
def request (s : AppServerClient ι) : AppServerClient ι :=
  { s with
    nextId := s.nextId + 1
    pending := Function.update s.pending (s.nextId + 1) (some none) }

/-- `request("thread/start")` up to its `await`. -/
def startThread (s : AppServerClient ι) (call : ι) : AppServerClient ι :=
  { s with
    nextId := s.nextId + 1
    pending := Function.update s.pending (s.nextId + 1) (some (some call))
    calls := Function.update s.calls call (.waiting (s.nextId + 1)) }

/-- `register_thread`, by the call that has received its response. -/
def registerThread (s : AppServerClient ι) (call : ι) (threadId : String) : AppServerClient ι :=
  { s with
    threadQueues := Function.update s.threadQueues threadId (some call)
    inbound := Function.update s.inbound call []
    calls := Function.update s.calls call (.registered threadId) }

/-- `unregister_thread`, when the generator of a call ends. -/
def unregisterThread (s : AppServerClient ι) (call : ι) (threadId : String) :
    AppServerClient ι :=
  { s with
    threadQueues := Function.update s.threadQueues threadId none
    calls := Function.update s.calls call .finished }

/-- The future of a request is resolved; the call that awaits it runs later. -/
def resolve (s : AppServerClient ι) (reqId : Int) (msg : Json) : AppServerClient ι :=
  match s.pending reqId with
  | none => s
  | some none => { s with pending := Function.update s.pending reqId none }
  | some (some call) =>
      { s with
        pending := Function.update s.pending reqId none
        calls := Function.update s.calls call (.answered (outcome msg)) }

/-- The queue of the thread, else the orphan queue. -/
def route (s : AppServerClient ι) (thread : Option String) (msg : Json) : AppServerClient ι :=
  match thread.bind s.threadQueues with
  | some call => { s with inbound := Function.update s.inbound call (s.inbound call ++ [msg]) }
  | none => { s with orphanQueue := s.orphanQueue ++ [msg] }

/-- `_dispatch`; `none` when it raises. -/
def dispatch (s : AppServerClient ι) (msg : Json) : Option (AppServerClient ι) :=
  match classify msg with
  | none => none
  | some (.response none) => some s
  | some (.response (some reqId)) => some (s.resolve reqId msg)
  | some (.routed thread) => some (s.route thread msg)

/-- A call starts its thread once, runs on when its future is done, and ends
once it has a queue; a response without a thread id ends it as well. The read
loop is over after the first exception of `_dispatch`. -/
def step (s : AppServerClient ι) : ClientStep ι → AppServerClient ι
  | .start call =>
      match s.calls call with
      | .idle => s.startThread call
      | _ => s
  | .request => s.request
  | .arrive msg =>
      if s.reading then
        match s.dispatch msg with
        | some after => after
        | none => { s with reading := false }
      else s
  | .resume call =>
      match s.calls call with
      | .answered response =>
          match createdThread response with
          | some threadId => s.registerThread call threadId
          | none => { s with calls := Function.update s.calls call .finished }
      | _ => s
  | .finish call =>
      match s.calls call with
      | .registered threadId => s.unregisterThread call threadId
      | _ => s

/-! ### Delivery -/

/-- The messages of a schedule that name a thread. -/
def carries (msg : Json) (threadId : String) : Prop :=
  classify msg = some (.routed (some threadId))

instance (msg : Json) (threadId : String) : Decidable (carries msg threadId) :=
  inferInstanceAs (Decidable (_ = _))

def arrivals (threadId : String) : List (ClientStep ι) → List Json
  | [] => []
  | .arrive msg :: rest =>
      if carries msg threadId then msg :: arrivals threadId rest else arrivals threadId rest
  | _ :: rest => arrivals threadId rest

/-- The call a message answers, with the thread its response creates. -/
def creates (s : AppServerClient ι) (msg : Json) : Option (ι × String) :=
  if s.reading then
    match classify msg with
    | some (.response (some reqId)) =>
        match s.pending reqId with
        | some (some call) => (createdThread (outcome msg)).map (call, ·)
        | _ => none
    | _ => none
  else none

/-- The reader runs, and a message of the thread goes to the queue of the call. -/
def Serves (s : AppServerClient ι) (call : ι) (threadId : String) : Prop :=
  s.reading = true ∧ s.threadQueues threadId = some call

instance (s : AppServerClient ι) (call : ι) (threadId : String) :
    Decidable (s.Serves call threadId) :=
  inferInstanceAs (Decidable (_ ∧ _))

/-- What arrives for a thread after the response that creates it is in the
queue of its session, once and in the order of arrival. -/
def DeliversAll (steps : List (ClientStep ι)) : Prop :=
  ∀ before msg after call threadId, steps = before ++ .arrive msg :: after →
    (run step initial before).creates msg = some (call, threadId) →
    (run step initial steps).calls call = .registered threadId →
    (run step initial steps).inbound call = arrivals threadId after

/-- What arrives for a thread after the response that creates it finds the
reader running and the thread registered by the call the response is for. -/
def RegisteredInTime (steps : List (ClientStep ι)) : Prop :=
  ∀ before msg after call threadId, steps = before ++ .arrive msg :: after →
    (run step initial before).creates msg = some (call, threadId) →
    (run step initial steps).calls call = .registered threadId →
    Throughout step (fun s st => ∀ next, st = .arrive next → carries next threadId →
      s.Serves call threadId) (run step initial (before ++ [.arrive msg])) after

/-- Futures belong to calls that wait for them, queues to calls that have
registered them, and nothing is in a queue before. -/
structure Consistent (s : AppServerClient ι) : Prop where
  waits : ∀ reqId call, s.pending reqId = some (some call) → s.calls call = .waiting reqId
  owns : ∀ threadId call, s.threadQueues threadId = some call →
    s.calls call = .registered threadId
  fresh : ∀ call, (∀ threadId, s.calls call ≠ .registered threadId) →
    s.calls call ≠ .finished → s.inbound call = []

omit [DecidableEq ι] in
theorem consistent_initial : (initial : AppServerClient ι).Consistent where
  waits := by intro reqId call h; cases h
  owns := by intro threadId call h; cases h
  fresh := by intro call _ _; rfl

variable {s : AppServerClient ι}

/-- A call in another phase is not the one that moves on. -/
private theorem calls_update {call other : ι} {phase phase' next : SpawnCall}
    (hcall : s.calls call = phase) (hother : s.calls other = phase') (hne : phase ≠ phase') :
    Function.update s.calls call next other = phase' := by
  rw [Function.update_of_ne, hother]
  rintro rfl
  exact hne (hcall.symm.trans hother)

omit [DecidableEq ι] in
theorem Consistent.request (h : s.Consistent) : s.request.Consistent where
  waits := by
    intro reqId call hpending
    simp only [AppServerClient.request, Function.update_apply] at hpending
    split at hpending
    · cases hpending
    · exact h.waits reqId call hpending
  owns := h.owns
  fresh := h.fresh

theorem Consistent.startThread (h : s.Consistent) {call : ι} (hidle : s.calls call = .idle) :
    (s.startThread call).Consistent where
  waits := by
    intro reqId other hpending
    simp only [AppServerClient.startThread, Function.update_apply] at hpending
    simp only [AppServerClient.startThread]
    split at hpending
    · rename_i hreq
      obtain rfl : call = other := Option.some.inj (Option.some.inj hpending)
      rw [Function.update_self, hreq]
    · exact calls_update hidle (h.waits reqId other hpending) (by simp)
  owns := by
    intro threadId other hqueue
    exact calls_update hidle (h.owns threadId other hqueue) (by simp)
  fresh := by
    intro other hregistered hfinished
    by_cases hother : other = call
    · subst hother
      exact h.fresh other (by simp [hidle]) (by simp [hidle])
    · simp only [AppServerClient.startThread, Function.update_of_ne hother] at *
      exact h.fresh other hregistered hfinished

theorem Consistent.resolve (h : s.Consistent) (reqId : Int) (msg : Json) :
    (s.resolve reqId msg).Consistent := by
  unfold AppServerClient.resolve
  split
  · exact h
  · refine ⟨?_, h.owns, h.fresh⟩
    intro other call hpending
    simp only [Function.update_apply] at hpending
    split at hpending
    · cases hpending
    · exact h.waits other call hpending
  · rename_i call hcall
    have hwaiting := h.waits reqId call hcall
    refine ⟨?_, ?_, ?_⟩
    · intro other waiter hpending
      simp only [Function.update_apply] at hpending
      split at hpending
      · cases hpending
      · rename_i hne
        refine calls_update hwaiting (h.waits other waiter hpending) ?_
        intro hsame
        exact hne (SpawnCall.waiting.inj hsame).symm
    · intro threadId owner hqueue
      exact calls_update hwaiting (h.owns threadId owner hqueue) (by simp)
    · intro other hregistered hfinished
      by_cases hother : other = call
      · subst hother
        exact h.fresh other (by simp [hwaiting]) (by simp [hwaiting])
      · simp only [Function.update_of_ne hother] at hregistered hfinished
        exact h.fresh other hregistered hfinished

theorem Consistent.route (h : s.Consistent) (thread : Option String) (msg : Json) :
    (s.route thread msg).Consistent := by
  unfold AppServerClient.route
  split
  · rename_i call hqueue
    obtain ⟨threadId, -, hthread⟩ := Option.bind_eq_some_iff.mp hqueue
    refine ⟨h.waits, h.owns, ?_⟩
    intro other hregistered hfinished
    have hother : other ≠ call := by
      rintro rfl
      exact hregistered threadId (h.owns threadId other hthread)
    simp only [Function.update_of_ne hother]
    exact h.fresh other hregistered hfinished
  · exact ⟨h.waits, h.owns, h.fresh⟩

theorem Consistent.registerThread (h : s.Consistent) {call : ι} {response : Except Json Json}
    (hcall : s.calls call = .answered response) (threadId : String) :
    (s.registerThread call threadId).Consistent where
  waits := by
    intro reqId other hpending
    exact calls_update hcall (h.waits reqId other hpending) (by simp)
  owns := by
    intro other owner hqueue
    simp only [AppServerClient.registerThread, Function.update_apply] at hqueue
    simp only [AppServerClient.registerThread]
    split at hqueue
    · rename_i hsame
      obtain rfl : call = owner := Option.some.inj hqueue
      rw [Function.update_self, hsame]
    · exact calls_update hcall (h.owns other owner hqueue) (by simp)
  fresh := by
    intro other hregistered hfinished
    by_cases hother : other = call
    · subst hother
      simp only [AppServerClient.registerThread, Function.update_self]
    · simp only [AppServerClient.registerThread, Function.update_of_ne hother] at *
      exact h.fresh other hregistered hfinished

theorem Consistent.unregisterThread (h : s.Consistent) {call : ι} {threadId : String}
    (hcall : s.calls call = .registered threadId) :
    (s.unregisterThread call threadId).Consistent where
  waits := by
    intro reqId other hpending
    exact calls_update hcall (h.waits reqId other hpending) (by simp)
  owns := by
    intro other owner hqueue
    simp only [AppServerClient.unregisterThread, Function.update_apply] at hqueue
    split at hqueue
    · cases hqueue
    · rename_i hne
      refine calls_update hcall (h.owns other owner hqueue) ?_
      intro hsame
      exact hne (SpawnCall.registered.inj hsame).symm
  fresh := by
    intro other hregistered hfinished
    by_cases hother : other = call
    · subst hother
      simp [AppServerClient.unregisterThread] at hfinished
    · simp only [AppServerClient.unregisterThread, Function.update_of_ne hother] at *
      exact h.fresh other hregistered hfinished

/-- A call that raises on its response waits for nothing and owns nothing. -/
theorem Consistent.raise (h : s.Consistent) {call : ι} {response : Except Json Json}
    (hcall : s.calls call = .answered response) :
    ({ s with calls := Function.update s.calls call .finished } :
      AppServerClient ι).Consistent where
  waits := by
    intro reqId other hpending
    exact calls_update hcall (h.waits reqId other hpending) (by simp)
  owns := by
    intro threadId owner hqueue
    exact calls_update hcall (h.owns threadId owner hqueue) (by simp)
  fresh := by
    intro other hregistered hfinished
    by_cases hother : other = call
    · subst hother
      simp at hfinished
    · simp only [Function.update_of_ne hother] at hregistered hfinished
      exact h.fresh other hregistered hfinished

theorem Consistent.step (h : s.Consistent) (st : ClientStep ι) : (s.step st).Consistent := by
  cases st with
  | start call =>
      simp only [AppServerClient.step]
      split
      · rename_i hidle
        exact h.startThread hidle
      · exact h
  | request => exact h.request
  | arrive msg =>
      simp only [AppServerClient.step, dispatch]
      split
      · split
        · rename_i after hafter
          split at hafter
          · cases hafter
          · exact Option.some.inj hafter ▸ h
          · exact Option.some.inj hafter ▸ h.resolve _ msg
          · exact Option.some.inj hafter ▸ h.route _ msg
        · exact ⟨h.waits, h.owns, h.fresh⟩
      · exact h
  | resume call =>
      simp only [AppServerClient.step]
      split
      · rename_i response hcall
        split
        · exact h.registerThread hcall _
        · exact h.raise hcall
      · exact h
  | finish call =>
      simp only [AppServerClient.step]
      split
      · rename_i threadId hcall
        exact h.unregisterThread hcall
      · exact h

theorem consistent_run (steps : List (ClientStep ι)) : (run step initial steps).Consistent :=
  run_invariant consistent_initial fun _ _ _ h => h.step _

/-! ### One thread from its response on -/

/-- The call has the response that creates the thread: it has not run on from
it, or has the thread's queue, or has ended. -/
def Created (s : AppServerClient ι) (call : ι) (threadId : String) : Prop :=
  (∃ response, s.calls call = .answered response ∧ createdThread response = some threadId) ∨
    s.calls call = .registered threadId ∨ s.calls call = .finished

/-- The message a step puts into the queue of the call. -/
def delivers (s : AppServerClient ι) (call : ι) (threadId : String) : ClientStep ι → List Json
  | .arrive msg => if carries msg threadId ∧ s.Serves call threadId then [msg] else []
  | _ => []

/-- The messages a schedule puts there. -/
def delivered (call : ι) (threadId : String) (s : AppServerClient ι) :
    List (ClientStep ι) → List Json
  | [] => []
  | st :: rest => s.delivers call threadId st ++ delivered call threadId (s.step st) rest

variable {call : ι} {threadId : String}

theorem answered_of_creates {msg : Json} (h : s.creates msg = some (call, threadId)) :
    ∃ response, (s.step (.arrive msg)).calls call = .answered response ∧
      createdThread response = some threadId := by
  unfold creates at h
  split at h
  · rename_i hreading
    split at h
    · rename_i reqId hclass
      split at h
      · rename_i waiter hpending
        obtain ⟨created, hcreated, hpair⟩ := Option.map_eq_some_iff.mp h
        obtain ⟨rfl, rfl⟩ := Prod.mk.inj hpair
        refine ⟨outcome msg, ?_, hcreated⟩
        simp only [step, hreading, if_true, dispatch, hclass, resolve, hpending,
          Function.update_self]
      · cases h
    · cases h
  · cases h

omit [DecidableEq ι] in
/-- A call with its response waits for no future. -/
theorem Created.not_waiting (h : s.Created call threadId) (reqId : Int) :
    s.calls call ≠ .waiting reqId := by
  rcases h with ⟨response, hcall, -⟩ | hcall | hcall <;> simp [hcall]

omit [DecidableEq ι] in
theorem Created.owned (h : s.Created call threadId) (hcons : s.Consistent) {other : String}
    (hqueue : s.threadQueues other = some call) : other = threadId := by
  have howns := hcons.owns other call hqueue
  rcases h with ⟨response, hcall, -⟩ | hcall | hcall
  · rw [hcall] at howns
    cases howns
  · exact SpawnCall.registered.inj (howns.symm.trans hcall)
  · rw [hcall] at howns
    cases howns

omit [DecidableEq ι] in
/-- Steps of other calls leave the phase of this one alone. -/
theorem Created.of_calls {after : AppServerClient ι} (h : s.Created call threadId)
    (hcalls : after.calls call = s.calls call) : after.Created call threadId := by
  unfold Created
  rw [hcalls]
  exact h

/-- A response sets the future of another call. -/
theorem Created.resolve (h : s.Created call threadId) (hcons : s.Consistent) (reqId : Int)
    (msg : Json) : (s.resolve reqId msg).Created call threadId := by
  unfold AppServerClient.resolve
  split
  · exact h
  · exact h
  · rename_i other hpending
    refine h.of_calls (Function.update_of_ne ?_ _ _)
    rintro rfl
    exact h.not_waiting reqId (hcons.waits reqId _ hpending)

theorem Created.step (h : s.Created call threadId) (hcons : s.Consistent) (st : ClientStep ι) :
    (s.step st).Created call threadId := by
  cases st with
  | start other =>
      simp only [AppServerClient.step]
      split
      · rename_i hidle
        refine h.of_calls (Function.update_of_ne ?_ _ _)
        rintro rfl
        rcases h with ⟨response, hcall, -⟩ | hcall | hcall <;> simp [hidle] at hcall
      · exact h
  | request => exact h
  | arrive msg =>
      simp only [AppServerClient.step, dispatch]
      split
      · split
        · rename_i after hafter
          split at hafter
          · cases hafter
          · exact Option.some.inj hafter ▸ h
          · rename_i reqId hclass
            rw [← Option.some.inj hafter]
            exact h.resolve hcons reqId msg
          · rw [← Option.some.inj hafter]
            unfold route
            split <;> exact h
        · exact h
      · exact h
  | resume other =>
      simp only [AppServerClient.step]
      split
      · rename_i response hother
        by_cases hsame : call = other
        · subst hsame
          rcases h with ⟨response', hcall, hcreated⟩ | hcall | hcall
          · obtain rfl : response = response' := SpawnCall.answered.inj (hother.symm.trans hcall)
            simp only [hcreated]
            exact Or.inr (Or.inl (Function.update_self ..))
          · rw [hcall] at hother
            cases hother
          · rw [hcall] at hother
            cases hother
        · split
          · exact h.of_calls (Function.update_of_ne hsame _ _)
          · exact h.of_calls (Function.update_of_ne hsame _ _)
      · exact h
  | finish other =>
      simp only [AppServerClient.step]
      split
      · by_cases hsame : call = other
        · subst hsame
          exact Or.inr (Or.inr (Function.update_self ..))
        · exact h.of_calls (Function.update_of_ne hsame _ _)
      · exact h

/-- Routing puts a message into the queue of the call exactly when it names
the thread the call has registered. -/
theorem inbound_route (hcons : s.Consistent) (h : s.Created call threadId)
    (thread : Option String) (msg : Json) :
    (s.route thread msg).inbound call = s.inbound call ++
      if thread = some threadId ∧ s.threadQueues threadId = some call then [msg] else [] := by
  unfold route
  split
  · rename_i owner hqueue
    obtain ⟨other, rfl, hother⟩ := Option.bind_eq_some_iff.mp hqueue
    by_cases howner : owner = call
    · subst howner
      obtain rfl := h.owned hcons hother
      rw [if_pos ⟨rfl, hother⟩]
      exact Function.update_self ..
    · rw [if_neg, List.append_nil]
      · exact Function.update_of_ne (Ne.symm howner) _ _
      · rintro ⟨hthread, hcall⟩
        rw [Option.some.inj hthread, hcall] at hother
        exact howner (Option.some.inj hother).symm
  · rename_i hqueue
    rw [if_neg, List.append_nil]
    rintro ⟨rfl, hcall⟩
    rw [Option.bind_some, hcall] at hqueue
    cases hqueue

/-- One step puts at most the message it dispatches into the queue. -/
theorem inbound_step (hcons : s.Consistent) (h : s.Created call threadId) (st : ClientStep ι) :
    (s.step st).inbound call = s.inbound call ++ s.delivers call threadId st := by
  cases st with
  | start other =>
      simp only [step, delivers, List.append_nil]
      split <;> rfl
  | request => simp only [step, request, delivers, List.append_nil]
  | arrive msg =>
      simp only [step, delivers, Serves, carries, dispatch]
      by_cases hreading : s.reading = true
      · simp only [hreading, if_true, true_and]
        cases hclass : classify msg with
        | none => simp
        | some kind =>
            cases kind with
            | response key =>
                cases key with
                | none => simp
                | some reqId =>
                    simp only [Option.some.injEq, reduceCtorEq, false_and, if_false,
                      List.append_nil, resolve]
                    split <;> rfl
            | routed thread =>
                simpa only [Option.some.injEq, Inbound.routed.injEq] using
                  inbound_route hcons h thread msg
      · simp [hreading]
  | resume other =>
      simp only [step, delivers, List.append_nil]
      split
      · rename_i response hother
        split
        · by_cases hsame : call = other
          · subst hsame
            rw [hcons.fresh call (by simp [hother]) (by simp [hother])]
            exact Function.update_self ..
          · exact Function.update_of_ne hsame _ _
        · rfl
      · rfl
  | finish other =>
      simp only [step, delivers, List.append_nil]
      split <;> rfl

/-- A schedule puts what it delivers into the queue, in order. -/
theorem inbound_run (hcons : s.Consistent) (h : s.Created call threadId)
    (steps : List (ClientStep ι)) :
    (run step s steps).inbound call = s.inbound call ++ delivered call threadId s steps := by
  induction steps generalizing s with
  | nil => simp [delivered]
  | cons st rest ih =>
      have hrest := ih (hcons.step st) (h.step hcons st)
      rw [inbound_step hcons h st, List.append_assoc] at hrest
      exact hrest

theorem delivered_sublist (call : ι) (threadId : String) (s : AppServerClient ι)
    (steps : List (ClientStep ι)) :
    (delivered call threadId s steps).Sublist (arrivals threadId steps) := by
  induction steps generalizing s with
  | nil => exact .slnil
  | cons st rest ih =>
      cases st with
      | arrive msg =>
          simp only [delivered, delivers, arrivals]
          by_cases hcarries : carries msg threadId
          · by_cases hserves : s.Serves call threadId
            · simpa [hcarries, hserves] using ih _
            · simpa [hcarries, hserves] using (ih _).cons msg
          · simpa [hcarries] using ih _
      | _ => exact ih _

/-- Everything that arrives is delivered exactly if each message finds its
queue served. -/
theorem delivered_eq_iff (call : ι) (threadId : String) (s : AppServerClient ι)
    (steps : List (ClientStep ι)) :
    delivered call threadId s steps = arrivals threadId steps ↔
      Throughout step (fun t st => ∀ next, st = .arrive next → carries next threadId →
        t.Serves call threadId) s steps := by
  induction steps generalizing s with
  | nil => simp [delivered, arrivals, throughout_nil]
  | cons st rest ih =>
      rw [throughout_cons, ← ih]
      cases st with
      | arrive msg =>
          simp only [delivered, delivers, arrivals, ClientStep.arrive.injEq, forall_eq']
          by_cases hcarries : carries msg threadId
          · by_cases hserves : s.Serves call threadId
            · simp [hcarries, hserves]
            · have hlength :=
                (delivered_sublist call threadId (s.step (.arrive msg)) rest).length_le
              simp only [hcarries, hserves, and_false, if_false, List.nil_append, if_true,
                forall_const, false_and, iff_false]
              intro heq
              rw [heq, List.length_cons] at hlength
              omega
          · simp [hcarries]
      | _ => simp [delivered, delivers, arrivals]

/-- Messages for a new thread are delivered exactly in the schedules where each
of them arrives after the thread is registered and while the reader runs. Those
that come in between go to a queue that nothing reads. -/
theorem deliversAll_iff (steps : List (ClientStep ι)) :
    DeliversAll steps ↔ RegisteredInTime steps := by
  have hqueue (before : List (ClientStep ι)) (msg : Json) (after : List (ClientStep ι)) (call : ι)
      (threadId : String) (hcreates : (run step initial before).creates msg =
        some (call, threadId)) :
      (run step initial (before ++ .arrive msg :: after)).inbound call =
        delivered call threadId (run step initial (before ++ [.arrive msg])) after := by
    obtain ⟨response, hanswered, hcreated⟩ := answered_of_creates hcreates
    have hcons := (consistent_run before).step (.arrive msg)
    have hempty := hcons.fresh call (by simp [hanswered]) (by simp [hanswered])
    have hrun := inbound_run hcons (Or.inl ⟨response, hanswered, hcreated⟩) after
    rw [hempty, List.nil_append] at hrun
    rw [run_snoc, ← hrun, run_append]
    rfl
  constructor
  · intro hall before msg after call threadId hsteps hcreates hregistered
    rw [← delivered_eq_iff, ← hqueue before msg after call threadId hcreates, ← hsteps]
    exact hall before msg after call threadId hsteps hcreates hregistered
  · intro hall before msg after call threadId hsteps hcreates hregistered
    rw [hsteps, hqueue before msg after call threadId hcreates, delivered_eq_iff]
    exact hall before msg after call threadId hsteps hcreates hregistered

/-- The first notification of a thread, in the same burst as the response
that creates it. -/
def turnStarted : Json :=
  .obj [("method", .str "turn/started"), ("params", .obj [("threadId", .str "t1")])]

def threadStarted : Json :=
  .obj [("id", .int 1), ("result", .obj [("thread", .obj [("id", .str "t1")])])]

theorem burst_before_registration_is_lost :
    ¬DeliversAll [.start (), .arrive threadStarted, .arrive turnStarted, .resume ()] := by
  intro hall
  have hqueue := hall [.start ()] threadStarted [.arrive turnStarted, .resume ()] () "t1" rfl rfl
    rfl
  exact List.cons_ne_nil turnStarted [] hqueue.symm

end AppServerClient

end ForgeOS
