import ForgeOS.Adapters.Driving
import ForgeOS.Library.Effect
import Mathlib.Algebra.GroupWithZero.Nat
import Mathlib.Algebra.Order.Group.Int
import Mathlib.Algebra.Order.Group.Unbundled.Basic
import Mathlib.Data.List.Induction
import Mathlib.Order.Monotone.Defs

/-!
One run of the comparison harness: a kernel is driven through a task, a judge
answers its proposals, and a recorder counts and times what the kernel yields.
-/

namespace ForgeOS

open Library

/-- One task run identically across every kernel. No tools means those of the
persona. -/
structure BenchTask where
  taskId : String
  context : String
  tools : List String := []
  expectedContains : List String := []
deriving DecidableEq, Repr

/-- Answers proposals so that the kernel can continue. -/
abbrev ProposalJudge := ToolUseProposal → BenchTask → Except PyError ToolResult

/-- `AutoApproveJudge.decide` -/
def autoApproveJudge (content : Json) : ProposalJudge := fun proposal _ =>
  .ok { toolUseId := proposal.toolUseId, content, isError := false }

/-- `ScriptedJudge.decide` -/
def scriptedJudge (script : Dict String (Json × Bool)) (default : Json × Bool) : ProposalJudge :=
  fun proposal _ =>
    let outcome := (script.get? proposal.abstractTool).getD default
    .ok { toolUseId := proposal.toolUseId, content := outcome.1, isError := outcome.2 }

inductive RunStatus where
  | completed
  | failed
  | timeout
  | error
deriving DecidableEq, Repr

/-- Times are numbers of an ordered group. -/
structure RunResult (κ : Type) where
  kernelId : String
  taskId : String
  runIndex : Nat
  status : RunStatus
  wallClock : κ
  timeToFirstEvent : Option κ
  timeToFirstToken : Option κ
  timeToCompletion : Option κ
  numProposals : Nat
  toolLoopOverhead : κ
  textChars : Nat
  thinkingChars : Nat
  reportedInputTokens : Option Int
  reportedOutputTokens : Option Int
  serverToolExecs : Nat
  eventCounts : Dict EventKind Nat
  finalOutput : String
  error : Option String

/-- Accumulates timing and counts while a run is in flight. -/
structure Recorder (κ : Type) where
  startedAt : κ
  firstEventAt : Option κ := none
  firstTokenAt : Option κ := none
  completionAt : Option κ := none
  pendingSendAt : Option κ := none
  numProposals : Nat := 0
  toolLoopOverhead : κ
  textChars : Nat := 0
  thinkingChars : Nat := 0
  inTokens : Option Int := none
  outTokens : Option Int := none
  serverToolExecs : Nat := 0
  eventCounts : Dict EventKind Nat := []
  textParts : List String := []
  agentFailed : Bool := false

/-- The event in what a kernel yields. -/
def Yielded.normalized : Yielded → NormalizedEvent
  | .event plain => plain
  | .proposal proposed => proposed.toNormalizedEvent

/-! ### Usage -/

/-- `isinstance(value, int)`, with the number; booleans are integers. -/
def Json.int? : Json → Option Int
  | .int value => some value
  | .bool value => some (if value then 1 else 0)
  | _ => none

def firstInt (usage : JsonObject) (keys : List String) : Option Int :=
  keys.findSome? fun key => (usage.get? key).bind Json.int?

/-- `found or old` -/
def foundOr (found old : Option Int) : Option Int :=
  if found = none ∨ found = some 0 then old else found

def usageKeys : List String := ["usage", "token_usage", "tokenUsage", "tokens"]

section Recording

variable {κ : Type} [AddCommGroup κ]

namespace Recorder

/-- What is absorbed of one usage entry. -/
def absorb (recorder : Recorder κ) : Option Json → Recorder κ
  | some (.obj usage) => { recorder with
      inTokens := foundOr (firstInt usage ["input_tokens", "prompt_tokens", "input", "in"])
        recorder.inTokens
      outTokens := foundOr (firstInt usage ["output_tokens", "completion_tokens", "output", "out"])
        recorder.outTokens }
  | some value => { recorder with outTokens := value.int?.or recorder.outTokens }
  | none => recorder

def absorbUsage (recorder : Recorder κ) (payload : JsonObject) : Recorder κ :=
  usageKeys.foldl (fun recorder key => recorder.absorb (payload.get? key)) recorder

def markSend (recorder : Recorder κ) (now : κ) : Recorder κ :=
  { recorder with pendingSendAt := some now }

end Recorder

/-- `str(payload.get("text", ""))`, with `str` of what is not a string. -/
def payloadText (str : Json → String) (payload : JsonObject) : String :=
  match payload.get? "text" with
  | none => ""
  | some (.str text) => text
  | some value => str value

namespace Recorder

/-- The timing that `observe` does of every event. -/
def arrive (recorder : Recorder κ) (now : κ) : Recorder κ :=
  { recorder with
    firstEventAt := recorder.firstEventAt.or (some now)
    toolLoopOverhead :=
      recorder.toolLoopOverhead + recorder.pendingSendAt.elim 0 fun sent => now - sent
    pendingSendAt := none }

/-- What `observe` counts of an event. -/
def count (recorder : Recorder κ) (str : Json → String) (now : κ) (event : NormalizedEvent) :
    Recorder κ :=
  let counted := { recorder with
    eventCounts := recorder.eventCounts.set event.kind
      ((recorder.eventCounts.get? event.kind).getD 0 + 1) }
  match event.kind with
  | .textDelta =>
      let text := payloadText str event.payload
      { counted with
        textChars := counted.textChars + text.length
        textParts := counted.textParts ++ [text]
        firstTokenAt := counted.firstTokenAt.or (if text ≠ "" then some now else none) }
  | .thinkingDelta =>
      { counted with
        thinkingChars := counted.thinkingChars + (payloadText str event.payload).length }
  | .toolUseProposed => { counted with numProposals := counted.numProposals + 1 }
  | .serverToolExecuted => { counted with serverToolExecs := counted.serverToolExecs + 1 }
  | .agentFailed => { counted with agentFailed := true, completionAt := some now }
  | .agentCompleted => { counted with completionAt := some now }
  | _ => counted

def observe (recorder : Recorder κ) (str : Json → String) (now : κ) (event : NormalizedEvent) :
    Recorder κ :=
  ((recorder.arrive now).count str now event).absorbUsage event.payload

def finish (recorder : Recorder κ) (kernelId taskId : String) (runIndex : Nat) (now : κ)
    (status : RunStatus) (error : Option String) : RunResult κ where
  kernelId := kernelId
  taskId := taskId
  runIndex := runIndex
  status := if status = .completed ∧ recorder.agentFailed then .failed else status
  wallClock := now - recorder.startedAt
  timeToFirstEvent := recorder.firstEventAt.map (· - recorder.startedAt)
  timeToFirstToken := recorder.firstTokenAt.map (· - recorder.startedAt)
  timeToCompletion := recorder.completionAt.map (· - recorder.startedAt)
  numProposals := recorder.numProposals
  toolLoopOverhead := recorder.toolLoopOverhead
  textChars := recorder.textChars
  thinkingChars := recorder.thinkingChars
  reportedInputTokens := recorder.inTokens
  reportedOutputTokens := recorder.outTokens
  serverToolExecs := recorder.serverToolExecs
  eventCounts := recorder.eventCounts
  finalOutput := pyStrip (String.join recorder.textParts)
  error := error

end Recorder

/-! ### The driver -/

/-- How driving a kernel ends. -/
inductive Ending where
  | returned
  | raised (error : PyError)
  | timedOut

/-- What a run takes from its surroundings: the readings of the clock, which
answers of the kernel arrive before the time is up, the judge, and `str`. -/
structure BenchRun (κ : Type) where
  clock : Nat → κ
  arrives : Nat → Bool
  judge : ProposalJudge
  task : BenchTask
  str : Json → String

/-- A run that has been driven to its end, with how often the clock was read. -/
structure Driven (κ : Type) where
  recorder : Recorder κ
  ending : Ending
  readings : Nat

namespace BenchRun

variable (bench : BenchRun κ) {ω : Type}

/-- `_drive`, of a kernel that has answered so often. -/
def drive (recorder : Recorder κ) (readings answers : Nat) : AdapterGen ω → Driven κ
  | .done =>
      if bench.arrives answers then ⟨recorder, .returned, readings⟩
      else ⟨recorder, .timedOut, readings⟩
  | .raise error =>
      if bench.arrives answers then ⟨recorder, .raised error, readings⟩
      else ⟨recorder, .timedOut, readings⟩
  | .wait => ⟨recorder, .timedOut, readings⟩
  | .act _ next => drive recorder readings answers next
  | .yield value resume =>
      if bench.arrives answers then
        let observed := recorder.observe bench.str (bench.clock readings) value.normalized
        match value with
        | .event _ => drive observed (readings + 1) (answers + 1) (resume (.send none))
        | .proposal proposal =>
            match bench.judge proposal bench.task with
            | .error error => ⟨observed, .raised error, readings + 1⟩
            | .ok result =>
                drive (observed.markSend (bench.clock (readings + 1))) (readings + 2) (answers + 1)
                  (resume (.send (some result)))
      else ⟨recorder, .timedOut, readings⟩

/-- `run_kernel_once`, of a kernel that has been spawned. -/
def runKernelOnce (kernelId : String) (runIndex : Nat) (timeout : String) (kernel : AdapterGen ω) :
    RunResult κ :=
  let driven := bench.drive { startedAt := bench.clock 0, toolLoopOverhead := 0 } 1 0 kernel
  let finish := driven.recorder.finish kernelId bench.task.taskId runIndex
    (bench.clock driven.readings)
  match driven.ending with
  | .returned => finish .completed none
  | .timedOut => finish .timeout (some s!"timeout after {timeout}s")
  | .raised error =>
      if error.className = "TimeoutError" then finish .timeout (some s!"timeout after {timeout}s")
      else finish .error (some s!"{error.className}: {error.message}")

/-- The events that reach the recorder. -/
def events (answers : Nat) : AdapterGen ω → List Yielded
  | .done => []
  | .raise _ => []
  | .wait => []
  | .act _ next => events answers next
  | .yield value resume =>
      if bench.arrives answers then
        value :: match value with
        | .event _ => events (answers + 1) (resume (.send none))
        | .proposal proposal =>
            match bench.judge proposal bench.task with
            | .error _ => []
            | .ok result => events (answers + 1) (resume (.send (some result)))
      else []

/-- How the kernel ends under the judge. -/
def ending (answers : Nat) : AdapterGen ω → Ending
  | .done => if bench.arrives answers then .returned else .timedOut
  | .raise error => if bench.arrives answers then .raised error else .timedOut
  | .wait => .timedOut
  | .act _ next => ending answers next
  | .yield value resume =>
      if bench.arrives answers then
        match value with
        | .event _ => ending (answers + 1) (resume (.send none))
        | .proposal proposal =>
            match bench.judge proposal bench.task with
            | .error error => .raised error
            | .ok result => ending (answers + 1) (resume (.send (some result)))
      else .timedOut

end BenchRun

/-! ### What the recorder has counted -/

/-- The tokens of the input that a usage entry reports. Zero is not taken from a
mapping. -/
def inReport : Option Json → Option Int
  | some (.obj usage) =>
      (firstInt usage ["input_tokens", "prompt_tokens", "input", "in"]).filter (· ≠ 0)
  | _ => none

def outReport : Option Json → Option Int
  | some (.obj usage) =>
      (firstInt usage ["output_tokens", "completion_tokens", "output", "out"]).filter (· ≠ 0)
  | some value => value.int?
  | none => none

/-- What the usage entries of an event report. -/
def NormalizedEvent.reports (event : NormalizedEvent) (report : Option Json → Option Int) :
    List Int :=
  usageKeys.filterMap fun key => report (event.payload.get? key)

def Yielded.isKind (kind : EventKind) (value : Yielded) : Bool := value.normalized.kind = kind

def textsOfKind (str : Json → String) (kind : EventKind) (events : List Yielded) : List String :=
  (events.filter (Yielded.isKind kind)).map fun value => payloadText str value.normalized.payload

namespace Recorder

/-- What stands in a recorder that has observed some events. -/
structure Counted (str : Json → String) (events : List Yielded) (recorder : Recorder κ) : Prop where
  kinds : ∀ kind, (recorder.eventCounts.get? kind).getD 0 = events.countP (Yielded.isKind kind)
  proposals : recorder.numProposals = events.countP (Yielded.isKind .toolUseProposed)
  serverTools : recorder.serverToolExecs = events.countP (Yielded.isKind .serverToolExecuted)
  texts : recorder.textParts = textsOfKind str .textDelta events
  textChars : recorder.textChars = ((textsOfKind str .textDelta events).map String.length).sum
  thinkingChars :
    recorder.thinkingChars = ((textsOfKind str .thinkingDelta events).map String.length).sum
  failed : recorder.agentFailed = events.any (Yielded.isKind .agentFailed)
  inTokens : recorder.inTokens =
    (events.flatMap fun value => value.normalized.reports inReport).getLast?
  outTokens : recorder.outTokens =
    (events.flatMap fun value => value.normalized.reports outReport).getLast?

omit [AddCommGroup κ] in
theorem absorb_eq (recorder : Recorder κ) (value : Option Json) :
    recorder.absorb value = { recorder with
      inTokens := (inReport value).or recorder.inTokens
      outTokens := (outReport value).or recorder.outTokens } := by
  have hfound (found old : Option Int) : foundOr found old = (found.filter (· ≠ 0)).or old := by
    cases found with
    | none => rfl
    | some number =>
        by_cases hzero : number = 0
        · simp [foundOr, Option.filter, hzero]
        · simp [foundOr, Option.filter, hzero]
  cases value with
  | none => rfl
  | some value =>
      cases value with
      | obj usage => simp only [absorb, inReport, outReport, hfound]
      | _ => rfl

omit [AddCommGroup κ] in
theorem absorbUsage_eq (recorder : Recorder κ) (event : NormalizedEvent) :
    recorder.absorbUsage event.payload = { recorder with
      inTokens := (event.reports inReport).getLast?.or recorder.inTokens
      outTokens := (event.reports outReport).getLast?.or recorder.outTokens } := by
  rw [absorbUsage, NormalizedEvent.reports, NormalizedEvent.reports]
  induction usageKeys using List.reverseRecOn with
  | nil => rfl
  | append_singleton keys key ih =>
      rw [List.foldl_concat, ih, absorb_eq, filterMap_snoc, filterMap_snoc, List.getLast?_append,
        List.getLast?_append]
      cases inReport (event.payload.get? key) with
      | none =>
          cases outReport (event.payload.get? key) with
          | none => rfl
          | some out => rfl
      | some input =>
          cases outReport (event.payload.get? key) with
          | none => rfl
          | some out => rfl

omit [AddCommGroup κ] in
/-- What `count` changes besides the times. -/
theorem count_eq (recorder : Recorder κ) (str : Json → String) (now : κ)
    (event : NormalizedEvent) :
    let text := payloadText str event.payload
    let counted := recorder.count str now event
    counted.eventCounts = recorder.eventCounts.set event.kind
      ((recorder.eventCounts.get? event.kind).getD 0 + 1) ∧
    counted.numProposals =
      recorder.numProposals + (if event.kind = .toolUseProposed then 1 else 0) ∧
    counted.serverToolExecs =
      recorder.serverToolExecs + (if event.kind = .serverToolExecuted then 1 else 0) ∧
    counted.textParts = recorder.textParts ++ (if event.kind = .textDelta then [text] else []) ∧
    counted.textChars = recorder.textChars + (if event.kind = .textDelta then text.length else 0) ∧
    counted.thinkingChars =
      recorder.thinkingChars + (if event.kind = .thinkingDelta then text.length else 0) ∧
    counted.agentFailed = (recorder.agentFailed || decide (event.kind = .agentFailed)) ∧
    counted.inTokens = recorder.inTokens ∧ counted.outTokens = recorder.outTokens := by
  cases hkind : event.kind <;> simp [count, hkind]

omit [AddCommGroup κ] in
theorem textsOfKind_snoc (str : Json → String) (kind : EventKind) (events : List Yielded)
    (value : Yielded) : textsOfKind str kind (events ++ [value]) =
      textsOfKind str kind events ++ if value.normalized.kind = kind then
        [payloadText str value.normalized.payload] else [] := by
  rw [textsOfKind, List.filter_append, List.map_append, List.filter_singleton, textsOfKind]
  by_cases hkind : value.normalized.kind = kind
  · simp [Yielded.isKind, hkind]
  · simp [Yielded.isKind, hkind]

theorem counted_observe {str : Json → String} {events : List Yielded} {recorder : Recorder κ}
    (h : Counted str events recorder) (now : κ) (value : Yielded) :
    Counted str (events ++ [value]) (recorder.observe str now value.normalized) := by
  obtain ⟨hkinds, hproposals, hserver, htexts, htextChars, hthinking, hfailed, hin, hout⟩ :=
    count_eq (recorder.arrive now) str now value.normalized
  have hcount (kind : EventKind) : (events ++ [value]).countP (Yielded.isKind kind) =
      events.countP (Yielded.isKind kind) + (if value.normalized.kind = kind then 1 else 0) := by
    rw [List.countP_append, List.countP_singleton]
    simp only [Yielded.isKind, decide_eq_true_eq]
  rw [observe, absorbUsage_eq]
  constructor
  · intro kind
    rw [hkinds, Dict.get?_set, hcount]
    by_cases hkind : value.normalized.kind = kind
    · rw [if_pos hkind, if_pos hkind, hkind, ← h.kinds]
      rfl
    · rw [if_neg hkind, if_neg hkind, ← h.kinds]
      rfl
  · exact hproposals.trans (by rw [hcount, ← h.proposals]; rfl)
  · exact hserver.trans (by rw [hcount, ← h.serverTools]; rfl)
  · exact htexts.trans (by rw [textsOfKind_snoc, ← h.texts]; rfl)
  · refine htextChars.trans ?_
    rw [textsOfKind_snoc, List.map_append, List.sum_append, ← h.textChars]
    refine congrArg _ ?_
    split <;> simp
  · refine hthinking.trans ?_
    rw [textsOfKind_snoc, List.map_append, List.sum_append, ← h.thinkingChars]
    refine congrArg _ ?_
    split <;> simp
  · refine hfailed.trans ?_
    rw [List.any_append, ← h.failed]
    simp [Yielded.isKind, arrive]
  · dsimp only
    rw [hin, List.flatMap_append, List.getLast?_append, ← h.inTokens, List.flatMap_singleton]
    rfl
  · dsimp only
    rw [hout, List.flatMap_append, List.getLast?_append, ← h.outTokens, List.flatMap_singleton]
    rfl

end Recorder

/-! ### What a run comes to -/

namespace BenchRun

variable {bench : BenchRun κ} {ω : Type}

/-- The rule for the driver: what an event and a mark keep holds at the end. -/
theorem drive_invariant {P : Recorder κ → List Yielded → Nat → Prop}
    (hobserve : ∀ recorder seen readings value, P recorder seen readings →
      P (recorder.observe bench.str (bench.clock readings) value.normalized) (seen ++ [value])
        (readings + 1))
    (hsend : ∀ recorder seen readings, P recorder seen readings →
      P (recorder.markSend (bench.clock readings)) seen (readings + 1))
    (kernel : AdapterGen ω) {recorder : Recorder κ} {seen : List Yielded} {readings : Nat}
    (answers : Nat) (h : P recorder seen readings) :
    (bench.drive recorder readings answers kernel).ending = bench.ending answers kernel ∧
      P (bench.drive recorder readings answers kernel).recorder
        (seen ++ bench.events answers kernel)
        (bench.drive recorder readings answers kernel).readings := by
  induction kernel generalizing recorder seen readings answers with
  | done =>
      rw [drive, BenchRun.ending, BenchRun.events, List.append_nil]
      split
      · exact ⟨rfl, h⟩
      · exact ⟨rfl, h⟩
  | raise error =>
      rw [drive, BenchRun.ending, BenchRun.events, List.append_nil]
      split
      · exact ⟨rfl, h⟩
      · exact ⟨rfl, h⟩
  | wait =>
      rw [drive, BenchRun.ending, BenchRun.events, List.append_nil]
      exact ⟨rfl, h⟩
  | act action next ih => exact ih answers h
  | yield value resume ih =>
      by_cases harrives : bench.arrives answers = true
      · have hseen := hobserve recorder seen readings value h
        cases value with
        | event plain =>
            rw [drive, BenchRun.ending, BenchRun.events, if_pos harrives, if_pos harrives,
              if_pos harrives, ← List.singleton_append, ← List.append_assoc]
            exact ih (.send none) (answers + 1) hseen
        | proposal proposed =>
            rw [drive, BenchRun.ending, BenchRun.events, if_pos harrives, if_pos harrives,
              if_pos harrives, ← List.singleton_append, ← List.append_assoc]
            dsimp only
            cases bench.judge proposed bench.task with
            | error error =>
                rw [List.append_nil]
                exact ⟨rfl, hseen⟩
            | ok result => exact ih (.send (some result)) (answers + 1) (hsend _ _ _ hseen)
      · cases value <;>
          rw [drive, BenchRun.ending, BenchRun.events, if_neg harrives, if_neg harrives,
            if_neg harrives, List.append_nil] <;>
          exact ⟨rfl, h⟩

end BenchRun

end Recording

/-! ### Times -/

section Times

variable {κ : Type} [AddCommGroup κ] [LinearOrder κ] [IsOrderedAddMonoid κ]

namespace Recorder

/-- What the clock has said, up to a reading. -/
structure Timed (str : Json → String) (events : List Yielded) (now : κ) (recorder : Recorder κ) :
    Prop where
  nonneg : 0 ≤ recorder.toolLoopOverhead
  spent : recorder.startedAt + recorder.toolLoopOverhead ≤ now
  pending : ∀ sent ∈ recorder.pendingSendAt,
    recorder.startedAt + recorder.toolLoopOverhead ≤ sent ∧ sent ≤ now
  first : ∀ time ∈ recorder.firstEventAt, recorder.startedAt ≤ time ∧ time ≤ now
  token : ∀ time ∈ recorder.firstTokenAt,
    (∃ first ∈ recorder.firstEventAt, first ≤ time) ∧ time ≤ now
  completion : ∀ time ∈ recorder.completionAt,
    (∃ first ∈ recorder.firstEventAt, first ≤ time) ∧ time ≤ now
  hasFirst : recorder.firstEventAt.isSome = !events.isEmpty
  hasToken : recorder.firstTokenAt.isSome = (textsOfKind str .textDelta events).any (· ≠ "")
  hasCompletion : recorder.completionAt.isSome = events.any fun value =>
    value.isKind .agentFailed || value.isKind .agentCompleted

variable {str : Json → String} {events : List Yielded} {recorder : Recorder κ} {now later : κ}

omit [IsOrderedAddMonoid κ] in
theorem timed_markSend (h : Timed str events now recorder) (hlater : now ≤ later) :
    Timed str events later (recorder.markSend now) where
  nonneg := h.nonneg
  spent := h.spent.trans hlater
  pending := by
    intro sent hsent
    obtain rfl := Option.some.inj hsent
    exact ⟨h.spent, hlater⟩
  first := fun time htime => ⟨(h.first time htime).1, (h.first time htime).2.trans hlater⟩
  token := fun time htime => ⟨(h.token time htime).1, (h.token time htime).2.trans hlater⟩
  completion := fun time htime =>
    ⟨(h.completion time htime).1, (h.completion time htime).2.trans hlater⟩
  hasFirst := h.hasFirst
  hasToken := h.hasToken
  hasCompletion := h.hasCompletion

omit [LinearOrder κ] [IsOrderedAddMonoid κ] in
/-- What `observe` changes of the times. -/
theorem observe_times (recorder : Recorder κ) (str : Json → String) (now : κ)
    (event : NormalizedEvent) :
    let observed := recorder.observe str now event
    observed.startedAt = recorder.startedAt ∧
    observed.toolLoopOverhead =
      recorder.toolLoopOverhead + (recorder.pendingSendAt.elim 0 fun sent => now - sent) ∧
    observed.pendingSendAt = none ∧
    observed.firstEventAt = recorder.firstEventAt.or (some now) ∧
    observed.firstTokenAt = recorder.firstTokenAt.or
      (if event.kind = .textDelta ∧ payloadText str event.payload ≠ "" then some now else none) ∧
    observed.completionAt =
      (if event.kind = .agentFailed ∨ event.kind = .agentCompleted then some now
      else recorder.completionAt) := by
  dsimp only
  rw [observe, absorbUsage_eq]
  cases hkind : event.kind <;> simp [count, arrive, hkind]

theorem timed_observe (h : Timed str events now recorder) (hlater : now ≤ later)
    (value : Yielded) :
    Timed str (events ++ [value]) later (recorder.observe str now value.normalized) := by
  obtain ⟨hstarted, hoverhead, hpending, hfirst, htoken, hcompletion⟩ :=
    observe_times recorder str now value.normalized
  have hspent : 0 ≤ (recorder.pendingSendAt.elim 0 fun sent => now - sent) ∧
      recorder.startedAt + (recorder.toolLoopOverhead +
        (recorder.pendingSendAt.elim 0 fun sent => now - sent)) ≤ now := by
    cases hsent : recorder.pendingSendAt with
    | none => exact ⟨le_rfl, by simpa using h.spent⟩
    | some sent =>
        obtain ⟨hbefore, hafter⟩ := h.pending sent hsent
        refine ⟨sub_nonneg.mpr hafter, ?_⟩
        rw [Option.elim_some, ← add_assoc]
        exact (add_le_add_left hbefore _).trans (by simp)
  have hstart : recorder.startedAt ≤ now :=
    (le_add_of_nonneg_right h.nonneg).trans h.spent
  have hfound : ∃ first ∈ recorder.firstEventAt.or (some now), first ≤ now := by
    cases htime : recorder.firstEventAt with
    | none => exact ⟨now, rfl, le_rfl⟩
    | some first => exact ⟨first, rfl, (h.first first htime).2⟩
  have hkept (time : κ) (hold : ∃ first ∈ recorder.firstEventAt, first ≤ time) :
      ∃ first ∈ recorder.firstEventAt.or (some now), first ≤ time := by
    obtain ⟨first, hmem, hle⟩ := hold
    rw [Option.mem_def] at hmem
    exact ⟨first, by rw [hmem]; rfl, hle⟩
  constructor
  · rw [hoverhead]
    exact add_nonneg h.nonneg hspent.1
  · rw [hstarted, hoverhead]
    exact hspent.2.trans hlater
  · rw [hpending]
    exact nofun
  · rw [hfirst, hstarted]
    intro time htime
    cases hold : recorder.firstEventAt with
    | none =>
        rw [hold] at htime
        obtain rfl := Option.some.inj htime
        exact ⟨hstart, hlater⟩
    | some first =>
        rw [hold] at htime
        obtain rfl := Option.some.inj htime
        exact ⟨(h.first _ hold).1, (h.first _ hold).2.trans hlater⟩
  · rw [hfirst, htoken]
    intro time htime
    cases hold : recorder.firstTokenAt with
    | none =>
        rw [hold, Option.none_or] at htime
        split at htime
        · obtain rfl := Option.some.inj htime
          exact ⟨hfound, hlater⟩
        · cases htime
    | some first =>
        rw [hold] at htime
        obtain rfl := Option.some.inj htime
        exact ⟨hkept _ (h.token _ hold).1, (h.token _ hold).2.trans hlater⟩
  · rw [hfirst, hcompletion]
    intro time htime
    split at htime
    · obtain rfl := Option.some.inj htime
      exact ⟨hfound, hlater⟩
    · exact ⟨hkept _ (h.completion _ htime).1, (h.completion _ htime).2.trans hlater⟩
  · rw [hfirst]
    simp
  · rw [htoken, textsOfKind_snoc, List.any_append, ← h.hasToken, Option.isSome_or]
    split <;> simp_all
  · rw [hcompletion, List.any_append, ← h.hasCompletion]
    split <;> simp_all [Yielded.isKind]

end Recorder

/-- What the events of a run say about its result. -/
structure RunResult.Tells (result : RunResult κ) (str : Json → String) (events : List Yielded)
    (ending : Ending) : Prop where
  status : result.status = match ending with
    | .returned => if events.any (Yielded.isKind .agentFailed) then .failed else .completed
    | .timedOut => .timeout
    | .raised error => if error.className = "TimeoutError" then .timeout else .error
  kinds : ∀ kind, (result.eventCounts.get? kind).getD 0 = events.countP (Yielded.isKind kind)
  proposals : result.numProposals = events.countP (Yielded.isKind .toolUseProposed)
  serverTools : result.serverToolExecs = events.countP (Yielded.isKind .serverToolExecuted)
  textChars : result.textChars = ((textsOfKind str .textDelta events).map String.length).sum
  thinkingChars :
    result.thinkingChars = ((textsOfKind str .thinkingDelta events).map String.length).sum
  finalOutput : result.finalOutput = pyStrip (String.join (textsOfKind str .textDelta events))
  inTokens : result.reportedInputTokens =
    (events.flatMap fun value => value.normalized.reports inReport).getLast?
  outTokens : result.reportedOutputTokens =
    (events.flatMap fun value => value.normalized.reports outReport).getLast?
  overhead : 0 ≤ result.toolLoopOverhead ∧ result.toolLoopOverhead ≤ result.wallClock
  firstEvent : ∀ time ∈ result.timeToFirstEvent, 0 ≤ time ∧ time ≤ result.wallClock
  firstToken : ∀ time ∈ result.timeToFirstToken,
    (∃ first ∈ result.timeToFirstEvent, first ≤ time) ∧ time ≤ result.wallClock
  completion : ∀ time ∈ result.timeToCompletion,
    (∃ first ∈ result.timeToFirstEvent, first ≤ time) ∧ time ≤ result.wallClock
  hasFirst : result.timeToFirstEvent.isSome = !events.isEmpty
  hasToken : result.timeToFirstToken.isSome = (textsOfKind str .textDelta events).any (· ≠ "")
  hasCompletion : result.timeToCompletion.isSome = events.any fun value =>
    value.isKind .agentFailed || value.isKind .agentCompleted

namespace Recorder

variable {str : Json → String} {events : List Yielded} {recorder : Recorder κ} {now : κ}

theorem tells_finish (hcounted : Counted str events recorder)
    (htimed : Timed str events now recorder)
    (kernelId taskId : String) (runIndex : Nat) (ending : Ending) (status : RunStatus)
    (error : Option String)
    (hstatus : (if status = .completed ∧ recorder.agentFailed then .failed else status) =
      match ending with
      | .returned => if events.any (Yielded.isKind .agentFailed) then .failed else .completed
      | .timedOut => .timeout
      | .raised error => if error.className = "TimeoutError" then .timeout else .error) :
    (recorder.finish kernelId taskId runIndex now status error).Tells str events ending := by
  have hrelative (time : κ) (h : ∃ first ∈ recorder.firstEventAt, first ≤ time) :
      ∃ first ∈ recorder.firstEventAt.map (· - recorder.startedAt),
        first ≤ time - recorder.startedAt := by
    obtain ⟨first, hmem, hle⟩ := h
    exact ⟨first - recorder.startedAt, Option.mem_map_of_mem _ hmem, sub_le_sub_right hle _⟩
  exact {
    status := hstatus
    kinds := hcounted.kinds
    proposals := hcounted.proposals
    serverTools := hcounted.serverTools
    textChars := hcounted.textChars
    thinkingChars := hcounted.thinkingChars
    finalOutput := congrArg (fun texts => pyStrip (String.join texts)) hcounted.texts
    inTokens := hcounted.inTokens
    outTokens := hcounted.outTokens
    overhead := ⟨htimed.nonneg, le_sub_iff_add_le'.mpr htimed.spent⟩
    firstEvent := by
      intro time htime
      obtain ⟨first, hfirst, rfl⟩ := Option.map_eq_some_iff.mp htime
      obtain ⟨hstarted, hnow⟩ := htimed.first first hfirst
      exact ⟨sub_nonneg.mpr hstarted, sub_le_sub_right hnow _⟩
    firstToken := by
      intro time htime
      obtain ⟨token, htoken, rfl⟩ := Option.map_eq_some_iff.mp htime
      obtain ⟨hfirst, hnow⟩ := htimed.token token htoken
      exact ⟨hrelative token hfirst, sub_le_sub_right hnow _⟩
    completion := by
      intro time htime
      obtain ⟨done, hdone, rfl⟩ := Option.map_eq_some_iff.mp htime
      obtain ⟨hfirst, hnow⟩ := htimed.completion done hdone
      exact ⟨hrelative done hfirst, sub_le_sub_right hnow _⟩
    hasFirst := (Option.isSome_map ..).trans htimed.hasFirst
    hasToken := (Option.isSome_map ..).trans htimed.hasToken
    hasCompletion := (Option.isSome_map ..).trans htimed.hasCompletion }

end Recorder

namespace BenchRun

variable {ω : Type} (bench : BenchRun κ)

/-- The result of a run tells what its events say. -/
theorem tells_runKernelOnce (hclock : Monotone bench.clock) (kernelId timeout : String)
    (runIndex : Nat) (kernel : AdapterGen ω) :
    (bench.runKernelOnce kernelId runIndex timeout kernel).Tells bench.str (bench.events 0 kernel)
      (bench.ending 0 kernel) := by
  have hlater (readings : Nat) : bench.clock readings ≤ bench.clock (readings + 1) :=
    hclock (Nat.le_succ readings)
  have hinit : Recorder.Counted bench.str [] { startedAt := bench.clock 0, toolLoopOverhead := 0 } ∧
      Recorder.Timed bench.str [] (bench.clock 1)
        { startedAt := bench.clock 0, toolLoopOverhead := 0 } := by
    refine ⟨⟨fun _ => rfl, rfl, rfl, rfl, rfl, rfl, rfl, rfl, rfl⟩,
      ⟨le_rfl, ?_, nofun, nofun, nofun, nofun, rfl, rfl, rfl⟩⟩
    rw [add_zero]
    exact hlater 0
  obtain ⟨hending, hcounted, htimed⟩ := drive_invariant
    (P := fun recorder seen readings => recorder.Counted bench.str seen ∧
      recorder.Timed bench.str seen (bench.clock readings))
    (fun recorder seen readings value h =>
      ⟨Recorder.counted_observe h.1 _ value, Recorder.timed_observe h.2 (hlater readings) value⟩)
    (fun recorder seen readings h =>
      ⟨⟨h.1.1, h.1.2, h.1.3, h.1.4, h.1.5, h.1.6, h.1.7, h.1.8, h.1.9⟩,
        Recorder.timed_markSend h.2 (hlater readings)⟩)
    kernel 0 hinit
  rw [List.nil_append] at hcounted htimed
  have hfailed := hcounted.failed
  rw [runKernelOnce, ← hending]
  cases hend : (bench.drive
    { startedAt := bench.clock 0, toolLoopOverhead := 0 } 1 0 kernel).ending with
  | returned =>
      refine Recorder.tells_finish hcounted htimed _ _ _ _ _ _ ?_
      simp only [true_and, hfailed]
  | timedOut => exact Recorder.tells_finish hcounted htimed _ _ _ _ _ _ rfl
  | raised error =>
      dsimp only
      split
      · rename_i hclass
        refine Recorder.tells_finish hcounted htimed _ _ _ _ _ _ ?_
        dsimp only
        rw [if_pos hclass]
        rfl
      · rename_i hclass
        refine Recorder.tells_finish hcounted htimed _ _ _ _ _ _ ?_
        dsimp only
        rw [if_neg hclass]
        rfl

/-- The harness as the caller of a kernel: proposals get the verdict of the
judge, and other events are resumed with nothing. -/
def caller : AdapterCaller := fun _ value =>
  match value with
  | .event _ => some (.send none)
  | .proposal proposal =>
      match bench.judge proposal bench.task with
      | .ok result => some (.send (some result))
      | .error _ => none

omit [AddCommGroup κ] [LinearOrder κ] [IsOrderedAddMonoid κ] in
/-- The events that arrive are those the kernel yields to this caller, as far as
the time goes. -/
theorem events_in_order (kernel : AdapterGen ω) (answers : Nat) (seen : List Yielded) :
    bench.events answers kernel <+: kernel.yields bench.caller seen ∧
    ((∀ answer, bench.arrives answer = true) →
      bench.events answers kernel = kernel.yields bench.caller seen) := by
  induction kernel generalizing answers seen with
  | done => exact ⟨List.prefix_refl _, fun _ => rfl⟩
  | raise error => exact ⟨List.prefix_refl _, fun _ => rfl⟩
  | wait => exact ⟨List.prefix_refl _, fun _ => rfl⟩
  | act action next ih => exact ih answers seen
  | yield value resume ih =>
      by_cases harrives : bench.arrives answers = true
      · cases value with
        | event plain =>
            obtain ⟨hfront, hall⟩ := ih (.send none) (answers + 1) (seen ++ [.event plain])
            rw [BenchRun.events, if_pos harrives]
            exact ⟨(List.prefix_cons_inj _).mpr hfront, fun h => congrArg _ (hall h)⟩
        | proposal proposed =>
            cases hjudge : bench.judge proposed bench.task with
            | error error =>
                simp only [BenchRun.events, if_pos harrives, Coroutine.yields, caller, hjudge]
                exact ⟨List.prefix_refl _, fun _ => trivial⟩
            | ok result =>
                obtain ⟨hfront, hall⟩ :=
                  ih (.send (some result)) (answers + 1) (seen ++ [.proposal proposed])
                simp only [BenchRun.events, if_pos harrives, Coroutine.yields, caller, hjudge]
                exact ⟨(List.prefix_cons_inj _).mpr hfront, fun h => congrArg _ (hall h)⟩
      · have hnone : bench.events answers (.yield value resume) = [] := by
          cases value <;> rw [BenchRun.events, if_neg harrives]
        rw [hnone]
        exact ⟨List.nil_prefix, fun h => absurd (h answers) harrives⟩

end BenchRun

/-- Whatever a kernel does, and wherever its time is up, the result of the run
counts just the events that arrived, which are those that the kernel yields when
its proposals get the verdicts of the judge. The times lie in their order
between the start and the end, and what the kernel takes to go on behind the
verdicts is a part of the whole. -/
theorem BenchRun.run_recorded {ω : Type} (bench : BenchRun κ) (hclock : Monotone bench.clock)
    (kernelId timeout : String) (runIndex : Nat) (kernel : AdapterGen ω) :
    (bench.runKernelOnce kernelId runIndex timeout kernel).Tells bench.str (bench.events 0 kernel)
      (bench.ending 0 kernel) ∧
    bench.events 0 kernel <+: kernel.yields bench.caller [] ∧
    ((∀ answer, bench.arrives answer = true) →
      bench.events 0 kernel = kernel.yields bench.caller []) :=
  ⟨bench.tells_runKernelOnce hclock kernelId timeout runIndex kernel,
    bench.events_in_order kernel 0 []⟩

/-- A kernel that streams a word, proposes a command and says no more. -/
def stalling : AdapterGen Unit :=
  .yield (.event ⟨.textDelta, "agg", [("text", .str "ok ")]⟩) fun _ =>
    .yield (.proposal ⟨⟨.toolUseProposed, "agg", []⟩, "call-1", "Bash", "Bash", []⟩) fun _ => .wait

def stallingRun : BenchRun ℤ where
  clock := fun reading => reading
  arrives := fun _ => true
  judge := scriptedJudge [] (.str "ok", false)
  task := { taskId := "greet", context := "Greet." }
  str := fun _ => ""

theorem BenchRun.run_recorded_stalling :
    (stallingRun.runKernelOnce "mock" 0 "120.0" stalling).Tells (fun _ => "")
      (stallingRun.events 0 stalling) .timedOut ∧
    (stallingRun.runKernelOnce "mock" 0 "120.0" stalling).wallClock = 4 :=
  ⟨(run_recorded stallingRun (fun _ _ => Int.ofNat_le.mpr) "mock" "120.0" 0 stalling).1,
    by decide⟩

end Times

end ForgeOS
