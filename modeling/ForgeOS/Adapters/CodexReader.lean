import ForgeOS.Adapters.ClaudeRunner
import ForgeOS.Adapters.CodexTransport

/-!
The requests of the client of the Codex app-server, and the reader that
resolves their futures. The reader ends with the output of the server, with an
exception, or because the client is closed; only the last of these looks after
the requests that are still waiting.
-/

namespace ForgeOS

open Library

namespace AppServer

/-- The future of a request. -/
inductive ReplyFuture where
  | unresolved
  | resolved (response : Except Json Json)
  /-- `ConnectionError("app-server closed")`. -/
  | closed
  | cancelled

/-- Where `request` stands: it writes its line, and then it awaits its future. -/
inductive RequestCall where
  | writing
  | awaiting
  /-- The write has raised, or the task has been cancelled. -/
  | left

/-- One step of the client, of its callers, or of the server process. -/
inductive ReaderStep where
  | request
  | written (reqId : Int)
  | writeFails (reqId : Int)
  | cancel (reqId : Int)
  | line (text : List Char)
  | eof
  | readFails
  | close
  | closeAtOnce
  | closeEnds
  | closeFails

end AppServer

open AppServer

/-- The client as its requests see it: the ids in `_pending`, the futures behind
them, and how many calls of `close` wait for the process. Messages that answer
no request are kept with the thread they are routed by. -/
structure AppServerRequests where
  nextId : Int
  pending : Int → Bool
  futures : Int → Option ReplyFuture
  requests : Int → Option RequestCall
  routed : List (Option String × Json)
  reading : Bool
  closing : Nat

namespace AppServerRequests

def initial : AppServerRequests where
  nextId := 0
  pending _ := false
  futures _ := none
  requests _ := none
  routed := []
  reading := true
  closing := 0

section Steps

variable (reading : JsonText.Reading) (s : AppServerRequests)

/-- `request` up to the `await` of its write. -/
def request : AppServerRequests :=
  { s with
    nextId := s.nextId + 1
    pending := Function.update s.pending (s.nextId + 1) true
    futures := Function.update s.futures (s.nextId + 1) (some .unresolved)
    requests := Function.update s.requests (s.nextId + 1) (some .writing) }

def written (reqId : Int) : AppServerRequests :=
  match s.requests reqId with
  | some .writing => { s with requests := Function.update s.requests reqId (some .awaiting) }
  | _ => s

/-- The write raises, and the entry in `_pending` stays. -/
def writeFails (reqId : Int) : AppServerRequests :=
  match s.requests reqId with
  | some .writing => { s with requests := Function.update s.requests reqId (some .left) }
  | _ => s

/-- The future a message or an end of waiting resolves, if it is not done. -/
def resolve (reqId : Int) (outcome : ReplyFuture) : AppServerRequests :=
  match s.futures reqId with
  | some .unresolved => { s with futures := Function.update s.futures reqId (some outcome) }
  | _ => s

/-- The task of a request is cancelled; the future it awaits is so as well. -/
def cancel (reqId : Int) : AppServerRequests :=
  match s.requests reqId with
  | some .writing => { s with requests := Function.update s.requests reqId (some .left) }
  | some .awaiting =>
      { s.resolve reqId .cancelled with
        requests := Function.update s.requests reqId (some .left) }
  | _ => s

/-- `_dispatch`; `none` when it raises. -/
def dispatch (msg : Json) : Option AppServerRequests :=
  match classify msg with
  | none => none
  | some (.response none) => some s
  | some (.response (some reqId)) =>
      if s.pending reqId then
        some { s.resolve reqId (.resolved (outcome msg)) with
          pending := Function.update s.pending reqId false }
      else some s
  | some (.routed thread) => some { s with routed := s.routed ++ [(thread, msg)] }

/-- One line for `_read_loop`. A text that is no JSON is skipped; any other
exception ends the loop, those of `_dispatch` among them. -/
def line (text : List Char) : AppServerRequests :=
  if s.reading then
    let line := stripLine text
    if line = [] then s
    else
      match JsonText.loads reading line with
      | .error .malformed => s
      | .error .refused => { s with reading := false }
      | .ok msg => (s.dispatch msg).getD { s with reading := false }
  else s

/-- `close` up to its `await`: the reader is cancelled. -/
def close : AppServerRequests := { s with reading := false, closing := s.closing + 1 }

/-- The rest of `close`: what is pending and not done fails. -/
def closeEnds : AppServerRequests :=
  if 0 < s.closing then
    { s with
      closing := s.closing - 1
      pending := fun _ => false
      futures := fun reqId =>
        match s.pending reqId, s.futures reqId with
        | true, some .unresolved => some .closed
        | _, future => future }
  else s

/-- `close` of a client whose process has ended, or which has none: there is
nothing to wait for. -/
def closeAtOnce : AppServerRequests := s.close.closeEnds

def step : ReaderStep → AppServerRequests
  | .request => s.request
  | .written reqId => s.written reqId
  | .writeFails reqId => s.writeFails reqId
  | .cancel reqId => s.cancel reqId
  | .line text => s.line reading text
  | .eof => { s with reading := false }
  -- An exception of `readline`, as for a line beyond its limit.
  | .readFails => { s with reading := false }
  | .close => s.close
  | .closeAtOnce => s.closeAtOnce
  | .closeEnds => s.closeEnds
  -- `close` raises while it stops the process, or is cancelled there.
  | .closeFails => { s with closing := s.closing - 1 }

/-! ### Waiting -/

/-- No request awaits a future that is unresolved. That of a request which has been
left stays so as well, but nobody awaits it. -/
def Quiet : Prop := ∀ reqId, s.requests reqId = some .awaiting → s.futures reqId ≠ some .unresolved

/-- No request waits for a reader that has ended. -/
def NoneHangs : Prop := s.reading = false → s.Quiet

/-- An unresolved future can be found in `_pending`. -/
def Pended : Prop := ∀ reqId, s.futures reqId = some .unresolved → s.pending reqId = true

/-- The read loop ends at a line. -/
def endsReading (text : List Char) : Bool :=
  stripLine text ≠ [] &&
    match JsonText.loads reading (stripLine text) with
    | .error .malformed => false
    | .error .refused => true
    | .ok msg => (classify msg).isNone

/-- No request awaits its answer when the reader ends, and one that is written
later has its answer already. -/
def Answered (k : ReaderStep) : Prop :=
  match k with
  | .eof => s.reading = true → s.Quiet
  | .readFails => s.reading = true → s.Quiet
  | .close => s.reading = true → s.Quiet
  | .line text => s.reading = true → endsReading reading text = true → s.Quiet
  | .written reqId =>
      s.reading = false → s.requests reqId = some .writing → s.futures reqId ≠ some .unresolved
  | _ => True

end Steps

/-! ### The steps -/

variable {reading : JsonText.Reading} {s : AppServerRequests}

theorem dispatch_eq_none_iff {msg : Json} : s.dispatch msg = none ↔ classify msg = none := by
  unfold dispatch
  rcases classify msg with _ | (_ | reqId) | thread
  · simp
  · simp
  · simp only [reduceCtorEq, iff_false]
    split <;> simp
  · simp

/-- `_dispatch` raises on the same messages as that of the client with its
threads. -/
theorem dispatch_eq_none_iff_client {ι : Type} [DecidableEq ι] (client : AppServerClient ι)
    {msg : Json} : s.dispatch msg = none ↔ client.dispatch msg = none := by
  rw [dispatch_eq_none_iff, AppServerClient.dispatch]
  rcases classify msg with _ | (_ | reqId) | thread <;> simp

/-- Fewer unresolved futures and fewer waiting requests leave a quiet client
quiet. -/
theorem Quiet.mono {t : AppServerRequests} (h : s.Quiet)
    (hrequests : ∀ reqId, t.requests reqId = some .awaiting → s.requests reqId = some .awaiting)
    (hfutures : ∀ reqId, t.futures reqId = some .unresolved →
      t.requests reqId = some .awaiting → s.futures reqId = some .unresolved) : t.Quiet := by
  intro reqId hawaiting hunresolved
  exact h reqId (hrequests reqId hawaiting) (hfutures reqId hunresolved hawaiting)

theorem futures_resolve {reqId other : Int} {outcome : ReplyFuture}
    (hdone : outcome ≠ .unresolved)
    (h : (s.resolve reqId outcome).futures other = some .unresolved) :
    s.futures other = some .unresolved := by
  unfold resolve at h
  split at h
  · rename_i hunresolved
    simp only [Function.update_apply] at h
    split at h
    · exact absurd (Option.some.inj h) hdone
    · exact h
  · exact h

theorem not_unresolved_resolve {reqId : Int} {outcome : ReplyFuture}
    (hdone : outcome ≠ .unresolved) :
    (s.resolve reqId outcome).futures reqId ≠ some .unresolved := by
  unfold resolve
  split
  · dsimp only
    rw [Function.update_self]
    exact fun h => hdone (Option.some.inj h)
  · rename_i hresolved
    exact hresolved

theorem requests_resolve (reqId : Int) (outcome : ReplyFuture) :
    (s.resolve reqId outcome).requests = s.requests := by
  unfold resolve
  split <;> rfl

theorem reading_resolve (reqId : Int) (outcome : ReplyFuture) :
    (s.resolve reqId outcome).reading = s.reading := by
  unfold resolve
  split <;> rfl

/-- A message changes no request, and resolves futures only. -/
theorem dispatch_spec {msg : Json} {t : AppServerRequests} (h : s.dispatch msg = some t) :
    t.reading = s.reading ∧ t.requests = s.requests ∧
      ∀ reqId, t.futures reqId = some .unresolved → s.futures reqId = some .unresolved := by
  unfold dispatch at h
  split at h
  · cases h
  · obtain rfl := Option.some.inj h
    exact ⟨rfl, rfl, fun _ hfuture => hfuture⟩
  · split at h
    · obtain rfl := Option.some.inj h
      exact ⟨reading_resolve _ _, requests_resolve _ _, fun _ => futures_resolve (by simp)⟩
    · obtain rfl := Option.some.inj h
      exact ⟨rfl, rfl, fun _ hfuture => hfuture⟩
  · obtain rfl := Option.some.inj h
    exact ⟨rfl, rfl, fun _ hfuture => hfuture⟩

/-- A request moves on without awaiting its future. -/
theorem Quiet.update {t : AppServerRequests} {reqId : Int} {phase : RequestCall} (h : s.Quiet)
    (hphase : phase ≠ .awaiting)
    (hrequests : t.requests = Function.update s.requests reqId (some phase))
    (hfutures : ∀ other, t.futures other = some .unresolved → other ≠ reqId →
      s.futures other = some .unresolved) : t.Quiet := by
  have hother : ∀ other, t.requests other = some .awaiting →
      other ≠ reqId ∧ s.requests other = some .awaiting := by
    intro other hawaiting
    rw [hrequests, Function.update_apply] at hawaiting
    split at hawaiting
    · exact absurd (Option.some.inj hawaiting) hphase
    · rename_i hne
      exact ⟨hne, hawaiting⟩
  refine h.mono (fun other hawaiting => (hother other hawaiting).2) ?_
  intro other hunresolved hawaiting
  exact hfutures other hunresolved (hother other hawaiting).1

/-- The reader ends: nobody hangs then exactly if nobody is waiting. -/
theorem noneHangs_ended {t : AppServerRequests} (h : s.NoneHangs) (hreading : t.reading = false)
    (hrequests : t.requests = s.requests) (hfutures : t.futures = s.futures) :
    t.NoneHangs ↔ (s.reading = true → s.Quiet) := by
  have hquiet : t.Quiet ↔ s.Quiet := by rw [Quiet, Quiet, hrequests, hfutures]
  constructor
  · exact fun hnone _ => hquiet.mp (hnone hreading)
  · intro hends _
    cases hread : s.reading with
    | true => exact hquiet.mpr (hends hread)
    | false => exact hquiet.mpr (h hread)

theorem noneHangs_request (h : s.NoneHangs) : s.request.NoneHangs := by
  intro hreading
  refine (h hreading).update (by simp) rfl ?_
  intro other hunresolved hne
  exact (Function.update_of_ne hne _ _).symm.trans hunresolved

theorem noneHangs_written (h : s.NoneHangs) (reqId : Int) :
    (s.written reqId).NoneHangs ↔ s.Answered reading (.written reqId) := by
  unfold written
  split
  · rename_i hwriting
    constructor
    · intro hnone hreading _
      exact hnone hreading reqId (Function.update_self _ _ _)
    · intro hanswered hreading other hawaiting
      by_cases hsame : other = reqId
      · exact hsame ▸ hanswered hreading hwriting
      · simp only [Function.update_of_ne hsame] at hawaiting
        exact h hreading other hawaiting
  · rename_i hwriting
    exact iff_of_true h fun _ hphase => absurd hphase hwriting

theorem noneHangs_writeFails (h : s.NoneHangs) (reqId : Int) : (s.writeFails reqId).NoneHangs := by
  unfold writeFails
  split
  · intro hreading
    exact (h hreading).update (by simp) rfl (fun _ hfuture _ => hfuture)
  · exact h

theorem noneHangs_cancel (h : s.NoneHangs) (reqId : Int) : (s.cancel reqId).NoneHangs := by
  unfold cancel
  split
  · intro hreading
    exact (h hreading).update (by simp) rfl (fun _ hfuture _ => hfuture)
  · intro hreading
    rw [reading_resolve] at hreading
    exact (h hreading).update (by simp) rfl (fun _ hfuture _ => futures_resolve (by simp) hfuture)
  · exact h

theorem noneHangs_line (h : s.NoneHangs) (text : List Char) :
    (s.line reading text).NoneHangs ↔ s.Answered reading (.line text) := by
  have hskips : endsReading reading text = false → s.Answered reading (.line text) := by
    intro hgoes _ hends
    exact absurd (hgoes.symm.trans hends) Bool.false_ne_true
  have hstops : endsReading reading text = true →
      (({ s with reading := false } : AppServerRequests).NoneHangs ↔
        s.Answered reading (.line text)) := by
    intro hends
    have hended : ({ s with reading := false } : AppServerRequests).NoneHangs ↔
        (s.reading = true → s.Quiet) := noneHangs_ended h rfl rfl rfl
    refine hended.trans ?_
    exact ⟨fun hquiet hread _ => hquiet hread, fun hquiet hread => hquiet hread hends⟩
  unfold line
  split
  · rename_i hreading
    dsimp only
    split
    · rename_i hblank
      exact iff_of_true h (hskips (by simp [endsReading, hblank]))
    · rename_i htext
      cases hloads : JsonText.loads reading (stripLine text) with
      | error error =>
          cases error with
          | malformed => exact iff_of_true h (hskips (by simp [endsReading, hloads]))
          | refused => exact hstops (by simp [endsReading, htext, hloads])
      | ok msg =>
          cases hdispatch : s.dispatch msg with
          | none =>
              have hclassify := dispatch_eq_none_iff.mp hdispatch
              dsimp only
              rw [hdispatch]
              exact hstops (by simp [endsReading, htext, hloads, hclassify])
          | some t =>
              have hclassify : classify msg ≠ none := by
                intro hnone
                cases hdispatch.symm.trans (dispatch_eq_none_iff.mpr hnone)
              obtain ⟨hread, -, -⟩ := dispatch_spec hdispatch
              dsimp only
              rw [hdispatch]
              refine iff_of_true ?_ (hskips ?_)
              · intro hended
                exact absurd (hread.symm.trans hended) (by simp [hreading])
              · simp [endsReading, hloads, Option.isNone_eq_false_iff, Option.isSome_iff_ne_none,
                  hclassify]
  · rename_i hreading
    exact iff_of_true h fun hread => absurd hread hreading

theorem noneHangs_closeEnds (h : s.NoneHangs) : s.closeEnds.NoneHangs := by
  unfold closeEnds
  split
  · intro hreading
    refine (h hreading).mono (fun _ hawaiting => hawaiting) ?_
    intro reqId hunresolved _
    dsimp only at hunresolved
    split at hunresolved
    · cases hunresolved
    · exact hunresolved
  · exact h

/-- A client that is closed at once leaves no future unresolved. -/
theorem noneHangs_closeAtOnce (hpended : s.Pended) : s.closeAtOnce.NoneHangs := by
  intro _ reqId _ hunresolved
  have hcloses : s.closeAtOnce.futures reqId = match s.pending reqId, s.futures reqId with
      | true, some .unresolved => some .closed
      | _, future => future := by
    have hclosing : 0 < s.close.closing := Nat.succ_pos s.closing
    rw [closeAtOnce, closeEnds, if_pos hclosing]
    rfl
  rw [hcloses] at hunresolved
  split at hunresolved
  · cases hunresolved
  · rename_i hdone
    exact hdone (hpended reqId hunresolved) hunresolved

/-! ### Unresolved futures -/

theorem Pended.closeEnds (h : s.Pended) : s.closeEnds.Pended := by
  unfold AppServerRequests.closeEnds
  split
  · intro reqId hunresolved
    dsimp only at hunresolved
    split at hunresolved
    · cases hunresolved
    · rename_i hdone
      exact absurd hunresolved (hdone (h reqId hunresolved))
  · exact h

theorem Pended.dispatch (h : s.Pended) {msg : Json} {t : AppServerRequests}
    (hdispatch : s.dispatch msg = some t) : t.Pended := by
  unfold AppServerRequests.dispatch at hdispatch
  split at hdispatch
  · cases hdispatch
  · obtain rfl := Option.some.inj hdispatch
    exact h
  · rename_i reqId _
    split at hdispatch
    · obtain rfl := Option.some.inj hdispatch
      intro other hunresolved
      have hne : other ≠ reqId := by
        rintro rfl
        exact not_unresolved_resolve (by simp) hunresolved
      exact (Function.update_of_ne hne _ _).trans (h other (futures_resolve (by simp) hunresolved))
    · obtain rfl := Option.some.inj hdispatch
      exact h
  · obtain rfl := Option.some.inj hdispatch
    exact h

theorem Pended.line (h : s.Pended) (text : List Char) : (s.line reading text).Pended := by
  unfold AppServerRequests.line
  split
  · dsimp only
    split
    · exact h
    · split
      · exact h
      · exact h
      · rename_i msg _
        cases hdispatch : s.dispatch msg with
        | none => exact h
        | some t => exact h.dispatch hdispatch
  · exact h

theorem Pended.step (h : s.Pended) (k : ReaderStep) : (s.step reading k).Pended := by
  cases k with
  | request =>
      intro reqId hunresolved
      by_cases hsame : reqId = s.nextId + 1
      · rw [hsame]
        exact Function.update_self _ _ _
      · refine (Function.update_of_ne hsame _ _).trans (h reqId ?_)
        exact (Function.update_of_ne hsame _ _).symm.trans hunresolved
  | written reqId =>
      change (s.written reqId).Pended
      unfold written
      split
      · exact h
      · exact h
  | writeFails reqId =>
      change (s.writeFails reqId).Pended
      unfold writeFails
      split
      · exact h
      · exact h
  | cancel reqId =>
      change (s.cancel reqId).Pended
      unfold cancel
      split
      · exact h
      · intro other hunresolved
        have hpending : (s.resolve reqId .cancelled).pending = s.pending := by
          unfold resolve
          split <;> rfl
        exact (congrFun hpending other).trans (h other (futures_resolve (by simp) hunresolved))
      · exact h
  | line text => exact h.line text
  | closeAtOnce =>
      have hclose : s.close.Pended := h
      exact hclose.closeEnds
  | closeEnds => exact h.closeEnds
  | eof | readFails | close | closeFails => exact h

/-- A step leaves nobody hanging exactly if it meets its condition. -/
theorem noneHangs_step (hpended : s.Pended) (h : s.NoneHangs) (k : ReaderStep) :
    (s.step reading k).NoneHangs ↔ s.Answered reading k := by
  cases k with
  | request => exact iff_of_true (noneHangs_request h) trivial
  | written reqId => exact noneHangs_written h reqId
  | writeFails reqId => exact iff_of_true (noneHangs_writeFails h reqId) trivial
  | cancel reqId => exact iff_of_true (noneHangs_cancel h reqId) trivial
  | line text => exact noneHangs_line h text
  | eof => exact noneHangs_ended h rfl rfl rfl
  | readFails => exact noneHangs_ended h rfl rfl rfl
  | close => exact noneHangs_ended h rfl rfl rfl
  | closeAtOnce => exact iff_of_true (noneHangs_closeAtOnce hpended) trivial
  | closeEnds => exact iff_of_true (noneHangs_closeEnds h) trivial
  | closeFails => exact iff_of_true h trivial

/-- In every state of a run no request waits for a reader that has ended, exactly
if no request is waiting whenever the reader ends and none begins to wait for an
answer later. Of the ways in which the reader ends, only a close looks after the
requests, and unless the process has ended already it does so too late. -/
theorem none_hangs_iff (reading : JsonText.Reading) (steps : List ReaderStep) :
    (∀ before after, steps = before ++ after → (run (step reading) initial before).NoneHangs) ↔
      ∀ before k after, steps = before ++ k :: after →
        (run (step reading) initial before).Answered reading k :=
  run_throughout_iff (step reading) (K := Pended) steps (fun _ k _ h => h.step k)
    (fun _ k _ hpended h => noneHangs_step hpended h k) (fun _ hunresolved => nomatch hunresolved)
    (fun hended => absurd hended (by simp [initial]))

/-- A request is waiting when the server exits. -/
theorem hangs_at_eof :
    ¬ (run (step ⟨fun _ => .nan, 4300, 1000, true⟩) initial
      [.request, .written 1, .eof]).NoneHangs := by
  intro h
  exact h rfl 1 rfl rfl

end AppServerRequests

end ForgeOS
