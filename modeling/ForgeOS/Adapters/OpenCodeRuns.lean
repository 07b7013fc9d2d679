import ForgeOS.Adapters.OpenCodeChannel

/-!
The ends of the runs of the OpenCode adapter. A run registers its session before
it creates it, and starts the event stream before it submits the prompt; the
block whose `finally` takes both back begins only after that. A run that ends
earlier leaves behind what there is by then. `createFails` alone takes the
registration back, and like the `finally` block it pops whatever run is
registered under the aggregate id.
-/

namespace ForgeOS

open Library OpenCode

namespace OpenCode.AgentRun

variable {ι : Type}

/-- The generator has ended, through the drain loop or before. -/
def Over (run : AgentRun ι) : Prop := ∃ drained ending, run.phase = .ended drained ending

/-- The steps with which the generator ends before the `try` block of the drain
loop. -/
def Aborts (run : AgentRun ι) (k : RunStep) : Prop :=
  match k with
  | .noSessionId => run.phase = .creating
  | .close => run.phase = .started
  | .promptFails _ => run.phase = .submitting
  | .interrupt => run.phase = .creating ∨ run.phase = .submitting
  | _ => False

/-- The event stream runs only from the first resumption to the end of the drain
loop. -/
structure StreamInPhase (run : AgentRun ι) : Prop where
  created : run.phase = .creating ∨ run.phase = .started → run.sse = .none
  closing : ∀ ending, run.phase = .closing ending → run.sse ≠ .running

theorem not_over_of_creating {run : AgentRun ι} (h : run.phase = .creating) : ¬run.Over := by
  rintro ⟨drained, ending, hover⟩
  cases h.symm.trans hover

theorem not_over_of_closing {run : AgentRun ι} {ending : Ending} (h : run.phase = .closing ending) :
    ¬run.Over := by
  rintro ⟨drained, other, hover⟩
  cases h.symm.trans hover

theorem not_over_of_aborts {run : AgentRun ι} {k : RunStep} (h : run.Aborts k) : ¬run.Over := by
  rintro ⟨drained, ending, hover⟩
  cases k <;> simp [Aborts, hover] at h

/-- A generator that is over stays where it is, whatever its event stream does. -/
theorem step_of_over {run : AgentRun ι} (h : run.Over) (k : RunStep) :
    (run.step k).phase = run.phase ∧ ((run.step k).sse = .running → run.sse = .running) := by
  obtain ⟨drained, ending, hover⟩ := h
  cases k with
  | streamed output =>
      simp only [step, streamed]
      cases hsse : run.sse <;> cases output <;> simp [hsse]
  | streamEnds =>
      simp only [step, streamEnds]
      cases hsse : run.sse <;> simp [hsse]
  | _ =>
      simp [step, created, noSessionId, close, promptSubmitted, promptFails, take, timeout,
        responded, respondFails, interrupt, hover]

theorem step_of_aborts {run : AgentRun ι} {k : RunStep} (h : run.Aborts k) :
    ∃ ending, run.step k = run.abort ending := by
  cases k with
  | noSessionId =>
      have hphase : run.phase = .creating := h
      exact ⟨.raised ⟨"KeyError", "'id'"⟩, by simp only [step, noSessionId, hphase]⟩
  | close =>
      have hphase : run.phase = .started := h
      exact ⟨.closed, by simp only [step, close, hphase]⟩
  | promptFails error =>
      have hphase : run.phase = .submitting := h
      exact ⟨.raised error, by simp only [step, promptFails, hphase]⟩
  | interrupt =>
      refine ⟨.raised ⟨"CancelledError", ""⟩, ?_⟩
      rcases h with hphase | hphase
      · simp only [step, interrupt, hphase]
      · simp only [step, interrupt, hphase]
  | _ => exact h.elim

/-- A step that is no exit. -/
structure Goes (run next : AgentRun ι) : Prop where
  ended : next.Over → run.Over
  stream : run.StreamInPhase → next.StreamInPhase

theorem Goes.same {run next : AgentRun ι} (hphase : next.phase = run.phase)
    (hsse : next.sse = run.sse) : run.Goes next where
  ended := fun ⟨drained, ending, h⟩ => ⟨drained, ending, hphase ▸ h⟩
  stream h := ⟨by rw [hphase, hsse]; exact h.created, by rw [hphase, hsse]; exact h.closing⟩

theorem Goes.trans {run next last : AgentRun ι} (h : run.Goes next) (h' : next.Goes last) :
    run.Goes last := ⟨fun hover => h.ended (h'.ended hover), fun hs => h'.stream (h.stream hs)⟩

/-- The phases between the start of the event stream and the `finally` block. -/
def MayStream : RunPhase → Prop
  | .submitting | .draining | .paused _ | .timedOut | .responding => True
  | _ => False

theorem Goes.phase (run : AgentRun ι) (sse : SseTask) {phase : RunPhase} (h : MayStream phase) :
    run.Goes { run with phase, sse } where
  ended := by
    rintro ⟨drained, ending, rfl⟩
    exact h.elim
  stream _ := by
    constructor
    · rintro (rfl | rfl)
      · exact h.elim
      · exact h.elim
    · rintro ending rfl
      exact h.elim

theorem leave_goes (run : AgentRun ι) (ending : Ending) : run.Goes (run.leave ending) where
  ended := fun ⟨_, _, h⟩ => nomatch h
  stream _ := by
    refine ⟨fun h => h.elim nofun nofun, fun _ _ => ?_⟩
    unfold leave
    cases run.sse <;> exact nofun

theorem stream_goes {run : AgentRun ι} (hsse : run.sse = .running) (sse : SseTask)
    (eventsQ : List Item) : run.Goes { run with eventsQ, sse } where
  ended := id
  stream h := by
    refine ⟨fun hphase => ?_, fun ending hphase => absurd hsse (h.closing ending hphase)⟩
    cases hsse.symm.trans (h.created hphase)

theorem created_goes (run : AgentRun ι) (sessionId : String) :
    run.Goes (run.created sessionId) := by
  unfold created
  split
  · rename_i hphase
    refine ⟨fun ⟨_, _, h⟩ => (nomatch h), fun h => ⟨fun _ => ?_, nofun⟩⟩
    exact h.created (Or.inl hphase)
  · exact .same rfl rfl

theorem streamed_goes (run : AgentRun ι) (output : SseOutput) :
    run.Goes (run.streamed output) := by
  unfold streamed
  split
  · rename_i hsse
    cases output with
    | event event => exact stream_goes hsse run.sse _
    | permission proposal permissionId => exact stream_goes hsse run.sse _
    | terminal event => exact stream_goes hsse .done _
  · exact .same rfl rfl

/-- A step of the run alone is an exit, or the run goes on. -/
theorem step_goes {run : AgentRun ι} {k : RunStep} (h : ¬run.Aborts k) :
    run.Goes (run.step k) := by
  have hsame : run.Goes run := .same rfl rfl
  cases k with
  | created sessionId => exact run.created_goes sessionId
  | noSessionId =>
      simp only [step, noSessionId]
      split
      · exact absurd (by assumption) h
      · exact hsame
  | close =>
      simp only [step, close]
      split
      · exact absurd (by assumption) h
      · exact run.leave_goes _
      · exact run.leave_goes _
      · exact hsame
  | promptSubmitted =>
      simp only [step, promptSubmitted]
      split
      · exact .phase run run.sse trivial
      · exact hsame
  | promptFails error =>
      simp only [step, promptFails]
      split
      · exact absurd (by assumption) h
      · exact hsame
  | streamed output => exact run.streamed_goes output
  | streamEnds =>
      simp only [step, streamEnds]
      split
      · exact stream_goes (by assumption) .done run.eventsQ
      · exact hsame
  | take =>
      simp only [step, take]
      split
      · exact (Goes.phase run run.sse trivial : run.Goes { run with
          phase := .paused _ }).trans (.same rfl rfl)
      · exact hsame
  | timeout =>
      simp only [step, timeout]
      split
      · exact .phase run run.sse trivial
      · exact hsame
  | responded =>
      simp only [step, responded]
      split
      · exact .phase run run.sse trivial
      · exact hsame
  | respondFails error =>
      simp only [step, respondFails]
      split
      · exact run.leave_goes _
      · exact hsame
  | interrupt =>
      simp only [step, interrupt]
      split
      · exact absurd (Or.inl (by assumption)) h
      · exact absurd (Or.inr (by assumption)) h
      · exact run.leave_goes _
      · exact run.leave_goes _
      · exact hsame

theorem resume_goes (run : AgentRun ι) (sent : Option ToolResult) :
    run.Goes (run.resume sent).1 := by
  unfold resume
  split
  · exact .phase run .running trivial
  · exact run.leave_goes _
  · split
    · exact run.leave_goes _
    · exact .phase run run.sse trivial
  · split
    · exact run.leave_goes _
    · split
      · exact .phase run run.sse trivial
      · exact .phase run run.sse trivial
  · split
    · exact run.leave_goes _
    · exact (Goes.phase run run.sse trivial : run.Goes { run with
          phase := .draining }).trans (.same rfl rfl)
  · exact run.leave_goes _
  · exact .same rfl rfl

theorem StreamInPhase.of_over {run : AgentRun ι} (h : run.Over) : run.StreamInPhase := by
  obtain ⟨drained, ending, hphase⟩ := h
  constructor
  · rw [hphase]
    exact fun h => h.elim nofun nofun
  · rw [hphase]
    exact fun _ => nofun

/-- A run that a step does not end. -/
structure Stays (run next : AgentRun ι) : Prop extends run.Goes next where
  stopped : run.Over → next.sse = .running → run.sse = .running

theorem Stays.same {run next : AgentRun ι} (hphase : next.phase = run.phase)
    (hsse : next.sse = run.sse) : run.Stays next :=
  ⟨.same hphase hsse, fun _ h => hsse ▸ h⟩

theorem Stays.congr {run next last : AgentRun ι} (h : run.Stays next)
    (hphase : last.phase = next.phase) (hsse : last.sse = next.sse) : run.Stays last :=
  ⟨h.toGoes.trans (.same hphase hsse), fun hover hlast => h.stopped hover (hsse ▸ hlast)⟩

theorem Stays.refl (run : AgentRun ι) : run.Stays run := .same rfl rfl

theorem step_stays {run : AgentRun ι} {k : RunStep} (h : ¬run.Aborts k) :
    run.Stays (run.step k) :=
  ⟨step_goes h, fun hover => (step_of_over hover k).2⟩

theorem resume_of_over {run : AgentRun ι} (h : run.Over) (sent : Option ToolResult) :
    run.resume sent = (run, none) := by
  obtain ⟨drained, ending, hover⟩ := h
  simp only [resume, hover]

theorem resume_stays (run : AgentRun ι) (sent : Option ToolResult) :
    run.Stays (run.resume sent).1 :=
  ⟨run.resume_goes sent, fun hover => by rw [resume_of_over hover]; exact id⟩

end OpenCode.AgentRun

namespace OpenCodeAdapter

variable {ρ ι : Type} {s t : OpenCodeAdapter ρ ι}

/-! ### What a run leaves behind -/

def InProgress (s : OpenCodeAdapter ρ ι) (r : ρ) : Prop :=
  ∃ run, s.runs r = some run ∧ ¬run.Over

/-- Nothing is left of a run: no registration, no pending future and no event
stream. -/
structure Released (s : OpenCodeAdapter ρ ι) (r : ρ) (run : AgentRun ι) : Prop where
  unregistered : ∀ id, s.sessions id ≠ some r
  resolved : ∀ i request, s.Received r i request → request.future ≠ some .pending
  cancelled : run.sse ≠ .running

def AllReleased (s : OpenCodeAdapter ρ ι) : Prop :=
  ∀ r run, s.runs r = some run → run.Over → s.Released r run

/-- From `s` to `t` every other run in progress stays registered. -/
def LeavesOthers (s t : OpenCodeAdapter ρ ι) (r : ρ) : Prop :=
  ∀ id other, other ≠ r → s.sessions id = some other → s.InProgress other →
    t.sessions id = some other

/-- The runs that are over in `t`, and were not in `s`, have taken no
registration of another run in progress with them. -/
def KeepsOthers (s t : OpenCodeAdapter ρ ι) : Prop :=
  ∀ r run, s.InProgress r → t.runs r = some run → run.Over → LeavesOthers s t r

/-! ### The exits -/

def Exits (run : AgentRun ι) (r : ρ) : AdapterStep ρ ι → Prop
  | .createFails r' _ => r' = r ∧ run.phase = .creating
  | .within r' k => r' = r ∧ run.Aborts k
  | .stopped r' => r' = r ∧ ∃ ending, run.phase = .closing ending
  | _ => False

/-- No other run in progress is registered under the aggregate id. -/
def Alone (s : OpenCodeAdapter ρ ι) (r : ρ) (run : AgentRun ι) : Prop :=
  ∀ other, s.sessions run.aggregateId = some other → s.InProgress other → other = r

/-- What has to be so for a run to end with a step. Session creation that raises
resolves no future, the `finally` block those that stand in `pending_mcp`, and
the other exits leave everything as it is. -/
def MayEnd (s : OpenCodeAdapter ρ ι) (r : ρ) (run : AgentRun ι) : AdapterStep ρ ι → Prop
  | .createFails _ (.exception _) =>
      (∀ i request, s.Received r i request → request.future ≠ some .pending) ∧ s.Alone r run
  | .stopped _ =>
      (∀ i request, s.Received r i request → request.future = some .pending →
        run.pendingMcp request.callId = some i) ∧ s.Alone r run
  | _ => s.Released r run

theorem not_over_of_exits {run : AgentRun ι} {r : ρ} {k : AdapterStep ρ ι}
    (h : Exits run r k) : ¬run.Over := by
  cases k with
  | createFails other raised => exact AgentRun.not_over_of_creating h.2
  | within other k => exact AgentRun.not_over_of_aborts h.2
  | stopped other =>
      obtain ⟨-, ending, hphase⟩ := h
      exact AgentRun.not_over_of_closing hphase
  | _ => exact h.elim

section Runs

variable [DecidableEq ρ] {r : ρ} {run : AgentRun ι}

/-- What a step makes of a run: an exit ends it, and leaves its event stream;
anything else does not. -/
def Outcome (t : OpenCodeAdapter ρ ι) (r : ρ) (run : AgentRun ι) (k : AdapterStep ρ ι) : Prop :=
  ∃ next, t.runs r = some next ∧
    ((Exits run r k ∧ next.Over ∧ next.sse = run.sse) ∨ (¬Exits run r k ∧ run.Stays next))

omit [DecidableEq ρ] in
theorem Outcome.unchanged {k : AdapterStep ρ ι} (hrun : t.runs r = some run)
    (hk : ¬Exits run r k) : t.Outcome r run k := ⟨run, hrun, Or.inr ⟨hk, .refl run⟩⟩

theorem start_outcome (hrun : s.runs r = some run) (other : ρ) (aggregateId : String) :
    (s.start other aggregateId).Outcome r run (.start other aggregateId) := by
  refine .unchanged ?_ nofun
  unfold start
  split
  · rename_i hnew
    have hne : r ≠ other := by
      rintro rfl
      cases hnew.symm.trans hrun
    exact (setRun_of_ne hne _).trans hrun
  · exact hrun

theorem createFails_outcome (hrun : s.runs r = some run) (other : ρ) (raised : Raised) :
    (s.createFails other raised).Outcome r run (.createFails other raised) := by
  by_cases hother : other = r
  · subst hother
    by_cases hphase : run.phase = .creating
    · unfold createFails
      rw [hrun]
      dsimp only
      rw [hphase]
      cases raised with
      | exception error => exact ⟨_, setRun_self .., Or.inl ⟨⟨rfl, hphase⟩, ⟨_, _, rfl⟩, rfl⟩⟩
      | cancelled => exact ⟨_, setRun_self .., Or.inl ⟨⟨rfl, hphase⟩, ⟨_, _, rfl⟩, rfl⟩⟩
    · refine .unchanged ?_ fun h => hphase h.2
      unfold createFails
      rw [hrun]
      dsimp only
      split
      · exact absurd (by assumption) hphase
      · exact absurd (by assumption) hphase
      · exact hrun
  · refine .unchanged ?_ fun h => hother h.1
    have hkept (next : AgentRun ι) : (s.setRun other next).runs r = some run :=
      (setRun_of_ne (Ne.symm hother) next).trans hrun
    unfold createFails
    split
    · split
      · exact hkept _
      · exact hkept _
      · exact hrun
    · exact hrun

theorem within_outcome (hrun : s.runs r = some run) (other : ρ) (k : RunStep) :
    (s.modify other fun run => run.step k).Outcome r run (.within other k) := by
  by_cases hother : other = r
  · subst hother
    refine ⟨run.step k, ?_, ?_⟩
    · unfold modify
      rw [hrun]
      exact setRun_self ..
    · by_cases haborts : run.Aborts k
      · obtain ⟨ending, hending⟩ := AgentRun.step_of_aborts haborts
        rw [hending]
        exact Or.inl ⟨⟨rfl, haborts⟩, ⟨_, _, rfl⟩, rfl⟩
      · exact Or.inr ⟨fun h => haborts h.2, AgentRun.step_stays haborts⟩
  · refine .unchanged ?_ fun h => hother h.1
    unfold modify
    split
    · exact (setRun_of_ne (Ne.symm hother) _).trans hrun
    · exact hrun

theorem setRun_outcome {k : AdapterStep ρ ι} (hrun : s.runs r = some run) {other : ρ}
    {next : AgentRun ι} (hk : ¬Exits run r k) (hstays : other = r → run.Stays next) :
    (s.setRun other next).Outcome r run k := by
  by_cases hother : other = r
  · subst hother
    exact ⟨next, setRun_self .., Or.inr ⟨hk, hstays rfl⟩⟩
  · exact .unchanged ((setRun_of_ne (Ne.symm hother) _).trans hrun) hk

theorem popRequest_outcome {k : AdapterStep ρ ι} (hrun : s.runs r = some run)
    (request : ProposeRequest ρ) (hk : ¬Exits run r k) :
    (s.popRequest request).Outcome r run k := by
  unfold popRequest
  split
  · unfold modify
    split
    · rename_i other _ before hbefore
      refine setRun_outcome hrun hk ?_
      rintro rfl
      obtain rfl := Option.some.inj (hrun.symm.trans hbefore)
      exact .same rfl rfl
    · exact .unchanged hrun hk
  · exact .unchanged hrun hk

variable [DecidableEq ι]

theorem deliver_runs (other : ρ) (next : AgentRun ι) (result : ToolResult) :
    (s.deliver other next result).runs =
      (s.setRun other (next.pop result.toolUseId)).runs := by
  unfold deliver
  dsimp only
  split
  · split <;> rfl
  · rfl

theorem resume_outcome (hrun : s.runs r = some run) (other : ρ) (sent : Option ToolResult) :
    (s.resume other sent).Outcome r run (.resume other sent) := by
  unfold resume
  split
  · rename_i before hbefore
    have hstays {next : AgentRun ι} {result : Option ToolResult}
        (hresume : before.resume sent = (next, result)) (hother : other = r) :
        run.Stays next := by
      subst hother
      obtain rfl := Option.some.inj (hrun.symm.trans hbefore)
      have hnext := run.resume_stays sent
      rw [hresume] at hnext
      exact hnext
    split
    · rename_i next result hresume
      unfold Outcome
      rw [deliver_runs]
      refine setRun_outcome hrun id fun hother => ?_
      exact (hstays hresume hother).congr rfl rfl
    · rename_i next hresume
      exact setRun_outcome hrun id (hstays hresume)
  · exact .unchanged hrun id

theorem stopped_outcome (hrun : s.runs r = some run) (other : ρ) :
    (s.stopped other).Outcome r run (.stopped other) := by
  by_cases hother : other = r
  · subst hother
    unfold stopped
    rw [hrun]
    dsimp only
    split
    · rename_i ending hphase
      exact ⟨_, setRun_self .., Or.inl ⟨⟨rfl, ending, hphase⟩, ⟨_, _, rfl⟩, rfl⟩⟩
    · rename_i hphase
      refine .unchanged hrun ?_
      rintro ⟨-, ending, hclosing⟩
      exact hphase ending hclosing
  · refine .unchanged ?_ fun h => hother h.1
    unfold stopped
    split
    · split
      · exact (setRun_of_ne (Ne.symm hother) _).trans hrun
      · exact hrun
    · exact hrun

theorem arrive_outcome (hrun : s.runs r = some run) (i : ι) (body : ProposeBody) :
    (s.arrive i body).Outcome r run (.arrive i body) := by
  unfold arrive
  split
  · exact .unchanged hrun id
  · split
    · exact .unchanged hrun id
    · split
      · exact .unchanged hrun id
      · split
        · exact .unchanged hrun id
        · rename_i other _ before hbefore
          refine setRun_outcome (k := .arrive i body) hrun id ?_
          rintro rfl
          obtain rfl := Option.some.inj (hrun.symm.trans hbefore)
          exact .same rfl rfl

theorem shutdown_outcome (hrun : s.runs r = some run) :
    s.shutdown.Outcome r run .shutdown := by
  have hnext : s.shutdown.runs r = some (if s.sessions run.aggregateId = some r then
      { run with pendingMcp := fun _ => none } else run) := by
    change (s.runs r).map _ = _
    rw [hrun]
    rfl
  refine ⟨_, hnext, Or.inr ⟨id, ?_⟩⟩
  split
  · exact .same rfl rfl
  · exact .refl run

theorem step_outcome (hrun : s.runs r = some run) (dumps : Json → String)
    (reprMessage : String → String) (k : AdapterStep ρ ι) :
    (s.step dumps reprMessage k).Outcome r run k := by
  cases k with
  | start other aggregateId => exact start_outcome hrun other aggregateId
  | createFails other raised => exact createFails_outcome hrun other raised
  | within other k => exact within_outcome hrun other k
  | resume other sent => exact resume_outcome hrun other sent
  | stopped other => exact stopped_outcome hrun other
  | arrive i body => exact arrive_outcome hrun i body
  | malformed i detail =>
      simp only [step, malformed]
      split <;> exact .unchanged hrun id
  | wake i =>
      simp only [step, wake]
      split
      · split
        · exact .unchanged hrun id
        · exact popRequest_outcome hrun _ id
        · exact .unchanged hrun id
      · exact .unchanged hrun id
  | expire i =>
      simp only [step, expire]
      split
      · split
        · exact popRequest_outcome hrun _ id
        · exact .unchanged hrun id
      · exact .unchanged hrun id
  | shutdown => exact shutdown_outcome hrun

omit [DecidableEq ι] in
theorem setRun_none (hnone : s.runs r = none) {other : ρ} {before : AgentRun ι}
    (hbefore : s.runs other = some before) (next : AgentRun ι) :
    (s.setRun other next).runs r = none := by
  have hne : r ≠ other := by
    rintro rfl
    cases hnone.symm.trans hbefore
  exact (setRun_of_ne hne next).trans hnone

omit [DecidableEq ι] in
theorem popRequest_none (hnone : s.runs r = none) (request : ProposeRequest ρ) :
    (s.popRequest request).runs r = none := by
  unfold popRequest
  split
  · unfold modify
    split
    · exact setRun_none hnone (by assumption) _
    · exact hnone
  · exact hnone

/-- Only a start adds a run. -/
theorem step_runs_none (hnone : s.runs r = none) (dumps : Json → String)
    (reprMessage : String → String) (k : AdapterStep ρ ι) :
    (s.step dumps reprMessage k).runs r = none ∨
      ∃ id, (s.step dumps reprMessage k).runs r = some (.initial id) := by
  cases k with
  | start other aggregateId =>
      simp only [step, start]
      split
      · by_cases hother : r = other
        · subst hother
          exact Or.inr ⟨aggregateId, setRun_self ..⟩
        · exact Or.inl ((setRun_of_ne hother _).trans hnone)
      · exact Or.inl hnone
  | createFails other raised =>
      refine Or.inl ?_
      simp only [step, createFails]
      split
      · rename_i hbefore
        split
        · exact setRun_none hnone hbefore _
        · exact setRun_none hnone hbefore _
        · exact hnone
      · exact hnone
  | within other k =>
      refine Or.inl ?_
      simp only [step, modify]
      split
      · exact setRun_none hnone (by assumption) _
      · exact hnone
  | resume other sent =>
      refine Or.inl ?_
      simp only [step, resume]
      split
      · rename_i hbefore
        split
        · rw [deliver_runs]
          exact setRun_none hnone hbefore _
        · exact setRun_none hnone hbefore _
      · exact hnone
  | stopped other =>
      refine Or.inl ?_
      simp only [step, stopped]
      split
      · rename_i hbefore
        split
        · exact setRun_none hnone hbefore _
        · exact hnone
      · exact hnone
  | arrive i body =>
      refine Or.inl ?_
      simp only [step, arrive]
      split
      · exact hnone
      · split
        · exact hnone
        · split
          · exact hnone
          · split
            · exact hnone
            · exact setRun_none hnone (by assumption) _
  | malformed i detail =>
      refine Or.inl ?_
      simp only [step, malformed]
      split <;> exact hnone
  | wake i =>
      refine Or.inl ?_
      simp only [step, wake]
      split
      · split
        · exact hnone
        · exact popRequest_none hnone _
        · exact hnone
      · exact hnone
  | expire i =>
      refine Or.inl ?_
      simp only [step, expire]
      split
      · split
        · exact popRequest_none hnone _
        · exact hnone
      · exact hnone
  | shutdown =>
      refine Or.inl ?_
      change (s.runs r).map _ = none
      rw [hnone]
      rfl

/-- Only a start registers a run. -/
theorem step_sessions (dumps : Json → String) (reprMessage : String → String)
    {k : AdapterStep ρ ι} {id : String}
    (hid : (s.step dumps reprMessage k).sessions id = some r) :
    s.sessions id = some r ∨ s.runs r = none := by
  cases k with
  | start other aggregateId =>
      simp only [step, start] at hid
      split at hid
      · rename_i hnew
        rcases update_eq_some hid with ⟨-, hsame⟩ | ⟨-, hbefore⟩
        · exact Or.inr (Option.some.inj hsame ▸ hnew)
        · exact Or.inl hbefore
      · exact Or.inl hid
  | createFails other raised =>
      refine Or.inl ?_
      simp only [step, createFails] at hid
      split at hid
      · split at hid
        · exact update_none_eq_some hid
        · exact hid
        · exact hid
      · exact hid
  | within other k => exact Or.inl ((congrFun (modify_sessions other _) id).symm.trans hid)
  | resume other sent =>
      refine Or.inl ?_
      simp only [step, resume, deliver] at hid
      split at hid
      · split at hid
        · split at hid
          · split at hid <;> exact hid
          · exact hid
        · exact hid
      · exact hid
  | stopped other =>
      refine Or.inl ?_
      simp only [step, stopped] at hid
      split at hid
      · split at hid
        · exact update_none_eq_some hid
        · exact hid
      · exact hid
  | arrive i body =>
      refine Or.inl ?_
      simp only [step, arrive] at hid
      split at hid
      · exact hid
      · split at hid
        · exact hid
        · split at hid
          · exact hid
          · split at hid <;> exact hid
  | malformed i detail =>
      refine Or.inl ?_
      simp only [step, malformed] at hid
      split at hid <;> exact hid
  | wake i =>
      refine Or.inl ?_
      simp only [step, wake] at hid
      split at hid
      · split at hid
        · exact hid
        · exact (congrFun (popRequest_sessions _) id).symm.trans hid
        · exact hid
      · exact hid
  | expire i =>
      refine Or.inl ?_
      simp only [step, expire] at hid
      split at hid
      · split at hid
        · exact (congrFun (popRequest_sessions _) id).symm.trans hid
        · exact hid
      · exact hid
  | shutdown => cases hid

/-! ### What an exit leaves -/

/-- The registered runs are there, and every event stream is in its phase. -/
structure Streaming (dumps : Json → String) (s : OpenCodeAdapter ρ ι) : Prop
    extends s.Consistent dumps where
  stream : ∀ r run, s.runs r = some run → run.StreamInPhase

omit [DecidableEq ρ] [DecidableEq ι] in
theorem streaming_initial (dumps : Json → String) :
    (initial : OpenCodeAdapter ρ ι).Streaming dumps where
  toConsistent := consistent_initial dumps
  stream _ _ hrun := nomatch hrun

theorem Streaming.step {dumps : Json → String} (h : s.Streaming dumps)
    (reprMessage : String → String) (k : AdapterStep ρ ι) :
    (s.step dumps reprMessage k).Streaming dumps where
  toConsistent := h.toConsistent.step reprMessage k
  stream r next hnext := by
    cases hrun : s.runs r with
    | none =>
        rcases step_runs_none hrun dumps reprMessage k with hnone | ⟨id, hnew⟩
        · cases hnone.symm.trans hnext
        · obtain rfl := Option.some.inj (hnew.symm.trans hnext)
          exact ⟨fun _ => rfl, fun _ => nofun⟩
    | some run =>
        obtain ⟨after, hafter, hexit | hstays⟩ := step_outcome hrun dumps reprMessage k
        · obtain rfl := Option.some.inj (hafter.symm.trans hnext)
          exact .of_over hexit.2.1
        · obtain rfl := Option.some.inj (hafter.symm.trans hnext)
          exact hstays.2.stream (h.stream r run hrun)

/-- What is released stays so. -/
theorem Released.step (h : s.Released r run) (hrun : s.runs r = some run) (hover : run.Over)
    {dumps : Json → String} {reprMessage : String → String} {k : AdapterStep ρ ι}
    {next : AgentRun ι} (hnext : (s.step dumps reprMessage k).runs r = some next) :
    (s.step dumps reprMessage k).Released r next where
  unregistered id hid := by
    rcases step_sessions dumps reprMessage hid with hbefore | hnone
    · exact h.unregistered id hbefore
    · cases hnone.symm.trans hrun
  resolved i after hafter hpending := by
    cases hbefore : s.requests i with
    | none =>
        have harrived := step_arrived dumps reprMessage k hbefore hafter.1
        cases harrived with
        | refused => cases hafter.2
        | accepted callId hsession =>
            obtain rfl := Option.some.inj hafter.2
            exact h.unregistered _ hsession
    | some request =>
        obtain ⟨other, hother, hprogress⟩ := step_progress dumps reprMessage k hbefore
        obtain rfl : other = after := Option.some.inj (hother.symm.trans hafter.1)
        exact h.resolved i request ⟨hbefore, hprogress.run.symm.trans hafter.2⟩
          (hprogress.pending hpending)
  cancelled hsse := by
    obtain ⟨after, hafter, hexit | hstays⟩ := step_outcome hrun dumps reprMessage k
    · exact absurd hover (not_over_of_exits hexit.1)
    · obtain rfl := Option.some.inj (hafter.symm.trans hnext)
      exact h.cancelled (hstays.2.stopped hover hsse)

omit [DecidableEq ρ] [DecidableEq ι] in
/-- An exit that touches nothing but the run. -/
theorem leaves_iff (hsessions : t.sessions = s.sessions) (hrequests : t.requests = s.requests)
    {next : AgentRun ι} (hsse : next.sse = run.sse) :
    (t.Released r next ∧ LeavesOthers s t r) ↔ s.Released r run := by
  have hleaves : LeavesOthers s t r := by
    intro id other _ hid _
    rw [hsessions]
    exact hid
  constructor
  · rintro ⟨⟨hunregistered, hresolved, hcancelled⟩, -⟩
    refine ⟨hsessions ▸ hunregistered, fun i request hreceived => ?_, hsse ▸ hcancelled⟩
    exact hresolved i request ⟨hrequests ▸ hreceived.1, hreceived.2⟩
  · rintro ⟨hunregistered, hresolved, hcancelled⟩
    refine ⟨⟨hsessions ▸ hunregistered, fun i request hreceived => ?_, hsse ▸ hcancelled⟩, hleaves⟩
    exact hresolved i request ⟨hrequests ▸ hreceived.1, hreceived.2⟩

omit [DecidableEq ρ] [DecidableEq ι] in
/-- An exit that pops the aggregate id from `_sessions`. -/
theorem pops_iff {dumps : Json → String} (h : s.Streaming dumps) (hrun : s.runs r = some run)
    (hsessions : t.sessions = Function.update s.sessions run.aggregateId none)
    {next : AgentRun ι} (hsse : next.sse ≠ .running) :
    (t.Released r next ∧ LeavesOthers s t r) ↔
      (∀ i request, t.Received r i request → request.future ≠ some .pending) ∧ s.Alone r run := by
  have hunregistered (id : String) : t.sessions id ≠ some r := by
    intro hid
    rw [hsessions] at hid
    rcases update_eq_some hid with ⟨-, hnone⟩ | ⟨hne, hbefore⟩
    · cases hnone
    · obtain ⟨registered, hregistered, haggregate, -⟩ := h.registered id r hbefore
      obtain rfl := Option.some.inj (hrun.symm.trans hregistered)
      exact hne haggregate.symm
  have hpopped : t.sessions run.aggregateId = none := by
    rw [hsessions]
    exact Function.update_self ..
  constructor
  · rintro ⟨hreleased, hleaves⟩
    refine ⟨hreleased.resolved, fun other hother hprogress => ?_⟩
    by_contra hne
    cases hpopped.symm.trans (hleaves run.aggregateId other hne hother hprogress)
  · rintro ⟨hresolved, halone⟩
    refine ⟨⟨hunregistered, hresolved, hsse⟩, fun id other hne hid hprogress => ?_⟩
    have hid' : id ≠ run.aggregateId := by
      rintro rfl
      exact hne (halone other hid hprogress)
    rw [hsessions, Function.update_of_ne hid']
    exact hid

omit [DecidableEq ρ] in
/-- The `finally` block resolves the futures that stand under their call id. -/
theorem failPending_resolves_iff (ends : ρ → Bool) (message : String) (hends : ends r = true)
    (hrun : s.runs r = some run) (hrequests : t.requests = s.failPending ends message) :
    (∀ i request, t.Received r i request → request.future ≠ some .pending) ↔
      ∀ i request, s.Received r i request → request.future = some .pending →
        run.pendingMcp request.callId = some i := by
  constructor
  · intro hresolved i request hreceived hpending
    by_contra hentry
    have hkept := failPending_received message hends hrun hreceived
    rw [if_neg hentry, ← hrequests] at hkept
    exact hresolved i request ⟨hkept, hreceived.2⟩ hpending
  · intro hentries i after hafter hpending
    cases hrequest : s.requests i with
    | none =>
        rw [Received, hrequests, failPending_none ends message hrequest] at hafter
        cases hafter.1
    | some request =>
        obtain ⟨other, hother, hprogress⟩ := failPending_progress ends message hrequest
        rw [← hrequests] at hother
        obtain rfl : other = after := Option.some.inj (hother.symm.trans hafter.1)
        have hreceived : s.Received r i request := ⟨hrequest, hprogress.run.symm.trans hafter.2⟩
        have hfails := failPending_received message hends hrun hreceived
        rw [if_pos (hentries i request hreceived (hprogress.pending hpending)), ← hrequests]
          at hfails
        obtain rfl := Option.some.inj (hfails.symm.trans hother)
        rw [ProposeRequest.fail_eq_settle] at hpending
        exact absurd hpending (ProposeRequest.settle_not_pending request nofun)

/-- A run ends with nothing left of it, and every other run left alone, exactly
if it may end. -/
theorem exit_iff {dumps : Json → String} (h : s.Streaming dumps) (hrun : s.runs r = some run)
    (reprMessage : String → String) {k : AdapterStep ρ ι} (hexit : Exits run r k)
    {next : AgentRun ι} (hnext : (s.step dumps reprMessage k).runs r = some next) :
    ((s.step dumps reprMessage k).Released r next ∧
      LeavesOthers s (s.step dumps reprMessage k) r) ↔ s.MayEnd r run k := by
  have hsse : next.sse = run.sse := by
    obtain ⟨after, hafter, hended | hstays⟩ := step_outcome hrun dumps reprMessage k
    · obtain rfl := Option.some.inj (hafter.symm.trans hnext)
      exact hended.2.2
    · exact absurd hexit hstays.1
  cases k with
  | createFails other raised =>
      obtain ⟨rfl, hphase⟩ := hexit
      have hstream : run.sse = .none := (h.stream other run hrun).created (Or.inl hphase)
      cases raised with
      | exception error =>
          refine pops_iff h hrun ?_ (by rw [hsse, hstream]; exact nofun) |>.trans ?_
          · simp only [step, createFails, hrun, hphase]
          · simp only [step, createFails, hrun, hphase]
            rfl
      | cancelled =>
          refine leaves_iff ?_ ?_ hsse
          · simp only [step, createFails, hrun, hphase]
            rfl
          · simp only [step, createFails, hrun, hphase]
            rfl
  | within other k =>
      obtain ⟨rfl, -⟩ := hexit
      exact leaves_iff (modify_sessions other _) (modify_requests other _) hsse
  | stopped other =>
      obtain ⟨rfl, ending, hphase⟩ := hexit
      have hstream : run.sse ≠ .running := (h.stream other run hrun).closing ending hphase
      refine (pops_iff h hrun ?_ (by rw [hsse]; exact hstream)).trans (and_congr_left' ?_)
      · simp only [step, stopped, hrun, hphase]
      · refine failPending_resolves_iff (· = other)
          "spawn_agent ended with pending MCP call" (by simp) hrun ?_
        simp only [step, stopped, hrun, hphase]
  | _ => exact hexit.elim

/-- A step keeps what has ended released, and the others registered, exactly if
each run it ends may end. -/
theorem step_released_iff {dumps : Json → String} (h : s.Streaming dumps)
    (hreleased : s.AllReleased) (reprMessage : String → String) (k : AdapterStep ρ ι) :
    ((s.step dumps reprMessage k).AllReleased ∧ KeepsOthers s (s.step dumps reprMessage k)) ↔
      ∀ r run, s.runs r = some run → Exits run r k → s.MayEnd r run k := by
  constructor
  · rintro ⟨hall, hothers⟩ r run hrun hexit
    obtain ⟨next, hnext, hended | hstays⟩ := step_outcome hrun dumps reprMessage k
    · have hprogress : s.InProgress r := ⟨run, hrun, not_over_of_exits hexit⟩
      exact (exit_iff h hrun reprMessage hexit hnext).mp
        ⟨hall r next hnext hended.2.1, hothers r next hprogress hnext hended.2.1⟩
    · exact absurd hexit hstays.1
  · intro hmay
    constructor
    · intro r next hnext hover
      cases hrun : s.runs r with
      | none =>
          rcases step_runs_none hrun dumps reprMessage k with hnone | ⟨id, hnew⟩
          · cases hnone.symm.trans hnext
          · obtain rfl := Option.some.inj (hnew.symm.trans hnext)
            exact absurd hover (AgentRun.not_over_of_creating rfl)
      | some run =>
          obtain ⟨other, hother, hended | hstays⟩ := step_outcome hrun dumps reprMessage k
          · exact ((exit_iff h hrun reprMessage hended.1 hnext).mpr
              (hmay r run hrun hended.1)).1
          · obtain rfl := Option.some.inj (hother.symm.trans hnext)
            have hbefore : run.Over := hstays.2.ended hover
            exact (hreleased r run hrun hbefore).step hrun hbefore hnext
    · rintro r next ⟨run, hrun, hprogress⟩ hnext hover
      obtain ⟨other, hother, hended | hstays⟩ := step_outcome hrun dumps reprMessage k
      · exact ((exit_iff h hrun reprMessage hended.1 hnext).mpr (hmay r run hrun hended.1)).2
      · obtain rfl := Option.some.inj (hother.symm.trans hnext)
        exact absurd (hstays.2.ended hover) hprogress

/-- All along the steps nothing is left of the runs that have ended, and no end
takes the registration of another run in progress. -/
structure EndCleanly (dumps : Json → String) (reprMessage : String → String)
    (steps : List (AdapterStep ρ ι)) : Prop where
  released : ∀ before later, steps = before ++ later →
    (after dumps reprMessage before).AllReleased
  others : ∀ before k later, steps = before ++ k :: later →
    KeepsOthers (after dumps reprMessage before)
      ((after dumps reprMessage before).step dumps reprMessage k)

/-- The runs end cleanly exactly if each exit comes where the run may end. What a
run has registered is taken back in a `finally` block that begins only with the
drain loop, so that an exit ahead of it may leave something behind. -/
theorem endCleanly_iff (dumps : Json → String) (reprMessage : String → String)
    (steps : List (AdapterStep ρ ι)) :
    EndCleanly dumps reprMessage steps ↔
      ∀ before k later, steps = before ++ k :: later → ∀ r run,
        (after dumps reprMessage before).runs r = some run → Exits run r k →
          (after dumps reprMessage before).MayEnd r run k := by
  have hstreaming (before : List (AdapterStep ρ ι)) :
      (after dumps reprMessage before).Streaming dumps :=
    run_invariant (streaming_initial dumps) fun _ k _ h => h.step reprMessage k
  constructor
  · rintro ⟨hreleased, hothers⟩ before k later hsteps
    have hbefore := hreleased before (k :: later) hsteps
    have hnext := hreleased (before ++ [k]) later (by rw [hsteps]; simp)
    rw [after_snoc] at hnext
    exact (step_released_iff (hstreaming before) hbefore reprMessage k).mp
      ⟨hnext, hothers before k later hsteps⟩
  · intro hmay
    have hreleased (before : List (AdapterStep ρ ι)) :
        ∀ later, steps = before ++ later → (after dumps reprMessage before).AllReleased := by
      induction before using List.reverseRecOn with
      | nil => exact fun _ _ _ _ hrun => nomatch hrun
      | append_singleton before k ih =>
          intro later hsteps
          rw [List.append_assoc, List.singleton_append] at hsteps
          rw [after_snoc]
          exact ((step_released_iff (hstreaming before) (ih _ hsteps) reprMessage k).mpr
            (hmay before k later hsteps)).1
    refine ⟨hreleased, fun before k later hsteps => ?_⟩
    exact ((step_released_iff (hstreaming before) (hreleased before _ hsteps) reprMessage k).mpr
      (hmay before k later hsteps)).2

end Runs

/-- The caller closes the generator at its first yield. -/
def closedAtFirst : List (AdapterStep Unit Unit) :=
  [.start () "srs", .within () (.created "ses-1"), .within () .close]

/-- The session stays registered. -/
theorem not_endCleanly_closedAtFirst :
    ¬EndCleanly (fun _ => "null") id closedAtFirst := by
  intro hclean
  have hreleased := hclean.released closedAtFirst [] rfl
  exact (hreleased () _ rfl ⟨false, .closed, rfl⟩).unregistered "srs" rfl

end OpenCodeAdapter

end ForgeOS
