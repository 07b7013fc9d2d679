import ForgeOS.Project.Rework

/-!
The lifecycle of a ticket: opened, approved, in progress, resolved. Tickets
are told apart by their position in the store, since ids may collide; no call
removes a ticket or changes its position.
-/

namespace ForgeOS

open Library

namespace BacktrackStatus

/-- The lifecycle, in order. No call rejects a ticket. -/
def lifecycle : List BacktrackStatus := [.opened, .approved, .inProgress, .resolved]

/-- The status is kept, or replaced by one further along the lifecycle. -/
def Forward (status status' : BacktrackStatus) : Prop :=
  status = status' ∨ [status, status'].Sublist lifecycle

instance (status status' : BacktrackStatus) : Decidable (status.Forward status') :=
  inferInstanceAs (Decidable (_ ∨ _))

theorem Forward.refl (status : BacktrackStatus) : status.Forward status := Or.inl rfl

theorem Forward.trans {first second third : BacktrackStatus} (h : first.Forward second)
    (h' : second.Forward third) : first.Forward third := by
  revert h h'
  cases first <;> cases second <;> cases third <;> decide

theorem forward_approved_iff {status : BacktrackStatus} :
    status.Forward .approved ↔ status = .opened ∨ status = .approved := by
  cases status <;> decide

theorem forward_resolved_iff {status : BacktrackStatus} :
    status.Forward .resolved ↔ status ≠ .rejected := by
  cases status <;> decide

/-- Nothing follows a resolved ticket. -/
theorem Forward.of_resolved {status : BacktrackStatus} (h : Forward .resolved status) :
    status = .resolved := by
  revert h
  cases status <;> decide

/-- A rework in progress cannot be run again. -/
theorem Forward.not_approved {status : BacktrackStatus} (h : Forward .inProgress status) :
    status ≠ .approved := by
  revert h
  cases status <;> decide

end BacktrackStatus

namespace Workspace

def statusAt (workspace : Workspace) (position : Nat) : Option BacktrackStatus :=
  workspace.tickets[position]?.map BacktrackTicket.status

/-- Over a run the tickets keep to the lifecycle. -/
structure KeepsLifecycle (host : Host) (start : Workspace) (calls : List ReworkCall) : Prop where
  forward : ∀ earlier later after position status, calls = earlier ++ later ++ after →
    (run (perform host) start earlier).statusAt position = some status →
    ∃ status', (run (perform host) start (earlier ++ later)).statusAt position = some status' ∧
      status.Forward status'
  staysResolved : ∀ earlier later after position, calls = earlier ++ later ++ after →
    (run (perform host) start earlier).statusAt position = some .resolved →
    (run (perform host) start (earlier ++ later)).statusAt position = some .resolved
  /-- Two calls of `run_rework` that succeed are about different tickets. -/
  reworkedOnce : ∀ before first between second after,
    calls = before ++ .runRework first :: between ++ .runRework second :: after →
    ((runRework first).exec (run (perform host) start before)).1 = .ok true →
    ((runRework second).exec (run (perform host) start
      (before ++ .runRework first :: between))).1 = .ok true →
    (run (perform host) start before).backtrack.position first ≠
      (run (perform host) start (before ++ .runRework first :: between)).backtrack.position second

/-- An approval finds no ticket, or one that is not yet in progress; a
resolution that goes through finds no rejected ticket. -/
def AdmitsMove (workspace : Workspace) : ReworkCall → Prop
  | .create _ _ _ _ => True
  | .approve ticketId => ∀ ticket, workspace.backtrack.getTicket ticketId = some ticket →
      ticket.status = .opened ∨ ticket.status = .approved
  | .runRework _ => True
  | .resolve ticketId => ∀ ticket, workspace.backtrack.getTicket ticketId = some ticket →
      ticket.status = .rejected →
      ticket.affectedArtifacts ≠ [] ∧ workspace.project.load.isOk = false

/-! ### What a call moves -/

def moves (workspace : Workspace) : ReworkCall → Option (Nat × BacktrackStatus)
  | .create _ _ _ _ => none
  | .approve ticketId =>
      if (workspace.backtrack.getTicket ticketId).isSome then
        some (workspace.backtrack.position ticketId, .approved)
      else none
  | .runRework ticketId =>
      if (workspace.backtrack.getTicket ticketId).map BacktrackTicket.status = some .approved ∧
          workspace.project.load.isOk then
        some (workspace.backtrack.position ticketId, .inProgress)
      else none
  | .resolve ticketId =>
      match workspace.backtrack.getTicket ticketId with
      | some ticket =>
          if ticket.affectedArtifacts = [] ∨ workspace.project.load.isOk then
            some (workspace.backtrack.position ticketId, .resolved)
          else none
      | none => none

section Moves

variable {host : Host} {workspace : Workspace} {ticketId : String} {ticket : BacktrackTicket}

private theorem position_lt (h : workspace.backtrack.getTicket ticketId = some ticket) :
    workspace.backtrack.position ticketId < workspace.tickets.length :=
  (List.getElem?_eq_some_iff.mp (tickets_position h)).1

private theorem statusAt_position (h : workspace.backtrack.getTicket ticketId = some ticket) :
    workspace.statusAt (workspace.backtrack.position ticketId) = some ticket.status :=
  congrArg (Option.map BacktrackTicket.status) (tickets_position h)

/-- A call sets the status of the ticket it moves, or adds tickets at most. -/
theorem tickets_perform (host : Host) (workspace : Workspace) (call : ReworkCall) :
    (workspace.moves call = none ∧
      ∃ added, (workspace.perform host call).tickets = workspace.tickets ++ added) ∨
    ∃ position status, workspace.moves call = some (position, status) ∧
      position < workspace.tickets.length ∧
      (workspace.perform host call).tickets =
        workspace.tickets.modify position fun ticket => { ticket with status := status } := by
  cases call with
  | create now reason sourceStageId targetStageId =>
      refine Or.inl ⟨rfl, ?_⟩
      cases hload : workspace.project.load with
      | error error =>
          rw [perform_create_of_error hload]
          exact ⟨[], (List.append_nil _).symm⟩
      | ok document =>
          rw [perform_create hload]
          exact ⟨_, rfl⟩
  | approve ticketId =>
      rw [perform_approve]
      cases hticket : workspace.backtrack.getTicket ticketId with
      | none =>
          refine Or.inl ⟨by simp [moves, hticket], [], ?_⟩
          rw [BacktrackFile.updateTicket_of_none hticket, List.append_nil]
      | some ticket =>
          exact Or.inr ⟨_, _, by simp [moves, hticket], position_lt hticket,
            tickets_updated _ _ _⟩
  | runRework ticketId =>
      rw [perform]
      rcases runRework_cases workspace ticketId with ⟨outcome, hexec, -, hstops⟩ | ⟨ticket,
        document, project', hticket, hstatus, hload, hexec, -⟩
      · refine Or.inl ⟨if_neg ?_, [], by rw [hexec, List.append_nil]⟩
        rintro ⟨happroved, hok⟩
        obtain ⟨ticket, hticket, hstatus⟩ := Option.map_eq_some_iff.mp happroved
        cases hload : workspace.project.load with
        | error error =>
            rw [hload] at hok
            cases hok
        | ok document => exact hstops ticket document hticket hstatus hload
      · rw [hexec]
        refine Or.inr ⟨_, _, if_pos ?_, position_lt hticket, tickets_updated _ _ _⟩
        exact ⟨by rw [hticket, Option.map_some, hstatus], by rw [hload]; rfl⟩
  | resolve ticketId =>
      rcases resolveTicket_cases host workspace ticketId with ⟨hsame, hstops⟩ | ⟨ticket, project',
        hticket, hdone, hcleared⟩
      · refine Or.inl ⟨?_, [], by rw [hsame, List.append_nil]⟩
        simp only [moves]
        cases hticket : workspace.backtrack.getTicket ticketId with
        | none => rfl
        | some ticket =>
            obtain ⟨hne, error, hload⟩ := hstops ticket hticket
            refine if_neg (not_or.mpr ⟨hne, ?_⟩)
            rw [hload]
            exact Bool.false_ne_true
      · rw [hdone]
        refine Or.inr ⟨_, _, ?_, position_lt hticket, tickets_updated _ _ _⟩
        simp only [moves, hticket]
        refine if_pos (hcleared.imp And.left ?_)
        rintro ⟨document, hload, -⟩
        rw [hload]
        rfl

theorem statusAt_of_moves {call : ReworkCall} {position : Nat} {status : BacktrackStatus}
    (h : workspace.moves call = some (position, status)) :
    (workspace.perform host call).statusAt position = some status := by
  rcases tickets_perform host workspace call with ⟨hnone, -⟩ | ⟨position', status', hmoves, hbound,
    htickets⟩
  · rw [hnone] at h
    cases h
  · rw [hmoves, Option.some.injEq, Prod.mk.injEq] at h
    obtain ⟨rfl, rfl⟩ := h
    rw [statusAt, htickets, List.getElem?_modify_eq, List.getElem?_eq_getElem hbound]
    rfl

/-- A ticket stays where it is; its status is what the call makes it, if the
call moves it. -/
theorem statusAt_perform (host : Host) (call : ReworkCall) {position : Nat}
    {status : BacktrackStatus} (h : workspace.statusAt position = some status) :
    ∃ status', (workspace.perform host call).statusAt position = some status' ∧
      (status' = status ∨ workspace.moves call = some (position, status')) := by
  obtain ⟨ticket, hticket, rfl⟩ := Option.map_eq_some_iff.mp h
  rcases tickets_perform host workspace call with ⟨-, added, htickets⟩ | ⟨position', status',
    hmoves, hbound, htickets⟩
  · refine ⟨ticket.status, ?_, Or.inl rfl⟩
    rw [statusAt, htickets, List.getElem?_append_left (List.getElem?_eq_some_iff.mp hticket).1,
      hticket, Option.map_some]
  · by_cases hposition : position' = position
    · subst hposition
      exact ⟨status', statusAt_of_moves hmoves, Or.inr hmoves⟩
    · refine ⟨ticket.status, ?_, Or.inl rfl⟩
      rw [statusAt, htickets, List.getElem?_modify_ne _ _ hposition, hticket, Option.map_some]

/-- What a call moves goes forward exactly when the call admits the move. -/
theorem admitsMove_iff {call : ReworkCall} : workspace.AdmitsMove call ↔
    ∀ position status status', workspace.moves call = some (position, status') →
      workspace.statusAt position = some status → status.Forward status' := by
  cases call with
  | create now reason sourceStageId targetStageId => simp [AdmitsMove, moves]
  | approve ticketId =>
      cases hticket : workspace.backtrack.getTicket ticketId with
      | none => simp [AdmitsMove, moves, hticket]
      | some ticket =>
          simp only [AdmitsMove, moves, hticket, Option.isSome_some, if_true, Option.some.injEq,
            Prod.mk.injEq, forall_eq', ← BacktrackStatus.forward_approved_iff]
          constructor
          · rintro hforward position status status' ⟨rfl, rfl⟩ hstatus
            rw [statusAt_position hticket, Option.some.injEq] at hstatus
            exact hstatus ▸ hforward
          · exact fun h => h _ _ _ ⟨rfl, rfl⟩ (statusAt_position hticket)
  | runRework ticketId =>
      refine iff_of_true trivial ?_
      intro position status status' hmoves hstatus
      cases hticket : workspace.backtrack.getTicket ticketId with
      | none => simp [moves, hticket] at hmoves
      | some ticket =>
          simp only [moves, hticket, Option.map_some, Option.some.injEq] at hmoves
          split at hmoves
          · rename_i hruns
            obtain ⟨rfl, rfl⟩ := Prod.mk.inj (Option.some.inj hmoves)
            rw [statusAt_position hticket, Option.some.injEq, hruns.1] at hstatus
            exact hstatus ▸ by decide
          · cases hmoves
  | resolve ticketId =>
      cases hticket : workspace.backtrack.getTicket ticketId with
      | none => simp [AdmitsMove, moves, hticket]
      | some ticket =>
          simp only [AdmitsMove, moves, hticket, Option.some.injEq, forall_eq']
          split
          · rename_i hgoes
            constructor
            · intro hadmits position status status' hmoves hstatus
              obtain ⟨rfl, rfl⟩ := Prod.mk.inj (Option.some.inj hmoves)
              rw [statusAt_position hticket, Option.some.injEq] at hstatus
              rw [BacktrackStatus.forward_resolved_iff, ← hstatus]
              intro hrejected
              obtain ⟨hne, hload⟩ := hadmits hrejected
              rw [hload] at hgoes
              exact hgoes.elim hne Bool.false_ne_true
            · intro h hrejected
              have hforward := h _ _ _ rfl (statusAt_position hticket)
              rw [BacktrackStatus.forward_resolved_iff] at hforward
              exact absurd hrejected hforward
          · rename_i hstops
            rw [not_or, Bool.not_eq_true] at hstops
            simp [hstops]

/-- `run_rework` succeeds for an approved ticket, and starts it. -/
theorem moves_of_succeeds (h : ((ForgeOS.runRework ticketId).exec workspace).1 = .ok true) :
    workspace.statusAt (workspace.backtrack.position ticketId) = some .approved ∧
      workspace.moves (.runRework ticketId) =
        some (workspace.backtrack.position ticketId, .inProgress) := by
  rcases runRework_cases workspace ticketId with ⟨outcome, hexec, hfails, -⟩ | ⟨ticket,
    document, project', hticket, hstatus, hload, -, -⟩
  · rw [hexec] at h
    exact absurd h hfails
  · refine ⟨hstatus ▸ statusAt_position hticket, if_pos ?_⟩
    exact ⟨by rw [hticket, Option.map_some, hstatus], by rw [hload]; rfl⟩

end Moves

/-! ### Runs -/

variable {host : Host}

/-- When every call admits its move, each ticket goes forward over the run. -/
theorem statusAt_run {workspace : Workspace} {calls : List ReworkCall}
    (hadmits : ∀ before call after, calls = before ++ call :: after →
      (run (perform host) workspace before).AdmitsMove call)
    {position : Nat} {status : BacktrackStatus} (h : workspace.statusAt position = some status) :
    ∃ status', (run (perform host) workspace calls).statusAt position = some status' ∧
      status.Forward status' := by
  induction calls generalizing workspace status with
  | nil => exact ⟨status, h, .refl status⟩
  | cons call rest ih =>
      obtain ⟨next, hnext, hmove⟩ := statusAt_perform host call h
      have hforward : status.Forward next := by
        rcases hmove with rfl | hmoves
        · exact .refl next
        · exact admitsMove_iff.mp (hadmits [] call rest rfl) position status next hmoves h
      have hrest : ∀ before later after, rest = before ++ later :: after →
          (run (perform host) (workspace.perform host call) before).AdmitsMove later := by
        intro before later after hsplit
        exact hadmits (call :: before) later after (by rw [hsplit, List.cons_append])
      obtain ⟨status', hstatus', hlater⟩ := ih hrest hnext
      exact ⟨status', hstatus', hforward.trans hlater⟩

/-- In every run the tickets keep to their lifecycle exactly when each call
admits its move. Approving and resolving do not ask for the status that a ticket
has. -/
theorem keepsLifecycle_iff (host : Host) (start : Workspace) (calls : List ReworkCall) :
    start.KeepsLifecycle host calls ↔
      ∀ before call after, calls = before ++ call :: after →
        (run (perform host) start before).AdmitsMove call := by
  constructor
  · intro hkeeps before call after hcalls
    refine admitsMove_iff.mpr fun position status status' hmoves hstatus => ?_
    obtain ⟨later, hlater, hforward⟩ := hkeeps.forward before [call] after position status
      (by simp [hcalls]) hstatus
    rw [run_snoc, statusAt_of_moves hmoves, Option.some.injEq] at hlater
    exact hlater ▸ hforward
  · intro hadmits
    have hforward : ∀ earlier later after position status, calls = earlier ++ later ++ after →
        (run (perform host) start earlier).statusAt position = some status →
        ∃ status', (run (perform host) start (earlier ++ later)).statusAt position =
          some status' ∧ status.Forward status' := by
      intro earlier later after position status hcalls hstatus
      rw [run_append]
      refine statusAt_run ?_ hstatus
      intro before call rest hlater
      rw [← run_append]
      exact hadmits (earlier ++ before) call (rest ++ after) (by simp [hcalls, hlater])
    refine ⟨hforward, ?_, ?_⟩
    · intro earlier later after position hcalls hresolved
      obtain ⟨status, hstatus, hmoved⟩ := hforward earlier later after position _ hcalls hresolved
      rw [hstatus, hmoved.of_resolved]
    · intro before first between second after hcalls hfirst hsecond hsame
      obtain ⟨-, hmoves⟩ := moves_of_succeeds hfirst
      have hstarted : (run (perform host) start (before ++ [.runRework first])).statusAt
          ((run (perform host) start before).backtrack.position first) = some .inProgress := by
        rw [run_snoc]
        exact statusAt_of_moves hmoves
      have hsplit : calls = (before ++ [.runRework first]) ++ between ++
          .runRework second :: after := by
        simp [hcalls]
      obtain ⟨status, hstatus, hmoved⟩ := hforward _ _ _ _ _ hsplit hstarted
      rw [List.append_assoc, List.singleton_append, hsame, (moves_of_succeeds hsecond).1,
        Option.some.injEq] at hstatus
      exact hmoved.not_approved hstatus.symm

/-- A workspace without artifacts and tickets. -/
def demo : Workspace := ⟨Session.demo.project, .absent⟩

/-- A ticket is approved again while its rework is in progress. -/
def approvedAgain : List ReworkCall := [
  .create "2026-01-01T10:00:00" "The plan misses a requirement." "build" "plan",
  .approve "BT-7C9E66", .runRework "BT-7C9E66", .approve "BT-7C9E66"]

/-- Then it goes back from in progress to approved. -/
theorem not_keepsLifecycle : ¬ demo.KeepsLifecycle Host.demo approvedAgain := by
  intro hkeeps
  have hstarted : (run (perform Host.demo) demo (approvedAgain.take 3)).statusAt 0 =
      some .inProgress := by
    decide
  have hback : (run (perform Host.demo) demo approvedAgain).statusAt 0 = some .approved := by
    decide
  obtain ⟨status, hstatus, hforward⟩ := hkeeps.forward (approvedAgain.take 3)
    (approvedAgain.drop 3) [] 0 .inProgress
    (by rw [List.append_nil, List.take_append_drop]) hstarted
  rw [List.take_append_drop, hback, Option.some.injEq] at hstatus
  rw [← hstatus] at hforward
  exact absurd hforward (by decide)

end Workspace

end ForgeOS
