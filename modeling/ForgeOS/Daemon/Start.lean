import ForgeOS.Library.Effect
import Mathlib.Data.List.Induction
import Mathlib.Logic.Function.Basic

/-!
Concurrent starts of the daemon. A start takes a lock file, looks whether the
recorded daemon lives, spawns a new one and removes the lock; the new daemon
records its own pid, some time later. The lock is removed before that, and by
whoever finds it stale, so that it does not keep a start from looking at a
record that is out of date.
-/

namespace ForgeOS

open Library

/-- What stands in `state.json`. -/
inductive DaemonRecord where
  | absent
  | corrupt
  | pid (pid : Nat)

/-- Where one `start_daemon` call stands. A call that raises removes the lock
before it ends. -/
inductive Starter where
  /-- About to create the lock, in the first attempt or the second. -/
  | opening (second : Bool)
  /-- The lock exists; about to look at its age. -/
  | found (second : Bool)
  /-- The lock is older than `_STALE_LOCK_SECONDS`; about to unlink it. -/
  | stale
  | locked
  /-- The record has been loaded, and no daemon of it is alive. -/
  | checked
  | raising
  | spawned
  | ended
  | returned

/-- The files of the daemon, the calls, and the processes of the daemons they
have spawned: by pid, the call of a live one and whether it has persisted its
state. -/
structure DaemonDir (ι : Type) where
  lock : Bool
  record : DaemonRecord
  starters : ι → Starter
  processes : Nat → Option (ι × Bool)

/-- One step of a call or of a daemon. Whether the lock is found to be old and
whether a foreign process answers for the recorded pid is up to the run, and so
is the pid a daemon gets. -/
inductive StartStep (ι : Type) where
  | openLock (call : ι)
  | statLock (call : ι) (old : Bool)
  | unlinkStale (call : ι)
  | check (call : ι) (foreign : Bool)
  | spawn (call : ι) (pid : Nat)
  | spawnFails (call : ι)
  | unlinkLock (call : ι)
  | persist (pid : Nat)
  | exit (pid : Nat)

namespace DaemonDir

variable {ι : Type} [DecidableEq ι]

omit [DecidableEq ι] in
/-- Any lock and any state file, and no daemon. -/
def initial (lock : Bool) (record : DaemonRecord) : DaemonDir ι where
  lock := lock
  record := record
  starters := fun _ => .opening false
  processes := fun _ => none

/-- A call goes on in another phase. -/
def moves (s : DaemonDir ι) (call : ι) (phase : Starter) : DaemonDir ι :=
  { s with starters := Function.update s.starters call phase }

omit [DecidableEq ι] in
def isPidAlive (s : DaemonDir ι) (pid : Nat) (foreign : Bool) : Bool :=
  0 < pid && (foreign || (s.processes pid).isSome)

/-- `store.load()` and the probe of the recorded pid. -/
def checkRecord (s : DaemonDir ι) (call : ι) (foreign : Bool) : DaemonDir ι :=
  match s.record with
  | .absent => s.moves call .checked
  | .corrupt => s.moves call .raising
  | .pid pid => s.moves call (if s.isPidAlive pid foreign then .raising else .checked)

/-- `Popen`, with a pid that is free. -/
def spawnDaemon (s : DaemonDir ι) (call : ι) (pid : Nat) : DaemonDir ι :=
  { s.moves call .spawned with processes := Function.update s.processes pid (some (call, false)) }

/-- A step that its call or daemon cannot take changes nothing. -/
def step (s : DaemonDir ι) : StartStep ι → DaemonDir ι
  | .openLock call =>
      match s.starters call with
      | .opening second =>
          if s.lock then s.moves call (.found second)
          else { s.moves call .locked with lock := true }
      | _ => s
  | .statLock call old =>
      match s.starters call with
      | .found second =>
          if !s.lock then
            -- vanished: the next attempt, or the error after the last
            s.moves call (if second then .ended else .opening true)
          else s.moves call (if old && !second then .stale else .ended)
      | _ => s
  | .unlinkStale call =>
      match s.starters call with
      | .stale => { s.moves call (.opening true) with lock := false }
      | _ => s
  | .check call foreign =>
      match s.starters call with
      | .locked => s.checkRecord call foreign
      | _ => s
  | .spawn call pid =>
      match s.starters call with
      | .checked =>
          if 0 < pid ∧ s.processes pid = none then s.spawnDaemon call pid else s
      | _ => s
  | .spawnFails call =>
      match s.starters call with
      | .checked => s.moves call .raising
      | _ => s
  | .unlinkLock call =>
      match s.starters call with
      | .raising => { s.moves call .ended with lock := false }
      | .spawned => { s.moves call .returned with lock := false }
      | _ => s
  | .persist pid =>
      match s.processes pid with
      | some (call, false) =>
          { s with
            record := .pid pid
            processes := Function.update s.processes pid (some (call, true)) }
      | _ => s
  | .exit pid => { s with processes := Function.update s.processes pid none }

/-- At most one daemon is alive. -/
def AtMostOne (s : DaemonDir ι) : Prop :=
  ∀ pid pid' daemon daemon', s.processes pid = some daemon → s.processes pid' = some daemon' →
    pid = pid'

omit [DecidableEq ι] in
def MaySpawn (s : DaemonDir ι) (call : ι) (pid : Nat) : Prop :=
  s.starters call = .checked ∧ 0 < pid ∧ s.processes pid = none

/-- When a call spawns, nothing has slipped in between its load of the record
and the spawn. A daemon that had not persisted its pid at the load has exited
since then, and so has every daemon that was spawned since then. -/
def SpawnsInTime (start : DaemonDir ι) (before : List (StartStep ι)) : StartStep ι → Prop
  | .spawn call pid => (run step start before).MaySpawn call pid →
      ∀ early foreign late, before = early ++ .check call foreign :: late →
        (run step start early).starters call = .locked →
        (∀ live writer, (run step start early).processes live = some (writer, false) →
          .exit live ∈ late) ∧
        ∀ between other live rest, late = between ++ .spawn other live :: rest →
          (run step start (early ++ .check call foreign :: between)).MaySpawn other live →
            .exit live ∈ rest
  | _ => True

/-! ### What a step changes -/

variable {s : DaemonDir ι}

theorem step_spawn_of_may {call : ι} {pid : Nat} (hmay : s.MaySpawn call pid) :
    s.step (.spawn call pid) = s.spawnDaemon call pid := by
  obtain ⟨hchecked, hpid⟩ := hmay
  simp only [step, hchecked]
  exact if_pos hpid

/-- What a step does to the record and the processes: nothing, or it spawns a
daemon, or lets one persist its pid or exit. -/
theorem step_cases (s : DaemonDir ι) (st : StartStep ι) :
    ((s.step st).record = s.record ∧ (s.step st).processes = s.processes ∧
      ∀ pid, st ≠ .exit pid) ∨
    (∃ call pid, st = .spawn call pid ∧ s.MaySpawn call pid ∧
      s.step st = s.spawnDaemon call pid) ∨
    (∃ pid call, st = .persist pid ∧ s.processes pid = some (call, false) ∧
      (s.step st).record = .pid pid ∧
      (s.step st).processes = Function.update s.processes pid (some (call, true))) ∨
    ∃ pid, st = .exit pid ∧ (s.step st).record = s.record ∧
      (s.step st).processes = Function.update s.processes pid none := by
  cases st with
  | spawn call pid =>
      by_cases hmay : s.MaySpawn call pid
      · exact Or.inr (Or.inl ⟨call, pid, rfl, hmay, step_spawn_of_may hmay⟩)
      · have hsame : s.step (.spawn call pid) = s := by
          simp only [step]
          split
          · rename_i hchecked
            exact if_neg fun hpid => hmay ⟨hchecked, hpid⟩
          · rfl
        exact Or.inl ⟨by rw [hsame], by rw [hsame], by simp⟩
  | persist pid =>
      simp only [step]
      split
      · rename_i call hprocess
        exact Or.inr (Or.inr (Or.inl ⟨pid, call, rfl, hprocess, rfl, rfl⟩))
      · exact Or.inl ⟨rfl, rfl, by simp⟩
  | exit pid => exact Or.inr (Or.inr (Or.inr ⟨pid, rfl, rfl, rfl⟩))
  | check call foreign =>
      left
      simp only [step, checkRecord]
      split
      · split <;> exact ⟨rfl, rfl, by simp⟩
      · exact ⟨rfl, rfl, by simp⟩
  | openLock call =>
      left
      simp only [step]
      split
      · split <;> exact ⟨rfl, rfl, by simp⟩
      · exact ⟨rfl, rfl, by simp⟩
  | statLock call old =>
      left
      simp only [step]
      split
      · split <;> exact ⟨rfl, rfl, by simp⟩
      · exact ⟨rfl, rfl, by simp⟩
  | unlinkStale call =>
      left
      simp only [step]
      split <;> exact ⟨rfl, rfl, by simp⟩
  | spawnFails call =>
      left
      simp only [step]
      split <;> exact ⟨rfl, rfl, by simp⟩
  | unlinkLock call =>
      left
      simp only [step]
      split <;> exact ⟨rfl, rfl, by simp⟩

/-- A process after a step was one before it, with the same call, or it has just
been spawned. -/
theorem process_after_step {st : StartStep ι} {pid : Nat} {call : ι} {persisted : Bool}
    (h : (s.step st).processes pid = some (call, persisted)) :
    (∃ before, s.processes pid = some (call, before) ∧ st ≠ .exit pid) ∨
      st = .spawn call pid ∧ s.MaySpawn call pid ∧ persisted = false := by
  rcases s.step_cases st with ⟨-, hsame, hexit⟩ | ⟨other, live, rfl, hmay, hspawned⟩ |
    ⟨live, writer, rfl, hwriter, -, hpersisted⟩ | ⟨live, rfl, -, hexited⟩
  · exact Or.inl ⟨persisted, hsame ▸ h, hexit pid⟩
  · rw [hspawned] at h
    simp only [spawnDaemon, Function.update_apply] at h
    split at h
    · rename_i hpid
      obtain ⟨rfl, rfl⟩ := Prod.mk.inj (Option.some.inj h)
      exact Or.inr ⟨by rw [hpid], hpid ▸ hmay, rfl⟩
    · exact Or.inl ⟨persisted, h, by simp⟩
  · rw [hpersisted, Function.update_apply] at h
    split at h
    · rename_i hpid
      obtain ⟨rfl, -⟩ := Prod.mk.inj (Option.some.inj h)
      exact Or.inl ⟨false, hpid ▸ hwriter, by simp⟩
    · exact Or.inl ⟨persisted, h, by simp⟩
  · rw [hexited, Function.update_apply] at h
    split at h
    · cases h
    · rename_i hpid
      refine Or.inl ⟨persisted, h, ?_⟩
      intro hsame
      exact hpid (StartStep.exit.inj hsame).symm

/-- A process goes on until it exits. -/
theorem process_step {st : StartStep ι} {pid : Nat} {call : ι} {persisted : Bool}
    (h : s.processes pid = some (call, persisted)) (hst : st ≠ .exit pid) :
    ∃ after, (s.step st).processes pid = some (call, after) := by
  rcases s.step_cases st with ⟨-, hsame, -⟩ | ⟨other, live, rfl, ⟨-, -, hfree⟩, hspawned⟩ |
    ⟨live, writer, rfl, hwriter, -, hpersisted⟩ | ⟨live, rfl, -, hexited⟩
  · exact ⟨persisted, hsame ▸ h⟩
  · have hne : pid ≠ live := by
      rintro rfl
      rw [hfree] at h
      cases h
    exact ⟨persisted, by rw [hspawned]; exact (Function.update_of_ne hne ..).trans h⟩
  · rw [hpersisted]
    by_cases hpid : pid = live
    · subst hpid
      rw [hwriter, Option.some.injEq, Prod.mk.injEq] at h
      exact ⟨true, by rw [← h.1]; exact Function.update_self ..⟩
    · exact ⟨persisted, (Function.update_of_ne hpid ..).trans h⟩
  · have hpid : pid ≠ live := by
      rintro rfl
      exact hst rfl
    exact ⟨persisted, by rw [hexited]; exact (Function.update_of_ne hpid ..).trans h⟩

/-- A call is ready to spawn once it has loaded the record and found it dead. -/
theorem checked_after_step {st : StartStep ι} {call : ι}
    (h : (s.step st).starters call = .checked) :
    s.starters call = .checked ∨
      ∃ foreign, st = .check call foreign ∧ s.starters call = .locked := by
  have hmoves {other : ι} {phase : Starter} (hphase : phase ≠ .checked)
      (hmoved : (s.moves other phase).starters call = .checked) :
      s.starters call = .checked := by
    simp only [moves, Function.update_apply] at hmoved
    split at hmoved
    · exact absurd hmoved hphase
    · exact hmoved
  cases st with
  | check other foreign =>
      by_cases hcall : other = call
      · subst hcall
        by_cases hlocked : s.starters other = .locked
        · exact Or.inr ⟨foreign, rfl, hlocked⟩
        · left
          simp only [step] at h
          exact h
      · left
        have hother (phase : Starter) : (s.moves other phase).starters call = s.starters call :=
          Function.update_of_ne (Ne.symm hcall) ..
        simp only [step, checkRecord] at h
        split at h
        · split at h <;> rwa [hother] at h
        · exact h
  | openLock other =>
      left
      simp only [step] at h
      split at h
      · split at h
        · exact hmoves (by simp) h
        · exact hmoves (by simp) h
      · exact h
  | statLock other old =>
      left
      simp only [step] at h
      split at h
      · split at h
        · exact hmoves (by split <;> simp) h
        · exact hmoves (by split <;> simp) h
      · exact h
  | unlinkStale other =>
      left
      simp only [step] at h
      split at h
      · exact hmoves (by simp) h
      · exact h
  | spawn other pid =>
      left
      simp only [step] at h
      split at h
      · split at h
        · exact hmoves (by simp) h
        · exact h
      · exact h
  | spawnFails other =>
      left
      simp only [step] at h
      split at h
      · exact hmoves (by simp) h
      · exact h
  | unlinkLock other =>
      left
      simp only [step] at h
      split at h
      · exact hmoves (by simp) h
      · exact hmoves (by simp) h
      · exact h
  | persist pid =>
      left
      simp only [step] at h
      split at h
      · exact h
      · exact h
  | exit pid => exact Or.inl h

/-! ### What a run keeps -/

omit [DecidableEq ι] in
/-- A daemon has a proper pid; one that has persisted it is the recorded one. -/
structure Recorded (s : DaemonDir ι) : Prop where
  positive : ∀ pid daemon, s.processes pid = some daemon → 0 < pid
  recorded : ∀ pid call, s.processes pid = some (call, true) → s.record = .pid pid

/-- As long as there is one daemon at most, none overwrites another's record. -/
theorem Recorded.step (h : s.Recorded) (hone : s.AtMostOne) (st : StartStep ι) :
    (s.step st).Recorded := by
  refine ⟨?_, ?_⟩
  · rintro pid ⟨call, persisted⟩ hprocess
    rcases process_after_step hprocess with ⟨before, hbefore, -⟩ | ⟨-, ⟨-, hpid, -⟩, -⟩
    · exact h.positive pid _ hbefore
    · exact hpid
  · intro pid call hprocess
    rcases process_after_step hprocess with ⟨before, hbefore, -⟩ | ⟨-, -, hfalse⟩
    · rcases s.step_cases st with ⟨hrecord, hsame, -⟩ | ⟨other, live, rfl, hmay, hspawned⟩ |
        ⟨live, writer, rfl, hwriter, hrecord, -⟩ | ⟨live, rfl, hrecord, hexited⟩
      · rw [hrecord]
        exact h.recorded pid call (hsame ▸ hprocess)
      · have hne : pid ≠ live := by
          rintro rfl
          rw [hmay.2.2] at hbefore
          cases hbefore
        rw [hspawned] at hprocess ⊢
        exact h.recorded pid call ((Function.update_of_ne hne ..).symm.trans hprocess)
      · rw [hrecord, hone pid live _ _ hbefore hwriter]
      · rw [hexited, Function.update_apply] at hprocess
        split at hprocess
        · cases hprocess
        · rw [hrecord]
          exact h.recorded pid call hprocess
    · cases hfalse

/-- A call that finds the record dead leaves no persisted daemon behind. -/
theorem Recorded.none_persisted (h : s.Recorded) {call : ι} {foreign : Bool}
    (hlocked : s.starters call = .locked)
    (hchecked : (s.step (.check call foreign)).starters call = .checked) (pid : Nat) (writer : ι) :
    s.processes pid ≠ some (writer, true) := by
  intro hprocess
  have hrecord := h.recorded pid writer hprocess
  have halive : s.isPidAlive pid foreign = true := by
    simp [isPidAlive, h.positive pid _ hprocess, hprocess]
  simp only [DaemonDir.step, hlocked, checkRecord, hrecord, halive, if_true, moves,
    Function.update_self] at hchecked
  cases hchecked

/-- A process that is there at the end was there at the start and has not
exited, or it was spawned on the way and has not exited since. -/
theorem process_of_run {steps : List (StartStep ι)} {pid : Nat} {call : ι} {persisted : Bool}
    (h : (run step s steps).processes pid = some (call, persisted)) :
    (∃ before, s.processes pid = some (call, before) ∧ .exit pid ∉ steps) ∨
      ∃ between rest, steps = between ++ .spawn call pid :: rest ∧
        (run step s between).MaySpawn call pid ∧ .exit pid ∉ rest := by
  induction steps using List.reverseRecOn generalizing persisted with
  | nil => exact Or.inl ⟨persisted, h, by simp⟩
  | append_singleton steps st ih =>
      rw [run_snoc] at h
      rcases process_after_step h with ⟨before, hbefore, hst⟩ | ⟨rfl, hmay, -⟩
      · rcases ih hbefore with ⟨first, hfirst, hexit⟩ | ⟨between, rest, rfl, hmay, hexit⟩
        · exact Or.inl ⟨first, hfirst, by simp [hexit, hst.symm]⟩
        · exact Or.inr ⟨between, rest ++ [st], by simp, hmay, by simp [hexit, hst.symm]⟩
      · exact Or.inr ⟨steps, [], rfl, hmay, by simp⟩

/-- A process that does not exit is there at the end. -/
theorem process_run {steps : List (StartStep ι)} {pid : Nat} {call : ι} {persisted : Bool}
    (h : s.processes pid = some (call, persisted)) (hexit : .exit pid ∉ steps) :
    ∃ after, (run step s steps).processes pid = some (call, after) := by
  induction steps generalizing s persisted with
  | nil => exact ⟨persisted, h⟩
  | cons st rest ih =>
      rw [List.mem_cons, not_or] at hexit
      obtain ⟨after, hafter⟩ := process_step h (Ne.symm hexit.1)
      exact ih hafter hexit.2

/-- A call that is ready to spawn has loaded the record at some step. -/
theorem loaded_of_checked {steps : List (StartStep ι)} {call : ι}
    (hstart : s.starters call ≠ .checked)
    (h : (run step s steps).starters call = .checked) :
    ∃ early foreign late, steps = early ++ .check call foreign :: late ∧
      (run step s early).starters call = .locked ∧
      ((run step s early).step (.check call foreign)).starters call = .checked := by
  induction steps using List.reverseRecOn with
  | nil => exact absurd h hstart
  | append_singleton steps st ih =>
      rw [run_snoc] at h
      rcases checked_after_step h with hbefore | ⟨foreign, rfl, hlocked⟩
      · obtain ⟨early, foreign, late, rfl, hlocked, hchecked⟩ := ih hbefore
        exact ⟨early, foreign, late ++ [st], by simp, hlocked, hchecked⟩
      · exact ⟨steps, foreign, [], rfl, hlocked, h⟩

/-! ### At most one daemon -/

theorem atMostOne_spawn_iff {call : ι} {pid : Nat} (hmay : s.MaySpawn call pid) :
    (s.spawnDaemon call pid).AtMostOne ↔ ∀ live, s.processes live = none := by
  have hnew : (s.spawnDaemon call pid).processes pid = some (call, false) :=
    Function.update_self ..
  constructor
  · intro hone live
    by_contra hsome
    obtain ⟨daemon, hlive⟩ := Option.ne_none_iff_exists'.mp hsome
    have hne : live ≠ pid := by
      rintro rfl
      rw [hmay.2.2] at hlive
      cases hlive
    exact hne (hone live pid _ _ ((Function.update_of_ne hne ..).trans hlive) hnew)
  · intro hnone first second daemon daemon' hfirst hsecond
    simp only [spawnDaemon, Function.update_apply, moves, hnone] at hfirst hsecond
    split at hfirst
    · split at hsecond
      · rename_i hpid hpid'
        rw [hpid, hpid']
      · cases hsecond
    · cases hfirst

theorem atMostOne_step (hone : s.AtMostOne) {st : StartStep ι}
    (hspawn : ∀ call pid, st = .spawn call pid → ¬s.MaySpawn call pid) :
    (s.step st).AtMostOne := by
  rintro pid pid' ⟨call, persisted⟩ ⟨call', persisted'⟩ hpid hpid'
  rcases process_after_step hpid with ⟨before, hbefore, -⟩ | ⟨hst, hmay, -⟩
  · rcases process_after_step hpid' with ⟨before', hbefore', -⟩ | ⟨hst, hmay, -⟩
    · exact hone pid pid' _ _ hbefore hbefore'
    · exact absurd hmay (hspawn call' pid' hst)
  · exact absurd hmay (hspawn call pid hst)

/-- Where no daemon is left at a spawn, nothing has slipped in before it. -/
theorem spawnsInTime_of_none {start : DaemonDir ι} {before : List (StartStep ι)}
    (hnone : ∀ live, (run step start before).processes live = none) (call : ι) (pid : Nat) :
    SpawnsInTime start before (.spawn call pid) := by
  rintro - early foreign late rfl -
  refine ⟨?_, ?_⟩
  · intro live writer hlive
    by_contra hexit
    have hstill : .exit live ∉ .check call foreign :: late := by simp [hexit]
    obtain ⟨after, hafter⟩ := process_run hlive hstill
    rw [← run_append, hnone] at hafter
    cases hafter
  · rintro between other live rest rfl hmay
    by_contra hexit
    have hnew : (run step start (early ++ .check call foreign :: between ++
        [.spawn other live])).processes live = some (other, false) := by
      rw [run_snoc, step_spawn_of_may hmay]
      exact Function.update_self ..
    obtain ⟨after, hafter⟩ := process_run hnew hexit
    rw [← run_append] at hafter
    simp only [List.append_assoc, List.cons_append, List.nil_append] at hafter
    rw [hnone] at hafter
    cases hafter

/-- Where nothing has slipped in before a spawn, no daemon is left at it: one
that had persisted its pid would have answered. -/
theorem none_of_spawnsInTime {start : DaemonDir ι} {before : List (StartStep ι)} {call : ι}
    {pid : Nat} (hstart : start.starters call ≠ .checked)
    (hkept : ∀ early late, before = early ++ late → (run step start early).Recorded)
    (hmay : (run step start before).MaySpawn call pid)
    (htime : SpawnsInTime start before (.spawn call pid)) (live : Nat) :
    (run step start before).processes live = none := by
  obtain ⟨early, foreign, late, rfl, hlocked, hchecked⟩ := loaded_of_checked hstart hmay.1
  obtain ⟨hexits, hspawns⟩ := htime hmay early foreign late rfl hlocked
  by_contra hsome
  obtain ⟨⟨writer, persisted⟩, hlive⟩ := Option.ne_none_iff_exists'.mp hsome
  rw [run_append] at hlive
  rcases process_of_run hlive with ⟨first, hfirst, hexit⟩ | ⟨between, rest, hsteps, hspawn, hexit⟩
  · rw [List.mem_cons, not_or] at hexit
    cases first with
    | false => exact hexit.2 (hexits live writer hfirst)
    | true => exact (hkept early _ rfl).none_persisted hlocked hchecked live writer hfirst
  · rcases List.cons_eq_append_iff.mp hsteps with ⟨-, hspawned⟩ | ⟨between, rfl, rfl⟩
    · cases hspawned
    · rw [← run_append] at hspawn
      exact hexit (hspawns between writer live rest rfl hspawn)

/-- In a run of concurrent starts at most one daemon is ever alive, exactly if
every spawn is in time: each daemon that had not persisted its pid when the call
loaded the record has exited by the spawn, and so has each daemon that was
spawned after that load. -/
theorem atMostOne_throughout_iff (lock : Bool) (record : DaemonRecord)
    (steps : List (StartStep ι)) :
    (∀ before after, steps = before ++ after →
        (run step (initial lock record) before).AtMostOne) ↔
      ∀ before st after, steps = before ++ st :: after →
        SpawnsInTime (initial lock record) before st := by
  constructor
  · intro hone before st after hsteps
    cases st with
    | spawn call pid =>
        intro hmay
        have hafter := hone (before ++ [.spawn call pid]) after (by simp [hsteps])
        rw [run_snoc, step_spawn_of_may hmay, atMostOne_spawn_iff hmay] at hafter
        exact spawnsInTime_of_none hafter call pid hmay
    | _ => trivial
  · intro htime before
    -- along the prefixes of a prefix, one daemon at most, and it is the recorded one
    have hkept : ∀ after, steps = before ++ after → ∀ early late, before = early ++ late →
        (run step (initial lock record) early).AtMostOne ∧
          (run step (initial lock record) early).Recorded := by
      induction before using List.reverseRecOn with
      | nil =>
          intro after _ early late hnil
          obtain ⟨rfl, -⟩ := List.append_eq_nil_iff.mp hnil.symm
          refine ⟨?_, ?_, ?_⟩
          · intro pid pid' daemon daemon' h
            cases h
          · intro pid daemon h
            cases h
          · intro pid call h
            cases h
      | append_singleton before st ih =>
          intro after hsteps early late hprefix
          have hbefore := ih (st :: after) (by simp [hsteps])
          rcases List.append_eq_append_iff.mp hprefix with ⟨tail, rfl, hlast⟩ | ⟨tail, rfl, -⟩
          · rcases tail with _ | ⟨first, tail⟩
            · simpa using hbefore before [] (by simp)
            · rw [List.cons_append, List.cons.injEq] at hlast
              obtain ⟨rfl, hnil⟩ := hlast
              obtain ⟨rfl, -⟩ := List.append_eq_nil_iff.mp hnil.symm
              obtain ⟨hone, hrecorded⟩ := hbefore before [] (by simp)
              rw [run_snoc]
              refine ⟨?_, hrecorded.step hone st⟩
              by_cases hmay : ∃ call pid, st = .spawn call pid ∧
                  (run step (initial lock record) before).MaySpawn call pid
              · obtain ⟨call, pid, rfl, hmay⟩ := hmay
                rw [step_spawn_of_may hmay, atMostOne_spawn_iff hmay]
                refine none_of_spawnsInTime (by simp [initial]) ?_ hmay
                  (htime before _ after (by simp [hsteps]))
                intro early late hearly
                exact (hbefore early late hearly).2
              · exact atMostOne_step hone fun call pid hst hspawn =>
                  hmay ⟨call, pid, hst, hspawn⟩
          · exact hbefore early tail rfl
    intro after hsteps
    exact (hkept after hsteps before [] (by simp)).1

/-- The second start runs between the first one's spawn and the first line of
its daemon. -/
theorem second_start_before_persist :
    ¬∀ before after, [StartStep.openLock true, .check true false, .spawn true 10,
        .unlinkLock true, .openLock false, .check false false, .spawn false 11] =
        before ++ after →
      (run step (initial false .absent) before).AtMostOne := by
  intro hall
  have hpids := hall _ [] (List.append_nil _).symm 10 11 (true, false) (false, false) rfl rfl
  exact absurd hpids (by decide)

end DaemonDir

end ForgeOS
