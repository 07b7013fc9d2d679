import ForgeOS.Events.Replay
import Mathlib.Algebra.BigOperators.Group.List.Basic
import Mathlib.Algebra.GroupWithZero.Nat
import Mathlib.Algebra.Order.BigOperators.Group.List
import Mathlib.Logic.Function.Basic

/-!
Several connections appending to one database. The version of an event is
read outside the transaction that inserts it, so an append is two steps and
other connections may run between them. Versions stay `1, …, n` exactly in
the schedules where no insert into a stream falls between the two steps of
another append to it.
-/

namespace ForgeOS

open Library

/-- An append whose version has been read and whose row is not inserted yet. -/
structure PendingAppend where
  streamId : String
  eventType : String
  payload : JsonObject
  version : Nat

/-- One step of one connection. -/
inductive AppendStep (ι : Type) where
  | read (conn : ι) (streamId eventType : String) (payload : Option JsonObject)
  | insert (conn : ι) (createdAt : String)

/-- The database together with the appends in progress, at most one for each
connection. -/
structure SharedStore (ι : Type) where
  db : Database
  pending : ι → Option PendingAppend

namespace SharedStore

variable {ι : Type} [DecidableEq ι]

def initial : SharedStore ι := ⟨Database.empty, fun _ => none⟩

/-- The first step of an append computes `_next_version`, the second inserts
the row with it and commits. A step a connection cannot take changes nothing:
it starts no second append, and inserts only after a read. -/
def step (s : SharedStore ι) : AppendStep ι → SharedStore ι
  | .read conn streamId eventType payload =>
      match s.pending conn with
      | some _ => s
      | none =>
          ⟨s.db, Function.update s.pending conn
            (some ⟨streamId, eventType, payload.getD [], s.db.nextVersion streamId⟩)⟩
  | .insert conn createdAt =>
      match s.pending conn with
      | none => s
      | some append =>
          ⟨s.db.insert createdAt append.streamId append.eventType append.payload append.version,
            Function.update s.pending conn none⟩

end SharedStore

/-! ### What a schedule alone says -/

/-- An append between its two steps, as the schedule shows it: what it will
write, and whether the stream has been written to since its first step. -/
structure Window where
  streamId : String
  eventType : String
  payload : JsonObject
  overtaken : Bool

abbrev Windows (ι : Type) := ι → Option Window

namespace Windows

variable {ι : Type} [DecidableEq ι]

/-- An insert into a stream overtakes every append in progress on it. -/
def overtake (streamId : String) (window : Window) : Window :=
  { window with overtaken := window.overtaken || window.streamId == streamId }

def step (w : Windows ι) : AppendStep ι → Windows ι
  | .read conn streamId eventType payload =>
      match w conn with
      | some _ => w
      | none => Function.update w conn (some ⟨streamId, eventType, payload.getD [], false⟩)
  | .insert conn _ =>
      match w conn with
      | none => w
      | some window =>
          Function.update (fun other => (w other).map (overtake window.streamId)) conn none

def admits (w : Windows ι) : AppendStep ι → Bool
  | .read .. => true
  | .insert conn _ =>
      match w conn with
      | none => true
      | some window => !window.overtaken

/-- The row a step completes, if any. -/
def completes (w : Windows ι) : AppendStep ι → List (String × String × JsonObject)
  | .read .. => []
  | .insert conn _ =>
      match w conn with
      | none => []
      | some window => [(window.streamId, window.eventType, window.payload)]

/-- No append is overtaken between its two steps. -/
def exclusive (w : Windows ι) : List (AppendStep ι) → Bool
  | [] => true
  | st :: rest => w.admits st && exclusive (w.step st) rest

/-- The appends a schedule completes, in order. -/
def completed (w : Windows ι) : List (AppendStep ι) → List (String × String × JsonObject)
  | [] => []
  | st :: rest => w.completes st ++ completed (w.step st) rest

end Windows

/-- No insert into a stream falls between the read and the insert of another
append to the same stream. -/
def ExclusiveSchedule {ι : Type} [DecidableEq ι] (schedule : List (AppendStep ι)) : Prop :=
  Windows.exclusive (fun _ => none) schedule = true

namespace SharedStore

variable {ι : Type} [DecidableEq ι]

/-- What appends by several writers are meant to keep: every completed append
is a row, and the versions of each stream are pairwise distinct and exactly
`1, …, n`. -/
def VersionsIntact (schedule : List (AppendStep ι)) : Prop :=
  let db := (run step initial schedule).db
  db.events.map (fun row => (row.streamId, row.eventType, row.payload)) =
      Windows.completed (fun _ => none) schedule ∧
    ∀ streamId, ((db.readStream streamId).map EventRow.version).Nodup ∧
      ((db.readStream streamId).map EventRow.version).Perm
        (List.range' 1 (db.readStream streamId).length)

/-- The appends in progress are those the windows show. -/
def Agrees (s : SharedStore ι) (w : Windows ι) : Prop :=
  ∀ conn, (s.pending conn).map (fun p => (p.streamId, p.eventType, p.payload)) =
    (w conn).map (fun x => (x.streamId, x.eventType, x.payload))

omit [DecidableEq ι] in
theorem Agrees.pending_none {s : SharedStore ι} {w : Windows ι} (h : s.Agrees w) {conn : ι}
    (hw : w conn = none) : s.pending conn = none := by
  have hconn := h conn
  rw [hw] at hconn
  exact Option.map_eq_none_iff.mp hconn

omit [DecidableEq ι] in
theorem Agrees.pending_some {s : SharedStore ι} {w : Windows ι} (h : s.Agrees w) {conn : ι}
    {window : Window} (hw : w conn = some window) :
    ∃ version, s.pending conn =
      some ⟨window.streamId, window.eventType, window.payload, version⟩ := by
  have hconn := h conn
  rw [hw, Option.map_some, Option.map_eq_some_iff] at hconn
  obtain ⟨append, happend, heq⟩ := hconn
  obtain ⟨streamId, eventType, payload, version⟩ := append
  simp only [Prod.mk.injEq] at heq
  obtain ⟨rfl, rfl, rfl⟩ := heq
  exact ⟨version, happend⟩

/-- How the two representations step together: nothing happens, a read opens a
window, or an insert closes one and overtakes the others on its stream. -/
theorem Agrees.step_cases {s : SharedStore ι} {w : Windows ι} (h : s.Agrees w)
    (st : AppendStep ι) :
    (s.step st = s ∧ w.step st = w ∧ w.admits st = true ∧ w.completes st = []) ∨
    (∃ conn streamId eventType payload, s.pending conn = none ∧
      s.step st = ⟨s.db, Function.update s.pending conn
        (some ⟨streamId, eventType, payload, s.db.nextVersion streamId⟩)⟩ ∧
      w.step st = Function.update w conn (some ⟨streamId, eventType, payload, false⟩) ∧
      w.admits st = true ∧ w.completes st = []) ∨
    (∃ conn createdAt window version, w conn = some window ∧
      s.pending conn = some ⟨window.streamId, window.eventType, window.payload, version⟩ ∧
      s.step st = ⟨s.db.insert createdAt window.streamId window.eventType window.payload version,
        Function.update s.pending conn none⟩ ∧
      w.step st = Function.update
        (fun other => (w other).map (Windows.overtake window.streamId)) conn none ∧
      w.admits st = !window.overtaken ∧
      w.completes st = [(window.streamId, window.eventType, window.payload)]) := by
  cases st with
  | read conn streamId eventType payload =>
      cases hw : w conn with
      | none =>
          have hp := h.pending_none hw
          refine Or.inr (Or.inl ⟨conn, streamId, eventType, payload.getD [], hp, ?_, ?_, rfl, rfl⟩)
          · simp only [SharedStore.step, hp]
          · simp only [Windows.step, hw]
      | some window =>
          obtain ⟨version, hp⟩ := h.pending_some hw
          refine Or.inl ⟨?_, ?_, rfl, rfl⟩
          · simp only [SharedStore.step, hp]
          · simp only [Windows.step, hw]
  | insert conn createdAt =>
      cases hw : w conn with
      | none =>
          have hp := h.pending_none hw
          refine Or.inl ⟨?_, ?_, ?_, ?_⟩
          · simp only [SharedStore.step, hp]
          · simp only [Windows.step, hw]
          · simp only [Windows.admits, hw]
          · simp only [Windows.completes, hw]
      | some window =>
          obtain ⟨version, hp⟩ := h.pending_some hw
          refine Or.inr (Or.inr ⟨conn, createdAt, window, version, hw, hp, ?_, ?_, ?_, ?_⟩)
          · simp only [SharedStore.step, hp]
          · simp only [Windows.step, hw]
          · simp only [Windows.admits, hw]
          · simp only [Windows.completes, hw]

theorem Agrees.step {s : SharedStore ι} {w : Windows ι} (h : s.Agrees w) (st : AppendStep ι) :
    (s.step st).Agrees (w.step st) := by
  rcases h.step_cases st with ⟨hs, hw, -⟩ | ⟨conn, streamId, eventType, payload, -, hs, hw, -⟩ |
    ⟨conn, createdAt, window, version, -, -, hs, hw, -⟩
  · rw [hs, hw]
    exact h
  · intro other
    rw [hs, hw]
    by_cases heq : other = conn
    · subst heq
      simp only [Function.update_self, Option.map_some]
    · simp only [ne_eq, heq, not_false_eq_true, Function.update_of_ne]
      exact h other
  · intro other
    rw [hs, hw]
    by_cases heq : other = conn
    · subst heq
      simp only [Function.update_self, Option.map_none]
    · simp only [ne_eq, heq, not_false_eq_true, Function.update_of_ne, Option.map_map]
      exact h other

/-- No append is lost: the rows written are the appends completed. -/
theorem Agrees.rows_run {s : SharedStore ι} {w : Windows ι} (h : s.Agrees w)
    (schedule : List (AppendStep ι)) :
    (run SharedStore.step s schedule).db.events.map
        (fun row => (row.streamId, row.eventType, row.payload)) =
      s.db.events.map (fun row => (row.streamId, row.eventType, row.payload)) ++
        w.completed schedule := by
  induction schedule generalizing s w with
  | nil => simp only [run_nil, Windows.completed, List.append_nil]
  | cons st rest ih =>
      change (run SharedStore.step (s.step st) rest).db.events.map _ = _
      rw [ih (h.step st), Windows.completed, ← List.append_assoc]
      congr 1
      rcases h.step_cases st with ⟨hs, -, -, hc⟩ | ⟨_, _, _, _, -, hs, -, -, hc⟩ |
        ⟨_, _, _, _, -, -, hs, -, -, hc⟩
      · rw [hs, hc, List.append_nil]
      · rw [hs, hc, List.append_nil]
      · rw [hs, hc]
        simp only [Database.insert, List.map_append, List.map_cons, List.map_nil]

/-! ### Schedules without overtaking -/

theorem nextVersion_insert_of_ne (db : Database) (createdAt eventType : String)
    (payload : JsonObject) (version : Nat) {streamId other : String} (h : streamId ≠ other) :
    (db.insert createdAt streamId eventType payload version).nextVersion other =
      db.nextVersion other := by
  simp only [Database.nextVersion, Database.readStream_insert, h, if_false, List.append_nil]

/-- The invariant of schedules without overtaking: streams are numbered, and
the version read by an append not yet overtaken is still the next one. -/
structure Current (s : SharedStore ι) (w : Windows ι) : Prop where
  agrees : s.Agrees w
  numbered : s.db.Numbered
  next : ∀ conn window append, w conn = some window → s.pending conn = some append →
    window.overtaken = false → append.version = s.db.nextVersion append.streamId

theorem Current.step {s : SharedStore ι} {w : Windows ι} (h : s.Current w)
    {st : AppendStep ι} (hadmits : w.admits st = true) :
    (s.step st).Current (w.step st) := by
  refine ⟨h.agrees.step st, ?_, ?_⟩
  · rcases h.agrees.step_cases st with ⟨hs, -⟩ | ⟨_, _, _, _, -, hs, -⟩ |
      ⟨conn, createdAt, window, version, hwin, hpend, hs, -, hadm, -⟩
    · rw [hs]
      exact h.numbered
    · rw [hs]
      exact h.numbered
    · have hfresh : window.overtaken = false := by
        simpa only [hadm, Bool.not_eq_true'] using hadmits
      have hversion : version = s.db.nextVersion window.streamId :=
        h.next conn window _ hwin hpend hfresh
      rw [hs, hversion]
      exact h.numbered.apply
        (.append createdAt window.streamId window.eventType (some window.payload))
  · intro other window' append hwindow hpending hfresh
    rcases h.agrees.step_cases st with ⟨hs, hw, -⟩ | ⟨conn, streamId, _, _, -, hs, hw, -⟩ |
      ⟨conn, createdAt, window, version, -, -, hs, hw, -⟩
    · rw [hs] at hpending ⊢
      rw [hw] at hwindow
      exact h.next other window' append hwindow hpending hfresh
    · rw [hs] at hpending ⊢
      rw [hw] at hwindow
      by_cases heq : other = conn
      · subst heq
        simp only [Function.update_self, Option.some.injEq] at hpending
        subst hpending
        rfl
      · simp only [ne_eq, heq, not_false_eq_true, Function.update_of_ne] at hwindow hpending
        exact h.next other window' append hwindow hpending hfresh
    · rw [hs] at hpending ⊢
      rw [hw] at hwindow
      by_cases heq : other = conn
      · subst heq
        simp only [Function.update_self] at hpending
        cases hpending
      · simp only [ne_eq, heq, not_false_eq_true, Function.update_of_ne] at hwindow hpending
        obtain ⟨before, hbefore, rfl⟩ := Option.map_eq_some_iff.mp hwindow
        simp only [Windows.overtake, Bool.or_eq_false_iff, beq_eq_false_iff_ne] at hfresh
        obtain ⟨version', hpend'⟩ := h.agrees.pending_some hbefore
        have hstream : append.streamId = before.streamId := by
          rw [hpending, Option.some.injEq] at hpend'
          rw [hpend']
        have hold := h.next other before append hbefore hpending hfresh.1
        rw [hold, hstream, nextVersion_insert_of_ne _ _ _ _ _ (Ne.symm hfresh.2)]

theorem Current.numbered_run {s : SharedStore ι} {w : Windows ι} (h : s.Current w)
    {schedule : List (AppendStep ι)} (hexclusive : w.exclusive schedule = true) :
    (run SharedStore.step s schedule).db.Numbered := by
  induction schedule generalizing s w with
  | nil => exact h.numbered
  | cons st rest ih =>
      simp only [Windows.exclusive, Bool.and_eq_true] at hexclusive
      exact ih (h.step hexclusive.1) hexclusive.2

/-! ### Schedules with overtaking

A version is at most the position of its event in the stream, and less than it
when the append was overtaken. The sum of the versions tells the two apart. -/

/-- `1 + ⋯ + n`. -/
def triangle (n : Nat) : Nat := (List.range' 1 n).sum

theorem triangle_succ (n : Nat) : triangle (n + 1) = triangle n + (n + 1) := by
  simp only [triangle, List.range'_concat, List.sum_append, List.sum_cons, List.sum_nil]
  omega

def versionSum (db : Database) (streamId : String) : Nat :=
  ((db.readStream streamId).map EventRow.version).sum

theorem versionSum_insert (db : Database) (createdAt streamId eventType : String)
    (payload : JsonObject) (version : Nat) (other : String) :
    versionSum (db.insert createdAt streamId eventType payload version) other =
      versionSum db other + if streamId = other then version else 0 := by
  unfold versionSum
  rw [Database.readStream_insert, List.map_append, List.sum_append]
  split <;> rfl

theorem length_insert (db : Database) (createdAt streamId eventType : String)
    (payload : JsonObject) (version : Nat) (other : String) :
    ((db.insert createdAt streamId eventType payload version).readStream other).length =
      (db.readStream other).length + if streamId = other then 1 else 0 := by
  rw [Database.readStream_insert, List.length_append]
  split <;> rfl

/-- The invariant of all schedules: no version is beyond its position, and the
version read by an append is within reach of the next position, or below it if
the append has been overtaken. -/
structure Lagging (s : SharedStore ι) (w : Windows ι) : Prop where
  agrees : s.Agrees w
  row_le : ∀ streamId, ∀ row ∈ s.db.readStream streamId,
    row.version ≤ (s.db.readStream streamId).length
  append_le : ∀ conn window append, w conn = some window → s.pending conn = some append →
    append.version ≤ (s.db.readStream append.streamId).length +
      if window.overtaken then 0 else 1

/-- An insertion is at most at the next position, so no row passes its own. -/
theorem Lagging.row_le_step {s : SharedStore ι} {w : Windows ι} (h : s.Lagging w)
    (st : AppendStep ι) (streamId : String) {row : EventRow}
    (hrow : row ∈ (s.step st).db.readStream streamId) :
    row.version ≤ ((s.step st).db.readStream streamId).length := by
  rcases h.agrees.step_cases st with ⟨hs, -⟩ | ⟨_, _, _, _, -, hs, -⟩ |
    ⟨conn, createdAt, window, version, hwin, hpend, hs, -⟩
  · rw [hs] at hrow ⊢
    exact h.row_le streamId row hrow
  · rw [hs] at hrow ⊢
    exact h.row_le streamId row hrow
  · have hversion := h.append_le conn window _ hwin hpend
    rw [hs] at hrow ⊢
    rw [length_insert]
    rw [Database.readStream_insert, List.mem_append] at hrow
    rcases hrow with hold | hnew
    · exact Nat.le_add_right_of_le (h.row_le streamId row hold)
    · split at hnew
      · rename_i heq
        subst heq
        simp only [List.mem_singleton] at hnew
        subst hnew
        simp only [if_true]
        simp only at hversion
        split at hversion <;> omega
      · cases hnew

/-- A version read earlier stays within reach: an insertion into its stream
moves the reach along and overtakes it. -/
theorem Lagging.append_le_step {s : SharedStore ι} {w : Windows ι} (h : s.Lagging w)
    (st : AppendStep ι) {other : ι} {window' : Window} {append : PendingAppend}
    (hwindow : w.step st other = some window')
    (hpending : (s.step st).pending other = some append) :
    append.version ≤ ((s.step st).db.readStream append.streamId).length +
      if window'.overtaken then 0 else 1 := by
  rcases h.agrees.step_cases st with ⟨hs, hw, -⟩ | ⟨conn, streamId, _, _, -, hs, hw, -⟩ |
    ⟨conn, createdAt, window, version, -, -, hs, hw, -⟩
  · rw [hs] at hpending ⊢
    rw [hw] at hwindow
    exact h.append_le other window' append hwindow hpending
  · rw [hs] at hpending ⊢
    rw [hw] at hwindow
    by_cases heq : other = conn
    · subst heq
      simp only [Function.update_self, Option.some.injEq] at hpending hwindow
      subst hpending hwindow
      exact Database.nextVersion_le (h.row_le streamId)
    · simp only [ne_eq, heq, not_false_eq_true, Function.update_of_ne] at hwindow hpending
      exact h.append_le other window' append hwindow hpending
  · rw [hs] at hpending ⊢
    rw [hw] at hwindow
    by_cases heq : other = conn
    · subst heq
      simp only [Function.update_self] at hpending
      cases hpending
    · simp only [ne_eq, heq, not_false_eq_true, Function.update_of_ne] at hwindow hpending
      obtain ⟨before, hbefore, rfl⟩ := Option.map_eq_some_iff.mp hwindow
      obtain ⟨version', hpend'⟩ := h.agrees.pending_some hbefore
      have hstream : append.streamId = before.streamId := by
        rw [hpending, Option.some.injEq] at hpend'
        rw [hpend']
      have hold := h.append_le other before append hbefore hpending
      rw [length_insert, hstream]
      rw [hstream] at hold
      by_cases hsame : before.streamId = window.streamId
      · simp only [Windows.overtake, hsame, beq_self_eq_true, Bool.or_true, if_true]
        rw [hsame] at hold
        split at hold <;> omega
      · simp only [Windows.overtake, beq_eq_false_iff_ne.mpr hsame, Bool.or_false,
          Ne.symm hsame, if_false]
        exact hold

theorem Lagging.step {s : SharedStore ι} {w : Windows ι} (h : s.Lagging w)
    (st : AppendStep ι) : (s.step st).Lagging (w.step st) where
  agrees := h.agrees.step st
  row_le := fun streamId _ hrow => h.row_le_step st streamId hrow
  append_le := fun _ _ _ hwindow hpending => h.append_le_step st hwindow hpending

/-- One step raises the sum of the versions of a stream by at most what a
numbered stream would gain. -/
theorem Lagging.sum_step {s : SharedStore ι} {w : Windows ι} (h : s.Lagging w)
    (st : AppendStep ι) (streamId : String) :
    versionSum (s.step st).db streamId + triangle (s.db.readStream streamId).length ≤
      versionSum s.db streamId + triangle ((s.step st).db.readStream streamId).length := by
  rcases h.agrees.step_cases st with ⟨hs, -⟩ | ⟨_, _, _, _, -, hs, -⟩ |
    ⟨conn, createdAt, window, version, hwin, hpend, hs, -⟩
  · rw [hs]
  · rw [hs]
  · have hversion := h.append_le conn window _ hwin hpend
    simp only at hversion
    rw [hs]
    simp only [versionSum_insert, length_insert]
    by_cases heq : window.streamId = streamId
    · subst heq
      simp only [if_true, triangle_succ]
      split at hversion <;> omega
    · simp only [heq, if_false, Nat.add_zero, le_refl]

/-- The insert of an overtaken append raises it by less. -/
theorem Lagging.sum_step_lt {s : SharedStore ι} {w : Windows ι} (h : s.Lagging w)
    {st : AppendStep ι} (hovertaken : w.admits st = false) :
    ∃ streamId,
      versionSum (s.step st).db streamId + triangle (s.db.readStream streamId).length <
        versionSum s.db streamId + triangle ((s.step st).db.readStream streamId).length := by
  rcases h.agrees.step_cases st with ⟨-, -, hadm, -⟩ | ⟨_, _, _, _, -, -, -, hadm, -⟩ |
    ⟨conn, createdAt, window, version, hwin, hpend, hs, -, hadm, -⟩
  · rw [hadm] at hovertaken
    cases hovertaken
  · rw [hadm] at hovertaken
    cases hovertaken
  · have htaken : window.overtaken = true := by
      simpa only [hadm, Bool.not_eq_false'] using hovertaken
    have hversion := h.append_le conn window _ hwin hpend
    simp only [htaken, if_true, Nat.add_zero] at hversion
    refine ⟨window.streamId, ?_⟩
    rw [hs]
    simp only [versionSum_insert, length_insert, if_true, triangle_succ]
    omega

theorem Lagging.sum_run {s : SharedStore ι} {w : Windows ι} (h : s.Lagging w)
    (schedule : List (AppendStep ι)) (streamId : String) :
    versionSum (run SharedStore.step s schedule).db streamId +
        triangle (s.db.readStream streamId).length ≤
      versionSum s.db streamId +
        triangle ((run SharedStore.step s schedule).db.readStream streamId).length := by
  induction schedule generalizing s w with
  | nil => exact le_rfl
  | cons st rest ih =>
      have hhead := h.sum_step st streamId
      have htail := ih (h.step st)
      change versionSum (run SharedStore.step (s.step st) rest).db streamId + _ ≤
        _ + triangle ((run SharedStore.step (s.step st) rest).db.readStream streamId).length
      omega

/-- The run lemma for the other schedules: some stream falls short. -/
theorem Lagging.sum_run_lt {s : SharedStore ι} {w : Windows ι} (h : s.Lagging w)
    {schedule : List (AppendStep ι)} (hshared : w.exclusive schedule = false) :
    ∃ streamId,
      versionSum (run SharedStore.step s schedule).db streamId +
          triangle (s.db.readStream streamId).length <
        versionSum s.db streamId +
          triangle ((run SharedStore.step s schedule).db.readStream streamId).length := by
  induction schedule generalizing s w with
  | nil => cases hshared
  | cons st rest ih =>
      change ∃ streamId, versionSum (run SharedStore.step (s.step st) rest).db streamId + _ <
        _ + triangle ((run SharedStore.step (s.step st) rest).db.readStream streamId).length
      cases hadm : w.admits st with
      | false =>
          obtain ⟨streamId, hhead⟩ := h.sum_step_lt hadm
          have htail := (h.step st).sum_run rest streamId
          exact ⟨streamId, by omega⟩
      | true =>
          simp only [Windows.exclusive, hadm, Bool.true_and] at hshared
          obtain ⟨streamId, htail⟩ := ih (h.step st) hshared
          have hhead := h.sum_step st streamId
          exact ⟨streamId, by omega⟩

omit [DecidableEq ι] in
theorem initial_agrees : (initial : SharedStore ι).Agrees fun _ => none := fun _ => rfl

omit [DecidableEq ι] in
theorem initial_current : (initial : SharedStore ι).Current fun _ => none where
  agrees := initial_agrees
  numbered := Database.empty_numbered
  next := by
    intro conn window append hwindow
    cases hwindow

omit [DecidableEq ι] in
theorem initial_lagging : (initial : SharedStore ι).Lagging fun _ => none where
  agrees := initial_agrees
  row_le := by
    intro streamId row hrow
    cases hrow
  append_le := by
    intro conn window append hwindow
    cases hwindow

/-- For every schedule of the read and insert steps of any connections: every
append is kept and the versions of each stream are distinct and exactly
`1, …, n`, if and only if no append is overtaken by another insert into its
stream between its two steps. -/
theorem versionsIntact_iff_exclusive (schedule : List (AppendStep ι)) :
    VersionsIntact schedule ↔ ExclusiveSchedule schedule := by
  constructor
  · rintro ⟨-, hversions⟩
    by_contra hshared
    rw [ExclusiveSchedule, Bool.not_eq_true] at hshared
    obtain ⟨streamId, hlt⟩ := initial_lagging.sum_run_lt hshared
    have hsum : versionSum (run step initial schedule).db streamId =
        triangle ((run step initial schedule).db.readStream streamId).length :=
      (hversions streamId).2.sum_eq
    have hzero : triangle ((initial : SharedStore ι).db.readStream streamId).length =
        versionSum (initial : SharedStore ι).db streamId := rfl
    omega
  · intro hexclusive
    have hnum := initial_current.numbered_run hexclusive
    refine ⟨initial_agrees.rows_run schedule, fun streamId => ?_⟩
    rw [hnum streamId]
    exact ⟨List.nodup_range', List.Perm.refl _⟩

/-- Two connections that both read before either inserts write version 1
twice. -/
theorem versionsIntact_fails_on_race :
    ¬ VersionsIntact [
      AppendStep.read false "project/p" "StateSaved" none,
      AppendStep.read true "project/p" "StateSaved" none,
      AppendStep.insert false "t0",
      AppendStep.insert true "t1"] := by
  rintro ⟨-, hversions⟩
  have hnodup := (hversions "project/p").1
  revert hnodup
  decide

end SharedStore

end ForgeOS
