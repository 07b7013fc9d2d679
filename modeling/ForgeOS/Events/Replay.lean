import ForgeOS.Events.Store
import ForgeOS.Library.Checkpoint
import ForgeOS.Library.Effect
import Mathlib.Data.List.MinMax
import Mathlib.Order.Nat

/-!
Replay with and without a snapshot. A single writer numbers the events of
each stream 1, 2, 3, … in the order of their ids, so the events a snapshot
covers are a prefix of the stream and replaying from the snapshot agrees with
folding every event.
-/

namespace ForgeOS

open Library

/-- The write operations of an event store. -/
inductive StoreOp where
  | append (createdAt streamId eventType : String) (payload : Option JsonObject)
  | saveSnapshot (createdAt streamId : String) (state : JsonObject) (eventVersion : Int)

namespace StoreOp

def apply (db : Database) : StoreOp → Database
  | .append createdAt streamId eventType payload =>
      (db.append createdAt streamId eventType payload).2
  | .saveSnapshot createdAt streamId state eventVersion =>
      db.saveSnapshot createdAt streamId state eventVersion

/-- Whether the operation overwrites the snapshot of a stream. -/
def replacesSnapshotOf (streamId : String) : StoreOp → Prop
  | .append .. => False
  | .saveSnapshot _ target _ _ => target = streamId

end StoreOp

namespace Database

/-- The versions of every stream are exactly `1, …, n` in event id order. -/
def Numbered (db : Database) : Prop :=
  ∀ streamId, (db.readStream streamId).map EventRow.version =
    List.range' 1 (db.readStream streamId).length

theorem lt_nextVersion {db : Database} {streamId : String} {row : EventRow}
    (h : row ∈ db.readStream streamId) : row.version < db.nextVersion streamId :=
  Nat.lt_succ_of_le (List.le_max_of_le' 0 (List.mem_map_of_mem h) le_rfl)

theorem nextVersion_le {db : Database} {streamId : String} {n : Nat}
    (h : ∀ row ∈ db.readStream streamId, row.version ≤ n) :
    db.nextVersion streamId ≤ n + 1 := by
  apply Nat.succ_le_succ
  change List.foldr max (⊥ : ℕ) _ ≤ n
  apply List.max_le_of_forall_le
  intro version hmember
  obtain ⟨row, hrow, rfl⟩ := List.mem_map.mp hmember
  exact h row hrow

theorem Numbered.version_le {db : Database} (h : db.Numbered) {streamId : String}
    {row : EventRow} (hrow : row ∈ db.readStream streamId) :
    1 ≤ row.version ∧ row.version ≤ (db.readStream streamId).length := by
  have hmember := List.mem_map_of_mem (f := EventRow.version) hrow
  rw [h streamId, List.mem_range'_1] at hmember
  omega

/-- With consecutive versions, the next one is one more than the number of
events. -/
theorem Numbered.nextVersion_eq {db : Database} (h : db.Numbered) (streamId : String) :
    db.nextVersion streamId = (db.readStream streamId).length + 1 := by
  apply Nat.le_antisymm
  · exact nextVersion_le fun row hrow => (h.version_le hrow).2
  · by_cases hempty : (db.readStream streamId).length = 0
    · rw [hempty]
      exact Nat.succ_le_succ (Nat.zero_le _)
    · have hlast : (db.readStream streamId).length ∈
          (db.readStream streamId).map EventRow.version := by
        rw [h streamId, List.mem_range'_1]
        omega
      obtain ⟨row, hrow, hversion⟩ := List.mem_map.mp hlast
      have hlt := lt_nextVersion hrow
      omega

theorem empty_numbered : empty.Numbered := fun _ => rfl

/-- The step lemma: an append numbers its event one above the last. -/
theorem Numbered.apply {db : Database} (h : db.Numbered) (op : StoreOp) :
    (op.apply db).Numbered := by
  cases op with
  | saveSnapshot createdAt streamId state eventVersion => exact h
  | append createdAt streamId eventType payload =>
      intro other
      change ((db.insert _ _ _ _ (db.nextVersion streamId)).readStream other).map _ = _
      rw [readStream_insert]
      by_cases heq : streamId = other
      · subst heq
        simp only [StoreOp.apply, append, readStream_insert, if_true, List.map_append,
          List.map_cons, List.map_nil, List.length_append, List.length_cons, List.length_nil,
          List.range'_concat, h streamId, h.nextVersion_eq]
        simp [Nat.add_comm]
      · simp only [StoreOp.apply, append, readStream_insert, heq, if_false, List.append_nil]
        exact h other

/-- The run lemma: a single writer keeps every stream numbered. -/
theorem numbered_run (ops : List StoreOp) : (run StoreOp.apply empty ops).Numbered := by
  apply run_invariant empty_numbered
  intro db op _ h
  exact h.apply op

section Replay

variable (updateOther : JsonObject → Json → Except String JsonObject)

/-- The fold of some events over the empty state. -/
def foldEvents (events : List EventRow) : Except String JsonObject :=
  events.foldlM (applyEvent updateOther) []

/-- Replay without a snapshot: fold all the stream's events. -/
def replayAll (db : Database) (streamId : String) : Except String (Option JsonObject) :=
  let events := db.readStream streamId
  if events.isEmpty then .ok none
  else (foldEvents updateOther events).map some

def eventsUpTo (db : Database) (streamId : String) (version : Int) : List EventRow :=
  (db.readStream streamId).filter fun row => (row.version : Int) ≤ version

/-- The stream's snapshot, if there is one, holds the fold of the events it
covers. -/
def SnapshotSound (db : Database) (streamId : String) : Prop :=
  ∀ saved, db.loadSnapshot streamId = some saved →
    foldEvents updateOther (db.eventsUpTo streamId saved.eventVersion) = .ok saved.state

/-- On a numbered stream the events a version covers come first. -/
theorem Numbered.covered_first {db : Database} (h : db.Numbered) (streamId : String)
    (version : Int) :
    (db.readStream streamId).Pairwise fun a b =>
      decide ((b.version : Int) ≤ version) = true →
        decide ((a.version : Int) ≤ version) = true := by
  have hsorted : ((db.readStream streamId).map EventRow.version).Pairwise (· < ·) := by
    rw [h streamId]
    exact List.pairwise_lt_range'
  apply (List.pairwise_map.mp hsorted).imp
  intro a b hlt hcovered
  simp only [decide_eq_true_eq] at hcovered ⊢
  omega

theorem Numbered.replayState_eq {db : Database} (h : db.Numbered) {streamId : String}
    (hsound : db.SnapshotSound updateOther streamId) :
    db.replayState updateOther streamId = db.replayAll updateOther streamId := by
  have hresume (version : Int) (state : JsonObject)
      (hstate : foldEvents updateOther (db.eventsUpTo streamId version) = .ok state) :
      (db.readStream streamId).foldlM (fun state event =>
          if (event.version : Int) ≤ version then Except.ok state
          else applyEvent updateOther state event) state =
        foldEvents updateOther (db.readStream streamId) := by
    have hfold := foldSkipping_of_checkpoint (h.covered_first streamId version) hstate
    simp only [foldSkipping, decide_eq_true_eq] at hfold
    exact hfold
  unfold replayState replayAll
  by_cases hempty : (db.readStream streamId).isEmpty = true
  · simp only [hempty, if_true]
  · simp only [hempty]
    cases hsnap : db.loadSnapshot streamId with
    | none =>
        -- Without a snapshot the loop starts at version 0, below every event.
        have hnone : db.eventsUpTo streamId 0 = [] := by
          apply List.filter_eq_nil_iff.mpr
          intro row hrow
          have hpos := (h.version_le hrow).1
          simp only [decide_eq_true_eq]
          omega
        have hstart := hresume 0 [] (by rw [hnone]; rfl)
        simp only [hstart]
    | some saved =>
        have hstart := hresume saved.eventVersion saved.state (hsound saved hsnap)
        simp only [hstart]

/-- An operation that leaves the snapshot alone keeps the events up to a
version that the stream has already passed. -/
theorem Numbered.eventsUpTo_apply {db : Database} (h : db.Numbered) (op : StoreOp)
    {streamId : String} {version : Int}
    (hversion : version ≤ (db.readStream streamId).length) :
    (op.apply db).eventsUpTo streamId version = db.eventsUpTo streamId version := by
  cases op with
  | saveSnapshot createdAt target state eventVersion => rfl
  | append createdAt target eventType payload =>
      simp only [eventsUpTo, StoreOp.apply, append, readStream_insert, List.filter_append]
      split
      · rename_i heq
        subst heq
        have habove : ¬ ((db.nextVersion target : Int) ≤ version) := by
          rw [h.nextVersion_eq]
          omega
        simp only [List.filter_cons, habove, decide_false, Bool.false_eq_true, if_false,
          List.filter_nil, List.append_nil]
      · simp only [List.filter_nil, List.append_nil]

theorem loadSnapshot_apply (db : Database) {op : StoreOp} {streamId : String}
    (h : ¬ op.replacesSnapshotOf streamId) :
    (op.apply db).loadSnapshot streamId = db.loadSnapshot streamId := by
  cases op with
  | append createdAt target eventType payload => rfl
  | saveSnapshot createdAt target state eventVersion =>
      simp only [StoreOp.apply, loadSnapshot_saveSnapshot]
      exact if_neg h

theorem length_readStream_apply (db : Database) (op : StoreOp) (streamId : String) :
    (db.readStream streamId).length ≤ ((op.apply db).readStream streamId).length := by
  cases op with
  | saveSnapshot createdAt target state eventVersion => exact le_rfl
  | append createdAt target eventType payload =>
      simp only [StoreOp.apply, append, readStream_insert, List.length_append]
      omega

/-- What a snapshot of a stream needs in order to stay sound whatever is
written later: it was taken at a version the stream had, and it holds the fold
of the events up to there. -/
structure SnapshotAt (db : Database) (streamId : String) (saved : Snapshot) : Prop where
  loaded : db.loadSnapshot streamId = some saved
  version_le : saved.eventVersion ≤ (db.readStream streamId).length
  holds_fold : foldEvents updateOther (db.eventsUpTo streamId saved.eventVersion) = .ok saved.state

/-- The run lemma: writes that do not replace the snapshot keep it sound. -/
theorem SnapshotAt.after {db : Database} {streamId : String} {saved : Snapshot}
    (hnum : db.Numbered) (h : db.SnapshotAt updateOther streamId saved) (ops : List StoreOp)
    (hops : ∀ op ∈ ops, ¬ op.replacesSnapshotOf streamId) :
    (run StoreOp.apply db ops).SnapshotAt updateOther streamId saved := by
  let I (db : Database) : Prop := db.Numbered ∧ db.SnapshotAt updateOther streamId saved
  have hboth : I (run StoreOp.apply db ops) := by
    refine run_invariant ⟨hnum, h⟩ ?_
    rintro t op hop ⟨htnum, ht⟩
    have hlen := length_readStream_apply t op streamId
    have hversion := ht.version_le
    refine ⟨htnum.apply op, ?_, by omega, ?_⟩
    · rw [loadSnapshot_apply t (hops op hop)]
      exact ht.loaded
    · rw [htnum.eventsUpTo_apply op hversion]
      exact ht.holds_fold
  exact hboth.2

/-- For every history of a single writer: the versions of each stream are
exactly `1, …, n` in event id order; a snapshot that holds the fold of the
events it covers replays to the fold of the whole stream; and a snapshot that
did so when the stream had reached its version still does after any further
writes to this or other streams. -/
theorem replay_refines_full_replay (ops : List StoreOp) :
    let db := run StoreOp.apply empty ops
    (∀ streamId,
      (db.readStream streamId).map EventRow.version =
          List.range' 1 (db.readStream streamId).length ∧
        (db.readStream streamId).Pairwise fun a b => a.eventId < b.eventId) ∧
    (∀ streamId, db.SnapshotSound updateOther streamId →
      db.replayState updateOther streamId = db.replayAll updateOther streamId) ∧
    (∀ streamId saved later, db.SnapshotAt updateOther streamId saved →
      (∀ op ∈ later, ¬ op.replacesSnapshotOf streamId) →
      (run StoreOp.apply db later).replayState updateOther streamId =
        (run StoreOp.apply db later).replayAll updateOther streamId) := by
  intro db
  have hnum : db.Numbered := numbered_run ops
  refine ⟨fun streamId => ⟨hnum streamId, readStream_ordered db streamId⟩,
    fun streamId hsound => hnum.replayState_eq updateOther hsound, ?_⟩
  intro streamId saved later hsaved hlater
  have hnumLater : (run StoreOp.apply db later).Numbered := by
    rw [← run_append]
    exact numbered_run (ops ++ later)
  have hlaterAt := hsaved.after updateOther hnum later hlater
  apply hnumLater.replayState_eq
  intro other hother
  rw [hlaterAt.loaded] at hother
  cases hother
  exact hlaterAt.holds_fold

end Replay

end Database

end ForgeOS
