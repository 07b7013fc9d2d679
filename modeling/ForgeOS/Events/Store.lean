import ForgeOS.Json

/-!
The SQLite-backed event store `.forge/events.db`: the append-only `events`
table and the mutable `snapshots` table. Payloads and snapshot states are kept
decoded; `json.loads` after `json.dumps` is the identity on them.
-/

namespace ForgeOS

open Library

/-- One row of the `events` table. -/
structure EventRow where
  eventId : Nat
  streamId : String
  eventType : String
  payload : JsonObject
  version : Nat
  createdAt : String
deriving Repr

/-- One row of the `snapshots` table, without its key. -/
structure Snapshot where
  state : JsonObject
  eventVersion : Int
  createdAt : String
deriving Repr

/-- The database file. `sequence` is the counter behind `AUTOINCREMENT`; the
rows are kept in the order of their primary key. -/
structure Database where
  events : List EventRow
  sequence : Nat
  snapshots : Dict String Snapshot
  ordered : (events.map EventRow.eventId).Pairwise (· < ·)
  bounded : ∀ row ∈ events, row.eventId ≤ sequence

namespace Database

/-- The database right after `_init_schema`. -/
def empty : Database := ⟨[], 0, [], by simp, by simp⟩

/-- `SELECT ... WHERE stream_id = ? ORDER BY event_id`. -/
def readStream (db : Database) (streamId : String) : List EventRow :=
  db.events.filter fun row => row.streamId = streamId

/-- `SELECT COALESCE(MAX(version), 0) + 1 ... WHERE stream_id = ?`. -/
def nextVersion (db : Database) (streamId : String) : Nat :=
  ((db.readStream streamId).map EventRow.version).foldr max 0 + 1

/-- `INSERT INTO events ...` followed by `commit`. -/
def insert (db : Database) (createdAt streamId eventType : String) (payload : JsonObject)
    (version : Nat) : Database where
  events := db.events ++ [{
    eventId := db.sequence + 1
    streamId := streamId
    eventType := eventType
    payload := payload
    version := version
    createdAt := createdAt }]
  sequence := db.sequence + 1
  snapshots := db.snapshots
  ordered := by
    rw [List.map_append, List.pairwise_append]
    refine ⟨db.ordered, by simp, ?_⟩
    intro old hold new hnew
    obtain ⟨row, hrow, rfl⟩ := List.mem_map.mp hold
    have hbound := db.bounded row hrow
    simp only [List.map_cons, List.map_nil, List.mem_singleton] at hnew
    omega
  bounded := by
    intro row hrow
    rcases List.mem_append.mp hrow with hold | hnew
    · exact Nat.le_succ_of_le (db.bounded row hold)
    · simp only [List.mem_singleton] at hnew
      subst hnew
      exact Nat.le_refl _

/-- Append an event to the stream. Returns the new event id. -/
def append (db : Database) (createdAt streamId eventType : String)
    (payload : Option JsonObject) : Nat × Database :=
  let version := db.nextVersion streamId
  let next := db.insert createdAt streamId eventType (payload.getD []) version
  (next.sequence, next)

/-- Append a full-state-snapshot event. -/
def appendStateEvent (db : Database) (createdAt streamId : String) (state : JsonObject) :
    Nat × Database :=
  db.append createdAt streamId "StateSaved" (some [("state", .obj state)])

/-- `INSERT OR REPLACE INTO snapshots`. -/
def saveSnapshot (db : Database) (createdAt streamId : String) (state : JsonObject)
    (eventVersion : Int) : Database :=
  { db with snapshots := db.snapshots.set streamId ⟨state, eventVersion, createdAt⟩ }

def loadSnapshot (db : Database) (streamId : String) : Option Snapshot :=
  db.snapshots.get? streamId

section Replay

/- `dict.update` with a value that is not a mapping: Python takes an iterable
of pairs and raises otherwise. Nothing in the store depends on which. -/
variable (updateOther : JsonObject → Json → Except String JsonObject)

/-- The body of the replay loop: merge the payload's `state`, if it has one. -/
def applyEvent (state : JsonObject) (event : EventRow) : Except String JsonObject :=
  match event.payload.get? "state" with
  | none => .ok state
  | some (.obj entries) => .ok (state.update entries)
  | some other => updateOther state other

/-- Reconstruct the current state from the last snapshot and the events above
its version; `none` when the stream has no events. -/
def replayState (db : Database) (streamId : String) : Except String (Option JsonObject) :=
  let snapshot := db.loadSnapshot streamId
  let events := db.readStream streamId
  if events.isEmpty then .ok none
  else
    let state := match snapshot with
      | some saved => saved.state
      | none => []
    let startVersion : Int := match snapshot with
      | some saved => saved.eventVersion
      | none => 0
    (events.foldlM (fun state event =>
      if (event.version : Int) ≤ startVersion then .ok state
      else applyEvent updateOther state event) state).map some

end Replay

/-! ### What each operation does to a stream -/

theorem readStream_insert (db : Database) (createdAt streamId eventType : String)
    (payload : JsonObject) (version : Nat) (other : String) :
    (db.insert createdAt streamId eventType payload version).readStream other =
      db.readStream other ++
        if streamId = other then
          [⟨db.sequence + 1, streamId, eventType, payload, version, createdAt⟩]
        else [] := by
  simp only [readStream, insert, List.filter_append, List.filter_cons, List.filter_nil,
    decide_eq_true_eq]

theorem loadSnapshot_saveSnapshot (db : Database) (createdAt streamId : String)
    (state : JsonObject) (eventVersion : Int) (other : String) :
    (db.saveSnapshot createdAt streamId state eventVersion).loadSnapshot other =
      if streamId = other then some ⟨state, eventVersion, createdAt⟩
      else db.loadSnapshot other := by
  simp only [loadSnapshot, saveSnapshot, Dict.get?_set]

/-- A stream is listed in the order of its event ids. -/
theorem readStream_ordered (db : Database) (streamId : String) :
    (db.readStream streamId).Pairwise fun a b => a.eventId < b.eventId := by
  have h := List.pairwise_map.mp db.ordered
  exact h.sublist List.filter_sublist

end Database

end ForgeOS
