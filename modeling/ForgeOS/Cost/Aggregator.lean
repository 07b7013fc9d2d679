import ForgeOS.Events.Store
import ForgeOS.Floats
import ForgeOS.Library.Folds

/-!
`CostAggregator`: the recorded spend as one number, from the rows of
`.forge/events.db` that tell of completed spawns. Rows are taken as the file
holds them, whoever wrote them.
-/

namespace ForgeOS

open Library

/-- What the payload column of a fetched row holds, with what `json.loads`
makes of it. -/
inductive StoredPayload where
  | notText
  /-- `JSONDecodeError` -/
  | invalidJson
  /-- Any other error: an integer of too many digits, too deep a nesting. -/
  | refused
  | json (value : Json)

/-- A row of the `events` table. A payload whose text SQLite cannot decode is
`none`. -/
structure StoredEvent where
  streamId : String
  eventType : String
  payload : Option StoredPayload

/-- The fetched row, as the cost modules read it. -/
structure SpendEvent where
  streamId : String
  payload : StoredPayload

/-- `.forge/events.db`. -/
inductive EventsDb where
  | missing
  | unreadable
  | rows (events : List StoredEvent)

/-- What is raised while spend is read. -/
inductive SpendError where
  /-- `sqlite3.Error` or `OSError` -/
  | sqlite
  | jsonLoads
  | number (error : NumberError)
  /-- What `load_config` raises besides its two `ConfigError` classes. -/
  | config
deriving DecidableEq

/-- What the event store itself has written, which always is a mapping. -/
def Database.stored (db : Database) : List StoredEvent :=
  db.events.map fun row => ⟨row.streamId, row.eventType, some (.json (.obj row.payload))⟩

theorem Database.stored_append (db : Database) (createdAt streamId eventType : String)
    (payload : Option JsonObject) :
    (db.append createdAt streamId eventType payload).2.stored =
      db.stored ++ [⟨streamId, eventType, some (.json (.obj (payload.getD [])))⟩] := by
  simp [stored, append, insert]

def StoredEvent.fetch (event : StoredEvent) : Except SpendError SpendEvent :=
  match event.payload with
  | some payload => .ok ⟨event.streamId, payload⟩
  | none => .error .sqlite

/-- `store.read_by_type(event_type)`; connecting creates a missing store. -/
def EventsDb.readByType (db : EventsDb) (eventType : String) :
    Except SpendError (List SpendEvent) :=
  match db with
  | .missing => .ok []
  | .unreadable => .error .sqlite
  | .rows events => (events.filter fun event => event.eventType = eventType).mapM
      StoredEvent.fetch

/-- `_decode(event["payload"])`, which both cost modules have. -/
def SpendEvent.decode (event : SpendEvent) : Except SpendError (Option JsonObject) :=
  match event.payload with
  | .refused => .error .jsonLoads
  | .json (.obj entries) => .ok (some entries)
  | _ => .ok none

/-- `payload.get(key)` if that is a mapping, else `{}`. -/
def subMapping (payload : JsonObject) (key : String) : JsonObject :=
  match Dict.get? payload key with
  | some (.obj entries) => entries
  | _ => []

/-- The recorded cost of a spawn: `metadata.total_cost_usd`. -/
def recordedCost (payload : JsonObject) : Json :=
  (Dict.get? (subMapping payload "metadata") "total_cost_usd").getD .null

/-- `(total or 0.0) + cost`. -/
def addCost (rnd : Rounding) (total : Option PyFloat) (cost : PyFloat) : Option PyFloat :=
  some ((total.getD (.finite 0)).add rnd cost)

/-- `_COMPLETED` -/
def completedType : String := "AdapterSpawnCompleted"

/-- Micro-dollars: costs are rounded to six digits. -/
def costDigits : Nat := 6

structure CostTotals where
  totalCostUsd : Option PyFloat := none
  pricedSpawns : Nat := 0
  totalSpawns : Nat := 0
  readable : Bool := true

/-- `totals.total_cost_usd or 0.0`. -/
def CostTotals.spent (totals : CostTotals) : PyFloat := totals.totalCostUsd.getD (.finite 0)

namespace CostAggregator

variable (rnd : Rounding)

/-- What passes for a cost. -/
def isCost (number : PyFloat) : Bool := number.isFinite && !number.lt (.finite 0)

def asCost (value : Json) : Except NumberError (Option PyFloat) := do
  return (← value.asFloat rnd).filter isCost

/-- What one row says: nothing, or the cost of a spawn, if it is priced. -/
def readCost (event : SpendEvent) : Except SpendError (Option (Option PyFloat)) := do
  match ← event.decode with
  | none => return none
  | some payload =>
      let cost ← (asCost rnd (recordedCost payload)).mapError .number
      return some cost

/-- The variables of the loop. -/
structure Tally where
  total : Option PyFloat := none
  priced : Nat := 0
  spawns : Nat := 0

def Tally.add (tally : Tally) : Option (Option PyFloat) → Tally
  | none => tally
  | some none => { tally with spawns := tally.spawns + 1 }
  | some (some cost) =>
      { total := addCost rnd tally.total cost
        priced := tally.priced + 1
        spawns := tally.spawns + 1 }

def emptyTotals : CostTotals := {}

def unreadableTotals : CostTotals := { readable := false }

def Tally.totals (tally : Tally) : CostTotals where
  totalCostUsd := tally.total.map (PyFloat.round rnd costDigits)
  pricedSpawns := tally.priced
  totalSpawns := tally.spawns

def totals (db : EventsDb) : Except SpendError CostTotals :=
  match db with
  | .missing => .ok emptyTotals
  | db =>
      match db.readByType completedType with
      | .error _ => .ok unreadableTotals
      | .ok completed => do
          let tally ← completed.foldlM (fun tally event => do
            return Tally.add rnd tally (← readCost rnd event)) {}
          return tally.totals rnd

theorem foldl_tally_total (reads : List (Option (Option PyFloat))) (tally : Tally) :
    (reads.foldl (Tally.add rnd) tally).total =
      (reads.filterMap Option.join).foldl (addCost rnd) tally.total := by
  induction reads generalizing tally with
  | nil => rfl
  | cons read rest ih =>
      rw [List.foldl_cons, ih]
      match read with
      | none => rfl
      | some none => rfl
      | some (some cost) => rfl

/-- The rows are read one by one, and then added up. -/
theorem totals_of_read {db : EventsDb} {completed : List SpendEvent} (hdb : db ≠ .missing)
    (h : db.readByType completedType = .ok completed) :
    totals rnd db = do
      return ((← completed.mapM (readCost rnd)).foldl (Tally.add rnd) {}).totals rnd := by
  cases db with
  | missing => exact absurd rfl hdb
  | unreadable => cases h
  | rows events =>
      simp only [totals, h]
      rw [foldlM_read, bind_assoc]
      rfl

end CostAggregator

/-! ### Spend does not fall -/

/-- The later totals are unreadable, or say no less spend than the earlier
ones. -/
def CostTotals.Grows (before after : CostTotals) : Prop :=
  after.readable = true → before.readable = true ∧
    ∃ spent spent', before.spent = .finite spent ∧ after.spent = .finite spent' ∧ spent ≤ spent'

/-- Nothing is raised when the cost in the row is read. -/
def StoredEvent.CostConverts (event : StoredEvent) : Prop :=
  event.eventType = completedType → ∀ fetched, event.fetch = .ok fetched →
    ∃ cost, CostAggregator.readCost exactly fetched = .ok cost

theorem EventsDb.readByType_append (events more : List StoredEvent) (eventType : String) :
    (rows (events ++ more)).readByType eventType = do
      let earlier ← (rows events).readByType eventType
      let later ← (rows more).readByType eventType
      return earlier ++ later := by
  simp only [readByType, List.filter_append, List.mapM_append]

namespace CostAggregator

theorem isCost_iff {number : PyFloat} :
    isCost number = true ↔ ∃ value, number = .finite value ∧ 0 ≤ value := by
  cases number with
  | finite value => simp [isCost, PyFloat.isFinite, PyFloat.lt]
  | nan => simp [isCost, PyFloat.isFinite]
  | inf negative => simp [isCost, PyFloat.isFinite]

theorem isCost_of_readCost {rnd : Rounding} {event : SpendEvent} {cost : PyFloat}
    (h : readCost rnd event = .ok (some (some cost))) : isCost cost = true := by
  obtain ⟨decoded, -, h⟩ := bind_eq_ok_iff.mp h
  cases decoded with
  | none => cases h
  | some payload =>
      obtain ⟨read, hread, h⟩ := bind_eq_ok_iff.mp h
      obtain rfl : read = some cost := Option.some.inj (Except.ok.inj h)
      obtain ⟨number, -, hnumber⟩ := bind_eq_ok_iff.mp (mapError_eq_ok_iff.mp hread)
      exact (Option.filter_eq_some_iff.mp (Except.ok.inj hnumber)).2

namespace Tally

/-- The sum so far, as `or 0.0` has it. -/
def spent (tally : Tally) : PyFloat := tally.total.getD (.finite 0)

theorem spent_add {tally : Tally} {spent : ℚ} (h : tally.spent = .finite spent)
    {read : Option (Option PyFloat)}
    (hread : ∀ cost, read = some (some cost) → isCost cost = true) :
    ∃ spent', (tally.add exactly read).spent = .finite spent' ∧ spent ≤ spent' := by
  match read with
  | none => exact ⟨spent, h, le_rfl⟩
  | some none => exact ⟨spent, h, le_rfl⟩
  | some (some cost) =>
      obtain ⟨value, rfl, hnonneg⟩ := isCost_iff.mp (hread cost rfl)
      refine ⟨spent + value, ?_, le_add_of_nonneg_right hnonneg⟩
      change (tally.spent.add exactly (.finite value)) = _
      rw [h]
      rfl

theorem spent_foldl {tally : Tally} {spent : ℚ} (h : tally.spent = .finite spent)
    {reads : List (Option (Option PyFloat))}
    (hreads : ∀ cost, some (some cost) ∈ reads → isCost cost = true) :
    ∃ spent', (reads.foldl (Tally.add exactly) tally).spent = .finite spent' ∧
      spent ≤ spent' := by
  induction reads generalizing tally spent with
  | nil => exact ⟨spent, h, le_rfl⟩
  | cons read rest ih =>
      have hread : ∀ cost, read = some (some cost) → isCost cost = true :=
        fun cost hcost => hreads cost (hcost ▸ List.mem_cons_self)
      obtain ⟨spent', hstep, hle⟩ := spent_add h hread
      obtain ⟨spent'', hrun, hle'⟩ := ih hstep
        fun cost hcost => hreads cost (List.mem_cons_of_mem _ hcost)
      exact ⟨spent'', hrun, hle.trans hle'⟩

theorem totals_spent {tally : Tally} {spent : ℚ} (h : tally.spent = .finite spent) :
    (tally.totals exactly).spent = .finite (roundTo (10 ^ costDigits) spent) := by
  unfold Tally.spent at h
  unfold CostTotals.spent Tally.totals
  cases htotal : tally.total with
  | none =>
      rw [htotal] at h
      obtain rfl := PyFloat.finite.inj h
      rw [roundTo_zero]
      rfl
  | some total =>
      rw [htotal] at h
      obtain rfl : total = .finite spent := h
      rfl

end Tally

private theorem totals_of_read_error {db : EventsDb} (hdb : db ≠ .missing) {error : SpendError}
    (h : db.readByType completedType = .error error) :
    totals exactly db = .ok unreadableTotals := by
  cases db with
  | missing => exact absurd rfl hdb
  | unreadable => rfl
  | rows events => simp only [totals, h]

/-- Of costs that convert, every row fetched can be read. -/
private theorem readCosts_of_converts {more : List StoredEvent} {added : List SpendEvent}
    (hconverts : ∀ event ∈ more, event.CostConverts)
    (hmore : (EventsDb.rows more).readByType completedType = .ok added) :
    ∃ costs, added.mapM (readCost exactly) = .ok costs := by
  cases hcosts : added.mapM (readCost exactly) with
  | ok costs => exact ⟨costs, rfl⟩
  | error error =>
      obtain ⟨fetched, hfetched, error', herror⟩ := mapM_eq_error_iff.mp ⟨error, hcosts⟩
      obtain ⟨event, hevent, hfetch⟩ := mem_of_mapM_eq_ok hmore hfetched
      obtain ⟨hevent, htype⟩ := List.mem_filter.mp hevent
      obtain ⟨cost, hcost⟩ := hconverts event hevent (of_decide_eq_true htype) fetched hfetch
      rw [herror] at hcost
      cases hcost

/-- More costs on top of those counted do not lower the spend. -/
private theorem grows_of_reads {completed added : List SpendEvent}
    {costs more : List (Option (Option PyFloat))}
    (hcosts : completed.mapM (readCost exactly) = .ok costs)
    (hmore : added.mapM (readCost exactly) = .ok more) :
    ((costs.foldl (Tally.add exactly) {}).totals exactly).Grows
      (((costs ++ more).foldl (Tally.add exactly) {}).totals exactly) := by
  have hvalid : ∀ {events : List SpendEvent} {reads : List (Option (Option PyFloat))},
      events.mapM (readCost exactly) = .ok reads →
        ∀ cost, some (some cost) ∈ reads → isCost cost = true := by
    intro events reads hreads cost hcost
    obtain ⟨event, -, hread⟩ := mem_of_mapM_eq_ok hreads hcost
    exact isCost_of_readCost hread
  have hstart : ({} : Tally).spent = .finite 0 := rfl
  obtain ⟨spent, hspent, -⟩ := Tally.spent_foldl hstart (hvalid hcosts)
  obtain ⟨spent', hspent', hle⟩ := Tally.spent_foldl hspent (hvalid hmore)
  rw [List.foldl_append]
  intro _
  exact ⟨rfl, _, _, Tally.totals_spent hspent, Tally.totals_spent hspent',
    roundTo_mono (by positivity) hle⟩

/-- Rows added to a store do not lower its totals, and where their costs
convert the totals can still be taken. -/
theorem totals_append {events : List StoredEvent} {before : CostTotals}
    (h : totals exactly (.rows events) = .ok before) (more : List StoredEvent) :
    (∀ after, totals exactly (.rows (events ++ more)) = .ok after → before.Grows after) ∧
      ((∀ event ∈ more, event.CostConverts) →
        ∃ after, totals exactly (.rows (events ++ more)) = .ok after) := by
  have hdb : ∀ events, EventsDb.rows events ≠ .missing := fun _ hmissing => by cases hmissing
  have hall := EventsDb.readByType_append events more completedType
  have hunreadable : ∀ error, (EventsDb.rows (events ++ more)).readByType completedType =
      .error error → (∀ after, totals exactly (.rows (events ++ more)) = .ok after →
        before.Grows after) ∧ ((∀ event ∈ more, event.CostConverts) →
          ∃ after, totals exactly (.rows (events ++ more)) = .ok after) := by
    intro error herror
    have htotals := totals_of_read_error (hdb _) herror
    refine ⟨?_, fun _ => ⟨_, htotals⟩⟩
    intro after hafter hreadable
    rw [htotals, Except.ok.injEq] at hafter
    rw [← hafter] at hreadable
    cases hreadable
  cases hread : (EventsDb.rows events).readByType completedType with
  | error error =>
      rw [hread] at hall
      exact hunreadable error hall
  | ok completed =>
      cases hmore : (EventsDb.rows more).readByType completedType with
      | error error =>
          rw [hread, hmore] at hall
          exact hunreadable error hall
      | ok added =>
          rw [hread, hmore] at hall
          rw [totals_of_read exactly (hdb _) hread] at h
          rw [totals_of_read exactly (hdb _) hall, List.mapM_append]
          cases hcosts : completed.mapM (readCost exactly) with
          | error error => simp [hcosts, bind, Except.bind] at h
          | ok costs =>
              simp only [hcosts, bind, Except.bind, pure, Except.pure, Except.ok.injEq] at h ⊢
              subst h
              cases hadded : added.mapM (readCost exactly) with
              | error error =>
                  constructor
                  · intro after hafter
                    cases hafter
                  · intro hconverts
                    obtain ⟨others, hothers⟩ := readCosts_of_converts hconverts hmore
                    rw [hadded] at hothers
                    cases hothers
              | ok others =>
                  refine ⟨?_, fun _ => ⟨_, rfl⟩⟩
                  intro after hafter
                  rw [← Except.ok.inj hafter]
                  exact grows_of_reads hcosts hadded

end CostAggregator

end ForgeOS
