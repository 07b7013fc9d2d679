import ForgeOS.Text
import ForgeOS.Tracing.Index

/-!
The tracer: the rows of the event store and the entries of the audit log, each
made into a span. What `json.loads` and `str` make of a value are inputs: of
their errors only a `ValueError` of `json.loads` is tolerated.
-/

namespace ForgeOS

open Library

/-- What `json.loads` raises: a `ValueError`, as its `JSONDecodeError` is one, or
the `RecursionError` of a text nested too deep. -/
inductive LoadsError where
  | value
  | recursion
deriving DecidableEq, Repr

/-- What escapes from the tracer. -/
inductive TraceFault where
  /-- `RecursionError` of `json.loads`. -/
  | nesting
  /-- What `str` of a value raises. -/
  | text
  /-- `UnicodeDecodeError` -/
  | undecodable
deriving DecidableEq, Repr

/-- A value of a SQLite column. -/
inductive SqlValue where
  | null
  | integer (value : Int)
  | real (value : PyFloat)
  | text (value : String)
  | blob (bytes : List UInt8)

/-- `bool(value)` -/
def SqlValue.truthy : SqlValue → Bool
  | .null => false
  | .integer value => value ≠ 0
  | .real value => !value.eq (.finite 0)
  | .text value => value ≠ ""
  | .blob bytes => bytes ≠ []

/-- A row of `EventStore.read_all`, with the columns the tracer looks at. -/
structure TraceRow where
  eventId : SqlValue
  streamId : SqlValue
  eventType : SqlValue
  payload : SqlValue
  createdAt : SqlValue

/-- What the standard library makes of values: `json.loads`, `str` of a JSON
value, and `repr` of a float or of bytes. -/
structure TraceHost where
  loads : List Char → Except LoadsError Json
  str : Json → Option String
  repr : SqlValue → String

namespace TraceHost

variable (host : TraceHost)

/-- `str(value)` of a column. -/
def strSql : SqlValue → String
  | .null => "None"
  | .integer value => toString value
  | .text value => value
  | value => host.repr value

/-- `str(value)` of a JSON value; a string is itself. -/
def strJson : Json → Except TraceFault String
  | .str value => .ok value
  | value =>
      match host.str value with
      | some text => .ok text
      | none => .error .text

end TraceHost

def reasoningStatus (eventType : String) : SpanStatus :=
  if eventType = "AdapterSpawnFailed" then .error
  else if eventType = "AdapterSpawnCompleted" then .ok
  else .unset

def auditStatus : Json → SpanStatus
  | .str decision =>
      if decision ∈ ["denied", "failed"] then .error
      else if decision ∈ ["allowed", "warned"] then .ok
      else .unset
  | _ => .unset

section Spans

variable (host : TraceHost)

/-- `_decode_payload(raw)`: what is no object has no attributes. -/
def decodePayload : SqlValue → Except TraceFault JsonObject
  | .text raw =>
      match host.loads raw.toList with
      | .ok (.obj entries) => .ok entries
      | .ok _ => .ok []
      | .error .value => .ok []
      | .error .recursion => .error .nesting
  | _ => .ok []

/-- The trace of a row, if the row can form a span. -/
def TraceRow.trace? (row : TraceRow) : Option String :=
  match row.streamId with
  | .text streamId =>
      let present := match row.eventId with
        | .null => false
        | _ => true
      if streamId ≠ "" && present && row.eventType.truthy && row.createdAt.truthy then
        some streamId
      else none
  | _ => none

def reasoningSpan (row : TraceRow) (traceId : String) (attributes : JsonObject) : Span where
  traceId := traceId
  spanId := host.strSql row.eventId
  name := host.strSql row.eventType
  kind := .reasoning
  startTime := host.strSql row.createdAt
  status := reasoningStatus (host.strSql row.eventType)
  attributes := attributes
  extra_names := Span.extra_names_nil

/-- One turn of `reasoning_spans_from_rows`; none is `continue`. -/
def readRow (row : TraceRow) : Except TraceFault (Option Span) :=
  match row.trace? with
  | none => .ok none
  | some traceId =>
      (decodePayload host row.payload).map fun attributes =>
        some (reasoningSpan host row traceId attributes)

def reasoningSpansFromRows (rows : List TraceRow) : Except TraceFault (List Span) := do
  let spans ← rows.mapM (readRow host)
  return spans.filterMap id

/-- The audit id of an entry, if the entry can form a span. -/
def auditTrace? (entry : JsonObject) : Option String :=
  match Dict.get? entry "audit_id" with
  | some (.str auditId) =>
      if auditId ≠ "" && ((Dict.get? entry "timestamp").getD .null).truthy then some auditId
      else none
  | _ => none

/-- `str(action) if action else "security-audit"` -/
def auditName (entry : JsonObject) : Except TraceFault String :=
  let action := (Dict.get? entry "action").getD .null
  if action.truthy then host.strJson action else .ok "security-audit"

def auditSpan (entry : JsonObject) (auditId name startTime : String) : Span where
  traceId := auditId
  spanId := auditId
  name := name
  kind := .audit
  startTime := startTime
  status := auditStatus ((Dict.get? entry "decision").getD .null)
  attributes := entry.filter fun member => member.1 ∉ ["audit_id", "timestamp"]
  extra_names := Span.extra_names_nil

/-- One turn of `audit_spans_from_entries`; none is `continue`. -/
def readEntry : Json → Except TraceFault (Option Span)
  | .obj entry =>
      match auditTrace? entry with
      | none => .ok none
      | some auditId => do
          let name ← auditName host entry
          let startTime ← host.strJson ((Dict.get? entry "timestamp").getD .null)
          return some (auditSpan entry auditId name startTime)
  | _ => .ok none

def auditSpansFromEntries (entries : List Json) : Except TraceFault (List Span) := do
  let spans ← entries.mapM (readEntry host)
  return spans.filterMap id

end Spans

/-! ### The order of the events of a trace -/

/-- A row of the `events` table, by the types of its schema. -/
structure StoreRow where
  eventId : Int
  streamId : String
  eventType : String
  payload : String
  createdAt : String
deriving DecidableEq, Repr

namespace StoreRow

def fetched (row : StoreRow) : TraceRow where
  eventId := .integer row.eventId
  streamId := .text row.streamId
  eventType := .text row.eventType
  payload := .text row.payload
  createdAt := .text row.createdAt

/-- The row can form a span. -/
def usable (row : StoreRow) : Bool :=
  row.streamId ≠ "" && row.eventType ≠ "" && row.createdAt ≠ ""

/-- `json.loads` decodes the payload, or rejects it with a `ValueError`. -/
def Decodes (host : TraceHost) (row : StoreRow) : Prop :=
  host.loads row.payload.toList ≠ .error .recursion

/-- The span of a row whose payload is decoded. -/
def span (host : TraceHost) (row : StoreRow) : Span :=
  reasoningSpan host row.fetched row.streamId
    ((decodePayload host (.text row.payload)).toOption.getD [])

end StoreRow

/-- Rows of the event store, in the order of their ids, and of their times. -/
structure StoreRows where
  rows : List StoreRow
  increasing : (rows.map StoreRow.eventId).Pairwise (· < ·)
  inTime : (rows.map StoreRow.createdAt).Pairwise (· ≤ ·)

section Order

variable (host : TraceHost)

/-- The index has the spans of each trace in increasing event id. -/
def InEventOrder (store : StoreRows) : Prop :=
  ∃ spans, reasoningSpansFromRows host (store.rows.map StoreRow.fetched) = .ok spans ∧
    ∀ traceId, (TraceIndex.ofSpans spans).spansFor traceId =
      (store.rows.filter fun row => row.usable && row.streamId = traceId).map (StoreRow.span host)

/-- The second row, of the same trace and time as the first, does not have a
smaller id as a text. -/
def KeepsTextOrder (a b : StoreRow) : Prop :=
  a.usable = true → b.usable = true → a.streamId = b.streamId → a.createdAt = b.createdAt →
    toString a.eventId ≤ toString b.eventId

theorem trace?_fetched (row : StoreRow) :
    row.fetched.trace? = if row.usable then some row.streamId else none := by
  unfold TraceRow.trace? StoreRow.usable StoreRow.fetched
  simp [SqlValue.truthy]

theorem decodePayload_eq_ok_iff (payload : String) :
    (∃ attributes, decodePayload host (.text payload) = .ok attributes) ↔
      host.loads payload.toList ≠ .error .recursion := by
  rw [decodePayload]
  cases host.loads payload.toList with
  | error fault => cases fault <;> simp
  | ok value => cases value <;> simp

/-- One usable row is read exactly if its payload decodes. -/
theorem readRow_fetched (row : StoreRow) (result : Option Span) :
    readRow host row.fetched = .ok result ↔
      (row.usable = true → row.Decodes host) ∧
        result = if row.usable then some (row.span host) else none := by
  rw [readRow, trace?_fetched]
  cases husable : row.usable with
  | false => simp [eq_comm]
  | true =>
      have hdecodes := decodePayload_eq_ok_iff host row.payload
      rw [if_pos rfl, if_pos rfl, StoreRow.span]
      change (decodePayload host (.text row.payload)).map _ = .ok result ↔ _
      unfold StoreRow.Decodes
      rw [← hdecodes]
      cases decodePayload host (.text row.payload) with
      | error fault => simp [Except.map]
      | ok attributes => simp [Except.map, Except.toOption, eq_comm]

/-- The rows of a store are read exactly if the payloads of the usable ones
decode. -/
theorem reasoningSpans_fetched (rows : List StoreRow) (spans : List Span) :
    reasoningSpansFromRows host (rows.map StoreRow.fetched) = .ok spans ↔
      (∀ row ∈ rows, row.usable = true → row.Decodes host) ∧
        spans = (rows.filter StoreRow.usable).map (StoreRow.span host) := by
  have hkept (rows : List StoreRow) :
      (rows.map fun row => if row.usable then some (row.span host) else none).filterMap id =
        (rows.filter StoreRow.usable).map (StoreRow.span host) := by
    induction rows with
    | nil => rfl
    | cons row rest ih =>
        rw [List.map_cons, List.filter_cons]
        split
        · rw [List.filterMap_cons, ih]
          rfl
        · rw [List.filterMap_cons, ih]
          rfl
  unfold reasoningSpansFromRows
  rw [bind_eq_ok_iff, List.mapM_map]
  simp only [Function.comp_def, mapM_eq_ok_iff_map (readRow_fetched host)]
  constructor
  · rintro ⟨read, ⟨hdecodes, rfl⟩, hspans⟩
    exact ⟨hdecodes, (Except.ok.inj hspans).symm.trans (hkept rows)⟩
  · rintro ⟨hdecodes, rfl⟩
    exact ⟨_, ⟨hdecodes, rfl⟩, congrArg Except.ok (hkept rows)⟩

/-- Two spans of a trace are in order of the index exactly if, started at the
same time, they are in order of their ids as texts. -/
theorem keyLe_span_iff {a b : StoreRow} (htime : a.createdAt ≤ b.createdAt) :
    TraceIndex.keyLe (a.span host) (b.span host) ↔
      (a.createdAt = b.createdAt → toString a.eventId ≤ toString b.eventId) := by
  change a.createdAt < b.createdAt ∨
    a.createdAt = b.createdAt ∧ toString a.eventId ≤ toString b.eventId ↔ _
  rcases htime.lt_or_eq with hlt | heq
  · exact iff_of_true (.inl hlt) fun h => absurd h hlt.ne
  · simp [heq]

/-- The spans of every trace come in increasing event id exactly if the payload
of every usable row decodes, and of two such rows of one trace and time the one
with the smaller id has the smaller id as a text too. Spans of one time are
sorted by their ids, which are texts. -/
theorem inEventOrder_iff (store : StoreRows) :
    InEventOrder host store ↔
      (∀ row ∈ store.rows, row.usable = true → row.Decodes host) ∧
        store.rows.Pairwise KeepsTextOrder := by
  have hofTrace (traceId : String) :
      (((store.rows.filter StoreRow.usable).map (StoreRow.span host)).filter
        fun span => span.traceId = traceId) =
      (store.rows.filter fun row => row.usable && row.streamId = traceId).map
        (StoreRow.span host) := by
    rw [List.filter_map, List.filter_filter]
    congr 1
    exact List.filter_congr fun row _ => Bool.and_comm ..
  have horder : (∀ traceId, (TraceIndex.ofSpans ((store.rows.filter StoreRow.usable).map
        (StoreRow.span host))).spansFor traceId =
      (store.rows.filter fun row => row.usable && row.streamId = traceId).map
        (StoreRow.span host)) ↔ store.rows.Pairwise KeepsTextOrder := by
    have htimes {a b : StoreRow} (hsublist : [a, b].Sublist store.rows) :
        a.createdAt ≤ b.createdAt :=
      List.pairwise_iff_forall_sublist.mp (List.pairwise_map.mp store.inTime) hsublist
    simp only [TraceIndex.spansFor_ofSpans, hofTrace, TraceIndex.insertionSort_eq_self_iff,
      List.pairwise_map, List.pairwise_filter, Bool.and_eq_true, decide_eq_true_eq]
    simp only [List.pairwise_iff_forall_sublist]
    constructor
    · intro h a b hsublist husableA husableB htrace
      exact (keyLe_span_iff host (htimes hsublist)).mp
        (h a.streamId hsublist ⟨husableA, rfl⟩ ⟨husableB, htrace.symm⟩)
    · rintro h traceId a b hsublist ⟨husableA, htraceA⟩ ⟨husableB, htraceB⟩
      exact (keyLe_span_iff host (htimes hsublist)).mpr
        (h hsublist husableA husableB (htraceA.trans htraceB.symm))
  unfold InEventOrder
  simp only [reasoningSpans_fetched]
  constructor
  · rintro ⟨spans, ⟨hdecodes, rfl⟩, hspans⟩
    exact ⟨hdecodes, horder.mp hspans⟩
  · rintro ⟨hdecodes, hpairs⟩
    exact ⟨_, ⟨hdecodes, rfl⟩, horder.mpr hpairs⟩

end Order

/-- Two events of a run that were stored in one millisecond, the ninth and the
tenth of the store. -/
def tenthEvent : StoreRows where
  rows :=
    [⟨9, "run-1", "AdapterSpawnStarted", "\x7b\x7d", "2026-01-01T00:00:00.000Z"⟩,
      ⟨10, "run-1", "AdapterSpawnCompleted", "\x7b\x7d", "2026-01-01T00:00:00.000Z"⟩]
  increasing := by decide
  inTime := by simp

def emptyPayloads : TraceHost := ⟨fun _ => .ok (.obj []), fun _ => none, fun _ => ""⟩

/-- The tenth event comes ahead of the ninth. -/
theorem not_inEventOrder :
    ¬ ∀ (host : TraceHost) (store : StoreRows), (∀ row ∈ store.rows, row.Decodes host) →
      InEventOrder host store := by
  intro h
  have horder := h emptyPayloads tenthEvent fun row _ => nofun
  obtain ⟨-, hpairs⟩ := (inEventOrder_iff emptyPayloads tenthEvent).mp horder
  have hlast := (List.pairwise_cons.mp hpairs).1 _ (List.mem_singleton_self _)
  have htexts : toString (9 : Int) ≤ toString (10 : Int) := hlast rfl rfl rfl rfl
  revert htexts
  decide

end ForgeOS
