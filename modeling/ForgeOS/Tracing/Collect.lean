import ForgeOS.JsonLines
import ForgeOS.Tracing.Tracer

/-!
The reading of both streams at once. Each is read with tolerance for what its
reader expects to be damaged; any other damage makes the whole reading raise, and
hides the other stream.
-/

namespace ForgeOS

open Library

/-- What is found at `.forge/events.db`: a file that SQLite or the system cannot
read has no rows. -/
inductive EventsSource where
  | missing
  | unreadable
  | rows (fetched : List TraceRow)

def EventsSource.toRows : EventsSource → List TraceRow
  | .rows fetched => fetched
  | _ => []

/-- What is found at `.forge/security-audit.jsonl`. -/
inductive AuditSource where
  | missing
  | unreadable
  | content (bytes : List UInt8)

namespace DualStreamTracer

open JsonLines

section Collect

variable (host : TraceHost)

def reasoningSpans : EventsSource → Except TraceFault (List Span)
  | .rows fetched => reasoningSpansFromRows host fetched
  | _ => .ok []

/-- One line of the audit log; none is `continue`. -/
def readAuditLine (raw : List Char) : Except TraceFault (Option Json) :=
  let line := stripLine raw
  if line = [] then .ok none
  else
    match host.loads line with
    | .ok (.obj entry) => .ok (some (.obj entry))
    | .ok _ => .ok none
    | .error .value => .ok none
    | .error .recursion => .error .nesting

def auditSpans : AuditSource → Except TraceFault (List Span)
  | .content bytes =>
      match decodeUtf8 bytes with
      | none => .error .undecodable
      | some text => do
          let entries ← (fileLines text.toList).mapM (readAuditLine host)
          auditSpansFromEntries host (entries.filterMap id)
  | _ => .ok []

def collect (events : EventsSource) (audit : AuditSource) : Except TraceFault (List Span) := do
  let reasoning ← reasoningSpans host events
  let audited ← auditSpans host audit
  return reasoning ++ audited

/-! ### What is well formed -/

/-- The lines of the audit log that are not blank. -/
def auditLines : AuditSource → List (List Char)
  | .content bytes =>
      match decodeUtf8 bytes with
      | none => []
      | some text =>
          ((fileLines text.toList).map stripLine).filter fun line => line ≠ []
  | _ => []

def entryOf? (line : List Char) : Option JsonObject :=
  match host.loads line with
  | .ok (.obj entry) => some entry
  | _ => none

/-- The reading of both streams returns, with a span for each well-formed record
of either. -/
def Tolerates (events : EventsSource) (audit : AuditSource) : Prop :=
  ∃ spans, collect host events audit = .ok spans ∧
    (∀ row ∈ events.toRows, ∀ traceId ∈ row.trace?, ∃ span ∈ spans,
      span.kind = .reasoning ∧ span.traceId = traceId ∧
        span.spanId = host.strSql row.eventId) ∧
    ∀ line ∈ auditLines audit, ∀ entry ∈ entryOf? host line, ∀ auditId ∈ auditTrace? entry,
      ∃ span ∈ spans, span.kind = .audit ∧ span.traceId = auditId

/-- The payload of the row is no text nested too deep. -/
def PayloadDecodes (row : TraceRow) : Prop :=
  ∀ raw, row.payload = .text raw → host.loads raw.toList ≠ .error .recursion

/-- The audit log is UTF-8. -/
def IsUtf8 : AuditSource → Prop
  | .content bytes => (decodeUtf8 bytes).isSome = true
  | _ => True

/-- The action, if it counts, and the timestamp of an entry can be made texts. -/
def HasTexts (entry : JsonObject) : Prop :=
  let action := (Dict.get? entry "action").getD .null
  (action.truthy = true → ∃ text, host.strJson action = .ok text) ∧
    ∃ text, host.strJson ((Dict.get? entry "timestamp").getD .null) = .ok text

/-- The line is not nested too deep, and its entry, if it forms a span, has texts. -/
def LineReads (line : List Char) : Prop :=
  host.loads line ≠ .error .recursion ∧
    ∀ entry ∈ entryOf? host line, (auditTrace? entry).isSome = true → HasTexts host entry

end Collect

/-! ### One record -/

variable {host : TraceHost}

theorem decodePayload_isOk_iff (row : TraceRow) :
    (∃ attributes, decodePayload host row.payload = .ok attributes) ↔
      PayloadDecodes host row := by
  unfold PayloadDecodes
  cases row.payload with
  | text raw =>
      rw [decodePayload_eq_ok_iff]
      constructor
      · intro h other hother
        rwa [← SqlValue.text.inj hother]
      · exact fun h => h raw rfl
  | _ => exact iff_of_true ⟨[], rfl⟩ nofun

/-- A row is read unless it can form a span and its payload does not decode; if
it can, it is read as one of its trace. -/
theorem readRow_isOk_iff (row : TraceRow) :
    (∃ result, readRow host row = .ok result) ↔
      (row.trace?.isSome = true → PayloadDecodes host row) := by
  rw [readRow]
  cases row.trace? with
  | none => exact iff_of_true ⟨none, rfl⟩ fun hnone => absurd hnone Bool.false_ne_true
  | some traceId =>
      rw [← decodePayload_isOk_iff]
      dsimp only
      cases decodePayload host row.payload with
      | error fault => simp [Except.map]
      | ok attributes => simp [Except.map]

theorem span_of_readRow {row : TraceRow} {traceId : String} (htrace : row.trace? = some traceId)
    {result : Option Span} (h : readRow host row = .ok result) :
    ∃ span, result = some span ∧ span.kind = .reasoning ∧ span.traceId = traceId ∧
      span.spanId = host.strSql row.eventId := by
  rw [readRow, htrace] at h
  dsimp only at h
  cases hdecoded : decodePayload host row.payload with
  | error fault =>
      rw [hdecoded] at h
      cases h
  | ok attributes =>
      rw [hdecoded] at h
      exact ⟨_, (Except.ok.inj h).symm, rfl, rfl, rfl⟩

theorem auditName_isOk_iff (entry : JsonObject) :
    (∃ name, auditName host entry = .ok name) ↔
      (((Dict.get? entry "action").getD .null).truthy = true →
        ∃ text, host.strJson ((Dict.get? entry "action").getD .null) = .ok text) := by
  rw [auditName]
  split
  · rename_i htruthy
    simp [htruthy]
  · rename_i hfalsy
    simp [hfalsy]

/-- An entry is read unless it can form a span and has no texts for it. -/
theorem readEntry_isOk_iff (entry : JsonObject) :
    (∃ result, readEntry host (.obj entry) = .ok result) ↔
      ((auditTrace? entry).isSome = true → HasTexts host entry) := by
  rw [readEntry]
  cases auditTrace? entry with
  | none => exact iff_of_true ⟨none, rfl⟩ nofun
  | some auditId =>
      unfold HasTexts
      dsimp only
      rw [← auditName_isOk_iff]
      simp only [bind_eq_ok_iff]
      constructor
      · rintro ⟨result, name, hname, text, htext, -⟩ -
        exact ⟨⟨name, hname⟩, text, htext⟩
      · intro h
        obtain ⟨⟨name, hname⟩, text, htext⟩ := h rfl
        exact ⟨_, name, hname, text, htext, rfl⟩

theorem span_of_readEntry {entry : JsonObject} {auditId : String}
    (htrace : auditTrace? entry = some auditId) {result : Option Span}
    (h : readEntry host (.obj entry) = .ok result) :
    ∃ span, result = some span ∧ span.kind = .audit ∧ span.traceId = auditId := by
  rw [readEntry, htrace] at h
  dsimp only at h
  obtain ⟨name, -, h⟩ := bind_eq_ok_iff.mp h
  obtain ⟨startTime, -, h⟩ := bind_eq_ok_iff.mp h
  exact ⟨_, (Except.ok.inj h).symm, rfl, rfl⟩

/-! ### The lines of the audit log -/

theorem readAuditLine_iff (raw : List Char) (result : Option Json) :
    readAuditLine host raw = .ok result ↔
      (stripLine raw ≠ [] →
        host.loads (stripLine raw) ≠ .error .recursion) ∧
      result = if stripLine raw = [] then none
        else (entryOf? host (stripLine raw)).map Json.obj := by
  rw [readAuditLine]
  split
  · rename_i hblank
    simp [hblank, eq_comm]
  · rename_i hline
    unfold entryOf?
    cases host.loads (stripLine raw) with
    | error fault => cases fault <;> simp [hline, eq_comm]
    | ok value => cases value <;> simp [hline, eq_comm]

theorem entries_of_lines (raws : List (List Char)) :
    (raws.map fun raw => if stripLine raw = [] then none
      else (entryOf? host (stripLine raw)).map Json.obj).filterMap id =
      (((raws.map stripLine).filter fun line => line ≠ []).filterMap
        (entryOf? host)).map Json.obj := by
  induction raws with
  | nil => rfl
  | cons raw rest ih =>
      rw [List.map_cons, List.map_cons, List.filter_cons, List.filterMap_cons, ih]
      by_cases hblank : stripLine raw = []
      · simp [hblank]
      · cases hentry : entryOf? host (stripLine raw) <;> simp [hblank, hentry]

/-- The audit log is read as the entries of its lines if it is UTF-8 and no line
is nested too deep. -/
theorem auditSpans_content_eq_ok_iff (bytes : List UInt8) (spans : List Span) :
    auditSpans host (.content bytes) = .ok spans ↔
      (decodeUtf8 bytes).isSome = true ∧
        (∀ line ∈ auditLines (.content bytes), host.loads line ≠ .error .recursion) ∧
        auditSpansFromEntries host
          (((auditLines (.content bytes)).filterMap (entryOf? host)).map Json.obj) = .ok spans := by
  unfold auditSpans auditLines
  dsimp only
  cases decodeUtf8 bytes with
  | none => simp
  | some text =>
      dsimp only
      simp only [bind_eq_ok_iff, mapM_eq_ok_iff_map readAuditLine_iff, Option.isSome_some,
        true_and, List.forall_mem_filter, List.forall_mem_map]
      constructor
      · rintro ⟨read, ⟨hread, rfl⟩, hspans⟩
        rw [entries_of_lines] at hspans
        exact ⟨fun raw hraw hline => hread raw hraw (of_decide_eq_true hline), hspans⟩
      · rintro ⟨hread, hspans⟩
        refine ⟨_, ⟨fun raw hraw hline => hread raw hraw (decide_eq_true hline), rfl⟩, ?_⟩
        rw [entries_of_lines]
        exact hspans

/-! ### Both streams -/

theorem reasoningSpans_isOk_iff (events : EventsSource) :
    (∃ spans, reasoningSpans host events = .ok spans) ↔
      ∀ row ∈ events.toRows, row.trace?.isSome = true → PayloadDecodes host row := by
  cases events with
  | rows fetched =>
      have hread : (∃ spans, reasoningSpansFromRows host fetched = .ok spans) ↔
          ∀ row ∈ fetched, ∃ result, readRow host row = .ok result := exists_mapM_bind_iff
      simp only [readRow_isOk_iff] at hread
      exact hread
  | _ => exact iff_of_true ⟨[], rfl⟩ fun _ hrow => nomatch hrow

/-- The rows that can form a span have one. -/
theorem exists_span_of_row {events : EventsSource} {spans : List Span}
    (h : reasoningSpans host events = .ok spans) {row : TraceRow} (hrow : row ∈ events.toRows)
    {traceId : String} (htrace : row.trace? = some traceId) :
    ∃ span ∈ spans, span.kind = .reasoning ∧ span.traceId = traceId ∧
      span.spanId = host.strSql row.eventId := by
  cases events with
  | rows fetched =>
      obtain ⟨read, hread, hspans⟩ := bind_eq_ok_iff.mp h
      obtain ⟨result, hresult, hrowRead⟩ := exists_mem_of_mapM_eq_ok hread hrow
      obtain ⟨span, rfl, hkind, hid, hspan⟩ := span_of_readRow htrace hrowRead
      rw [← Except.ok.inj hspans]
      exact ⟨span, List.mem_filterMap.mpr ⟨_, hresult, rfl⟩, hkind, hid, hspan⟩
  | _ => cases hrow

theorem auditSpansFromEntries_isOk_iff (entries : List JsonObject) :
    (∃ spans, auditSpansFromEntries host (entries.map Json.obj) = .ok spans) ↔
      ∀ entry ∈ entries, (auditTrace? entry).isSome = true → HasTexts host entry := by
  have hread : (∃ spans, auditSpansFromEntries host (entries.map Json.obj) = .ok spans) ↔
      ∀ value ∈ entries.map Json.obj, ∃ result, readEntry host value = .ok result :=
    exists_mapM_bind_iff
  simp only [List.forall_mem_map, readEntry_isOk_iff] at hread
  exact hread

theorem auditSpans_isOk_iff (audit : AuditSource) :
    (∃ spans, auditSpans host audit = .ok spans) ↔
      IsUtf8 audit ∧ ∀ line ∈ auditLines audit, LineReads host line := by
  cases audit with
  | content bytes =>
      simp only [auditSpans_content_eq_ok_iff, exists_and_left, auditSpansFromEntries_isOk_iff]
      refine and_congr_right fun _ => ?_
      constructor
      · rintro ⟨hshallow, hentries⟩ line hline
        refine ⟨hshallow line hline, fun entry hentry => hentries entry ?_⟩
        exact List.mem_filterMap.mpr ⟨line, hline, hentry⟩
      · intro hlines
        refine ⟨fun line hline => (hlines line hline).1, fun entry hentry => ?_⟩
        obtain ⟨line, hline, hread⟩ := List.mem_filterMap.mp hentry
        exact (hlines line hline).2 entry hread
  | _ => exact iff_of_true ⟨[], rfl⟩ ⟨trivial, fun _ hline => nomatch hline⟩

/-- The entries that can form a span have one. -/
theorem exists_span_of_line {audit : AuditSource} {spans : List Span}
    (h : auditSpans host audit = .ok spans) {line : List Char} (hline : line ∈ auditLines audit)
    {entry : JsonObject} (hentry : entryOf? host line = some entry) {auditId : String}
    (htrace : auditTrace? entry = some auditId) :
    ∃ span ∈ spans, span.kind = .audit ∧ span.traceId = auditId := by
  cases audit with
  | content bytes =>
      obtain ⟨-, -, hspans⟩ := (auditSpans_content_eq_ok_iff bytes spans).mp h
      obtain ⟨read, hread, hspans⟩ := bind_eq_ok_iff.mp hspans
      have hmem : Json.obj entry ∈
          ((auditLines (.content bytes)).filterMap (entryOf? host)).map Json.obj :=
        List.mem_map_of_mem (List.mem_filterMap.mpr ⟨line, hline, hentry⟩)
      obtain ⟨result, hresult, hentryRead⟩ := exists_mem_of_mapM_eq_ok hread hmem
      obtain ⟨span, rfl, hkind, hid⟩ := span_of_readEntry htrace hentryRead
      rw [← Except.ok.inj hspans]
      exact ⟨span, List.mem_filterMap.mpr ⟨_, hresult, rfl⟩, hkind, hid⟩
  | _ => cases hline

/-- Both streams are read exactly if the payloads of the rows that can form a
span decode, the audit log is UTF-8, and its lines read. Reading guards against
errors of the file and of `json`, not against those of the decoder and of the
stack. -/
theorem tolerates_iff (host : TraceHost) (events : EventsSource) (audit : AuditSource) :
    Tolerates host events audit ↔
      (∀ row ∈ events.toRows, row.trace?.isSome = true → PayloadDecodes host row) ∧
        IsUtf8 audit ∧ ∀ line ∈ auditLines audit, LineReads host line := by
  rw [← reasoningSpans_isOk_iff, ← auditSpans_isOk_iff]
  constructor
  · rintro ⟨spans, hcollect, -⟩
    obtain ⟨reasoning, hreasoning, hcollect⟩ := bind_eq_ok_iff.mp hcollect
    obtain ⟨audited, haudited, -⟩ := bind_eq_ok_iff.mp hcollect
    exact ⟨⟨reasoning, hreasoning⟩, audited, haudited⟩
  · rintro ⟨⟨reasoning, hreasoning⟩, audited, haudited⟩
    refine ⟨reasoning ++ audited, ?_, ?_, ?_⟩
    · exact bind_eq_ok_iff.mpr ⟨reasoning, hreasoning, bind_eq_ok_iff.mpr ⟨audited, haudited, rfl⟩⟩
    · intro row hrow traceId htrace
      obtain ⟨span, hspan, hkind, hid⟩ := exists_span_of_row hreasoning hrow htrace
      exact ⟨span, List.mem_append_left _ hspan, hkind, hid⟩
    · intro line hline entry hentry auditId htrace
      obtain ⟨span, hspan, hkind, hid⟩ := exists_span_of_line haudited hline hentry htrace
      exact ⟨span, List.mem_append_right _ hspan, hkind, hid⟩

/-- One byte that is no UTF-8 in the audit log hides the spans of every run. -/
theorem not_tolerates :
    ¬ ∀ (host : TraceHost) (events : EventsSource) (audit : AuditSource),
      Tolerates host events audit := by
  intro h
  obtain ⟨-, hutf8, -⟩ := (tolerates_iff _ _ _).mp (h emptyPayloads .missing (.content [0xff]))
  change (decodeUtf8 [0xff]).isSome = true at hutf8
  revert hutf8
  decide +kernel

end DualStreamTracer

end ForgeOS
