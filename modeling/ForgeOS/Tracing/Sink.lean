import ForgeOS.Hooks.Timing

/-!
The local span store, `.forge/traces/spans.jsonl`. A write replaces it by the
dumps of all spans, and a reader takes what it can validate, as that of the hook
timings does.
-/

namespace ForgeOS

open Library

inductive SpanKind where
  | reasoning
  | audit
deriving DecidableEq, Repr

def SpanKind.value : SpanKind → String
  | .reasoning => "reasoning"
  | .audit => "audit"

/-- `SpanKind(value)` -/
def SpanKind.ofValue? (value : String) : Option SpanKind :=
  if value = "reasoning" then some .reasoning
  else if value = "audit" then some .audit
  else none

@[simp]
theorem SpanKind.ofValue?_value (kind : SpanKind) : ofValue? kind.value = some kind := by
  cases kind <;> rfl

inductive SpanStatus where
  | unset
  | ok
  | error
deriving DecidableEq, Repr

def SpanStatus.value : SpanStatus → String
  | .unset => "unset"
  | .ok => "ok"
  | .error => "error"

/-- `SpanStatus(value)` -/
def SpanStatus.ofValue? (value : String) : Option SpanStatus :=
  if value = "unset" then some .unset
  else if value = "ok" then some .ok
  else if value = "error" then some .error
  else none

@[simp]
theorem SpanStatus.ofValue?_value (status : SpanStatus) :
    ofValue? status.value = some status := by
  cases status <;> rfl

def spanFields : List String :=
  ["trace_id", "span_id", "parent_span_id", "name", "kind", "start_time", "end_time", "status",
    "attributes"]

/-- A single provider-neutral trace span. Members of other names than the fields
are kept beside them. -/
structure Span where
  traceId : String
  spanId : String
  parentSpanId : Option String := none
  name : String
  kind : SpanKind
  startTime : String
  endTime : Option String := none
  status : SpanStatus := .unset
  attributes : JsonObject := []
  extra : JsonObject := []
  extra_names : ∀ entry ∈ extra, entry.1 ∉ spanFields

namespace Span

open JsonLines

theorem extra_names_nil : ∀ entry ∈ ([] : JsonObject), entry.1 ∉ spanFields :=
  List.forall_mem_nil _

def modelDump (span : Span) : JsonObject :=
  [("trace_id", .str span.traceId), ("span_id", .str span.spanId),
    ("parent_span_id", .optional span.parentSpanId), ("name", .str span.name),
    ("kind", .str span.kind.value), ("start_time", .str span.startTime),
    ("end_time", .optional span.endTime), ("status", .str span.status.value),
    ("attributes", .obj span.attributes)] ++ span.extra

/-- The validation of the model. -/
def validate (obj : JsonObject) : Option Span := do
  let traceId ← strField obj "trace_id"
  let spanId ← strField obj "span_id"
  let parentSpanId ← optionalStrField obj "parent_span_id"
  let name ← strField obj "name"
  let kind ← SpanKind.ofValue? (← strField obj "kind")
  let startTime ← strField obj "start_time"
  let endTime ← optionalStrField obj "end_time"
  let status ← SpanStatus.ofValue? (← strFieldOr obj "status" "unset")
  let attributes ← mappingField obj "attributes"
  return {
    traceId, spanId, parentSpanId, name, kind, startTime, endTime, status, attributes
    extra := obj.filter fun entry => entry.1 ∉ spanFields
    extra_names := fun _ hentry => of_decide_eq_true (List.mem_filter.mp hentry).2 }

/-- The span of the dump: its attributes and the members beside its fields have
been dumped. -/
def dumped (span : Span) : Span :=
  { span with
    attributes := Json.dumpedEntries span.attributes
    extra := Json.dumpedEntries span.extra
    extra_names := by
      have hkeys := Json.keys_dumpedEntries span.extra
      intro entry hentry
      have hmem := List.mem_map_of_mem (f := Prod.fst) hentry
      rw [hkeys] at hmem
      obtain ⟨other, hother, hkey⟩ := List.mem_map.mp hmem
      rw [← hkey]
      exact span.extra_names other hother }

/-- No attribute and no other member is an infinite float or NaN. -/
def allFinite (span : Span) : Bool :=
  Json.allFiniteEntries span.attributes && Json.allFiniteEntries span.extra

theorem dumped_eq_iff (span : Span) : span.dumped = span ↔ span.allFinite = true := by
  unfold allFinite
  rw [Bool.and_eq_true, ← Json.dumpedEntries_eq_iff, ← Json.dumpedEntries_eq_iff]
  constructor
  · intro h
    exact ⟨congrArg Span.attributes h, congrArg Span.extra h⟩
  · rintro ⟨hattributes, hextra⟩
    obtain ⟨traceId, spanId, parentSpanId, name, kind, startTime, endTime, status, attributes,
      extra, hnames⟩ := span
    simp only [dumped, mk.injEq, true_and]
    exact ⟨hattributes, hextra⟩

theorem dumpedEntries_modelDump (span : Span) :
    Json.dumpedEntries span.modelDump = span.dumped.modelDump := by
  have hoptional (value : Option String) : (Json.optional value).dumped = .optional value := by
    cases value <;> rfl
  simp only [modelDump, Json.dumpedEntries_append, Json.dumpedEntries, hoptional]
  rfl

theorem optionalStrField_modelDump (span : Span) :
    optionalStrField span.modelDump "parent_span_id" = some span.parentSpanId ∧
      optionalStrField span.modelDump "end_time" = some span.endTime := by
  have hparent : Dict.get? span.modelDump "parent_span_id" = some (.optional span.parentSpanId) :=
    rfl
  have hend : Dict.get? span.modelDump "end_time" = some (.optional span.endTime) := rfl
  unfold optionalStrField
  rw [hparent, hend]
  constructor
  · cases span.parentSpanId <;> rfl
  · cases span.endTime <;> rfl

/-- What is no field of a dump is beside the fields. -/
theorem filter_modelDump (span : Span) :
    (span.modelDump.filter fun entry => entry.1 ∉ spanFields) = span.extra := by
  rw [modelDump, List.filter_append]
  have hextra : (span.extra.filter fun entry => entry.1 ∉ spanFields) = span.extra :=
    List.filter_eq_self.mpr fun entry hentry => decide_eq_true (span.extra_names entry hentry)
  rw [hextra]
  rfl

theorem validate_modelDump (span : Span) : validate span.modelDump = some span := by
  have htrace : strField span.modelDump "trace_id" = some span.traceId := rfl
  have hspan : strField span.modelDump "span_id" = some span.spanId := rfl
  have hname : strField span.modelDump "name" = some span.name := rfl
  have hkind : strField span.modelDump "kind" = some span.kind.value := rfl
  have hstart : strField span.modelDump "start_time" = some span.startTime := rfl
  have hstatus : strFieldOr span.modelDump "status" "unset" = some span.status.value := rfl
  have hattributes : mappingField span.modelDump "attributes" = some span.attributes := rfl
  obtain ⟨hparent, hend⟩ := optionalStrField_modelDump span
  have hextra := filter_modelDump span
  unfold validate
  simp only [htrace, hspan, hname, hkind, hstart, hstatus, hattributes, hparent, hend, hextra,
    Option.bind_eq_bind, Option.bind_some, SpanKind.ofValue?_value, SpanStatus.ofValue?_value,
    Option.pure_def]

theorem requires_validate : Requires validate "trace_id" := by
  intro obj hvalid
  cases hfield : strField obj "trace_id" with
  | none =>
      unfold validate at hvalid
      rw [hfield] at hvalid
      cases hvalid
  | some traceId => exact mem_of_strField (by rw [hfield]; rfl)

end Span

/-- A span with its dump. -/
structure SpanEntry (reading : JsonText.Reading) where
  span : Span
  dump : JsonLines.ModelDump reading
  dump_object : dump.object = Json.dumpedEntries span.modelDump

namespace SpanSink

open JsonLines JsonText

variable {reading : Reading}

/-- `write`, which replaces the file. -/
def write (spans : List (SpanEntry reading)) : Option (List Char) :=
  some (written (spans.map SpanEntry.dump))

/-- All valid spans; what cannot be validated is skipped. -/
def readAll (reading : Reading) (file : Option (List Char)) : List Span :=
  JsonLines.readAll reading Span.validate file

/-- The spans that are written come back exactly if none of their strings has a
separator, none of their floats is infinite or NaN, and they are within the
limits of the reader. -/
theorem readAll_write_iff (spans : List (SpanEntry reading)) :
    readAll reading (write spans) = spans.map SpanEntry.span ↔
      ∀ entry ∈ spans, Unseparated (.obj entry.span.modelDump) ∧ entry.span.allFinite = true ∧
        Fits reading entry.dump.text (.obj entry.dump.object) := by
  have hitems : (spans.map SpanEntry.dump).map (fun dump => Span.validate dump.object) =
      (spans.map fun entry => entry.span.dumped).map some := by
    rw [List.map_map, List.map_map]
    refine List.map_congr_left fun entry _ => ?_
    change Span.validate entry.dump.object = some entry.span.dumped
    rw [entry.dump_object, Span.dumpedEntries_modelDump, Span.validate_modelDump]
  obtain ⟨hlength, hread⟩ := readAll_written_iff (by decide) Span.requires_validate hitems
  have hkept (entry : SpanEntry reading) : entry.dump.Kept ↔
      Unseparated (.obj entry.span.modelDump) ∧
        Fits reading entry.dump.text (.obj entry.dump.object) := by
    have hstrings : (Json.obj entry.dump.object).strings =
        (Json.obj entry.span.modelDump).strings := by
      rw [entry.dump_object]
      exact Json.stringsOfEntries_dumped _
    unfold ModelDump.Kept Unseparated
    rw [hstrings]
  rw [List.forall_mem_map] at hread hlength
  constructor
  · intro hsame
    have hall := hlength.mp (by
      change (readAll reading (write spans)).length = _
      rw [hsame, List.length_map, List.length_map])
    have hdumped : (spans.map fun entry => entry.span.dumped) = spans.map SpanEntry.span :=
      (hread.mpr hall).symm.trans hsame
    intro entry hentry
    obtain ⟨hseparated, hfits⟩ := (hkept entry).mp (hall entry hentry)
    exact ⟨hseparated, entry.span.dumped_eq_iff.mp (List.map_inj_left.mp hdumped entry hentry),
      hfits⟩
  · intro hall
    have hdumped : (spans.map fun entry => entry.span.dumped) = spans.map SpanEntry.span :=
      List.map_congr_left fun entry hentry =>
        entry.span.dumped_eq_iff.mpr (hall entry hentry).2.1
    rw [← hdumped]
    exact hread.mpr fun entry hentry =>
      (hkept entry).mpr ⟨(hall entry hentry).1, (hall entry hentry).2.2⟩

/-- What is written to the two logs is read from them again: the spans exactly if
none of their strings has a separator, none of their floats is infinite or NaN,
and they are within the limits of the reader, and the timings exactly if none of
their strings has a separator. -/
theorem logs_roundTrip_iff (recordedAt : String) (coerce : Json → Option ℚ)
    (hdepth : 0 < reading.maxDepth) (spans : List (SpanEntry reading))
    (batches : List (List (TimingEntry reading))) :
    (readAll reading (write spans) = spans.map SpanEntry.span ↔
      ∀ entry ∈ spans, Unseparated (.obj entry.span.modelDump) ∧ entry.span.allFinite = true ∧
        Fits reading entry.dump.text (.obj entry.dump.object)) ∧
    (HookTimingLog.readAll reading recordedAt coerce (run HookTimingLog.append none batches) =
        batches.flatten.map TimingEntry.timing ↔
      ∀ entry ∈ batches.flatten, Unseparated (.obj entry.timing.modelDump)) :=
  ⟨readAll_write_iff spans, HookTimingLog.readAll_append_iff recordedAt coerce hdepth batches⟩

/-- A reader that knows one float. -/
def timedReading : Reading :=
  ⟨fun text => if text = "2.0".toList then .finite 2 else .nan, 4300, 200, false⟩

/-- The name of the span is `a…b`, with a line separator between the letters. -/
def separatedSpan : Span where
  traceId := "t"
  spanId := "s"
  name := "a\u2028b"
  kind := .audit
  startTime := "2026-01-01"
  status := .ok
  extra_names := Span.extra_names_nil

theorem strings_separatedSpan :
    (Json.obj separatedSpan.modelDump).strings =
      ["trace_id", "t", "span_id", "s", "parent_span_id", "name", "a\u2028b", "kind", "audit",
        "start_time", "2026-01-01", "end_time", "status", "ok", "attributes"] := rfl

theorem not_unseparated_separatedSpan : ¬ Unseparated (.obj separatedSpan.modelDump) := by
  intro hclean
  have hname : "a\u2028b" ∈ (Json.obj separatedSpan.modelDump).strings := by
    rw [strings_separatedSpan]
    decide
  exact absurd (hclean "a\u2028b" hname '\u2028' (by decide)) (by decide)

def separatedText : List Char :=
  "\x7b\"trace_id\":\"t\",\"span_id\":\"s\",\"parent_span_id\":null,".toList ++
    "\"name\":\"a\u2028b\",\"kind\":\"audit\",\"start_time\":\"2026-01-01\",".toList ++
    "\"end_time\":null,\"status\":\"ok\",\"attributes\":\x7b\x7d\x7d".toList

theorem lex_separatedText :
    lex (.outside []) separatedText =
      [.mark '\x7b', .str "trace_id", .mark ':', .str "t", .mark ',', .str "span_id", .mark ':',
        .str "s", .mark ',', .str "parent_span_id", .mark ':', .word "null".toList, .mark ',',
        .str "name", .mark ':', .str "a\u2028b", .mark ',', .str "kind", .mark ':', .str "audit",
        .mark ',', .str "start_time", .mark ':', .str "2026-01-01", .mark ',', .str "end_time",
        .mark ':', .word "null".toList, .mark ',', .str "status", .mark ':', .str "ok", .mark ',',
        .str "attributes", .mark ':', .mark '\x7b', .mark '\x7d', .mark '\x7d'] := by
  decide +kernel

theorem decode_separatedText :
    decode timedReading distinctHook separatedText =
      .ok (.obj (Json.dumpedEntries separatedSpan.modelDump)) := by
  simp only [decode, lex_separatedText]
  rfl

theorem separatedText_one_line : '\n' ∉ separatedText ∧ '\r' ∉ separatedText := by decide

theorem separator_mem_separatedText : '\u2028' ∈ separatedText := by decide

theorem separator_of_separatedSpan :
    ∀ s ∈ (Json.obj (Json.dumpedEntries separatedSpan.modelDump)).strings, ∀ c ∈ s.toList,
      0x80 ≤ c.toNat → c = '\u2028' := by
  have hstrings : (Json.obj (Json.dumpedEntries separatedSpan.modelDump)).strings =
      (Json.obj separatedSpan.modelDump).strings := Json.stringsOfEntries_dumped _
  rw [hstrings, strings_separatedSpan]
  exact eq_of_beyond_ascii (by decide)

def separatedEntry : SpanEntry timedReading where
  span := separatedSpan
  dump :=
    { object := Json.dumpedEntries separatedSpan.modelDump
      text := separatedText
      serialises := ⟨4300, 200, decode_separatedText⟩
      no_newline := separatedText_one_line.1
      no_return := separatedText_one_line.2
      unescaped := fun s hs c hc hbeyond =>
        separator_of_separatedSpan s hs c hc hbeyond ▸ separator_mem_separatedText }
  dump_object := rfl

def lintTiming : HookTiming where
  eventType := "StageCompleted"
  hookName := "lint"
  status := "ok"
  durationMs := 2
  recordedAt := "2026-01-01"

def lintText : List Char :=
  "\x7b\"event_type\":\"StageCompleted\",\"hook_name\":\"lint\",\"status\":\"ok\",".toList ++
    "\"duration_ms\":2.0,\"recorded_at\":\"2026-01-01\"\x7d".toList

theorem lex_lintText :
    lex (.outside []) lintText =
      [.mark '\x7b', .str "event_type", .mark ':', .str "StageCompleted", .mark ',',
        .str "hook_name", .mark ':', .str "lint", .mark ',', .str "status", .mark ':', .str "ok",
        .mark ',', .str "duration_ms", .mark ':', .word "2.0".toList, .mark ',',
        .str "recorded_at", .mark ':', .str "2026-01-01", .mark '\x7d'] := by
  decide +kernel

theorem decode_lintText :
    decode timedReading distinctHook lintText = .ok (.obj lintTiming.modelDump) := by
  simp only [decode, lex_lintText]
  rfl

theorem lintText_one_line : '\n' ∉ lintText ∧ '\r' ∉ lintText := by decide

theorem ascii_of_lintTiming :
    (Json.obj lintTiming.modelDump).strings.all fun s => s.toList.all fun c => c.toNat < 0x80 := by
  decide

def lintEntry : TimingEntry timedReading where
  timing := lintTiming
  dump :=
    { object := lintTiming.modelDump
      text := lintText
      serialises := ⟨4300, 200, decode_lintText⟩
      no_newline := lintText_one_line.1
      no_return := lintText_one_line.2
      unescaped := fun s hs c hc hbeyond => absurd
        (List.all_eq_true.mp (List.all_eq_true.mp ascii_of_lintTiming s hs) c hc)
        (by simpa using hbeyond) }
  dump_object := rfl

/-- A batch without a timing between two others. -/
def lintBatches : List (List (TimingEntry timedReading)) := [[lintEntry], [], [lintEntry]]

theorem logs_roundTrip_separatedEntry :
    readAll timedReading (write [separatedEntry]) ≠ [separatedSpan] ∧
    HookTimingLog.readAll timedReading "" (fun _ => none)
      (run HookTimingLog.append none lintBatches) = [lintTiming, lintTiming] := by
  obtain ⟨hspans, htimings⟩ :=
    logs_roundTrip_iff "" (fun _ => none) (by decide) [separatedEntry] lintBatches
  refine ⟨fun hread => ?_, htimings.mpr ?_⟩
  · have hclean := (hspans.mp hread separatedEntry (List.mem_singleton_self _)).1
    exact not_unseparated_separatedSpan hclean
  · intro entry hentry
    have hsame : entry = lintEntry := by simpa [lintBatches] using hentry
    rw [hsame]
    exact unseparated_of_ascii ascii_of_lintTiming

/-- A span whose name has a line separator is lost without a word. -/
theorem not_logs_roundTrip :
    ¬ ∀ (reading : Reading) (recordedAt : String) (coerce : Json → Option ℚ)
        (spans : List (SpanEntry reading)) (batches : List (List (TimingEntry reading))),
      0 < reading.maxDepth → (∀ entry ∈ spans, entry.span.allFinite = true) →
      readAll reading (write spans) = spans.map SpanEntry.span ∧
        HookTimingLog.readAll reading recordedAt coerce (run HookTimingLog.append none batches) =
          batches.flatten.map TimingEntry.timing := by
  intro h
  have hread := (h timedReading "" (fun _ => none) [separatedEntry] [] (by decide)
    (List.forall_mem_singleton.mpr (by decide))).1
  exact not_unseparated_separatedSpan ((readAll_write_iff [separatedEntry]).mp hread
    separatedEntry (List.mem_singleton_self _)).1

end SpanSink

end ForgeOS
