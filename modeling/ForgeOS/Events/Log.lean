import ForgeOS.Events.Model
import ForgeOS.JsonLines
import ForgeOS.Library.Effect
import Mathlib.Data.List.Induction

/-!
The log of lifecycle events, `.forge/events.jsonl`. An event is appended as
`json.dumps` writes the dump of its model, in printable ASCII; the reader has
every line validated that is not blank, and raises at the first one that is no
event. The limits of the writer are not those of the reader.
-/

namespace ForgeOS

open Library

def EventType.all : List EventType :=
  [.sessionStart, .userPromptSubmit, .stageStarted, .stageCompleted, .stageBlocked,
    .stageOverride, .gateStarted, .gateCompleted, .stop, .subagentStop, .sessionEnd,
    .artifactChanged, .hookStarted, .hookCompleted, .hookFailed, .hookTimedOut,
    .backtrackTicketCreated, .backtrackTicketApproved, .backtrackReworkStarted,
    .backtrackReworkCompleted, .securityActionAudited, .acpRegistryDiscovered,
    .acpAgentInstalled, .acpSessionStarted, .acpSessionClosed, .externalCommandGateEvaluated,
    .metricThresholdGateEvaluated, .stateSaved, .tokenBudgetExceeded]

def EventType.ofValue? (value : String) : Option EventType :=
  all.find? fun eventType => eventType.value = value

@[simp]
theorem EventType.ofValue?_value (eventType : EventType) :
    ofValue? eventType.value = some eventType := by
  cases eventType <;> decide +kernel

def actorFields : List String := ["type", "id"]

def eventFields : List String :=
  ["schema_version", "event_id", "correlation_id", "event_type", "timestamp", "session_id",
    "stage_id", "actor", "payload", "redactions"]

/-- An event with the members of other names that it and its actor may have. -/
structure EventRecord extends LifecycleEvent where
  actorExtra : JsonObject := []
  extra : JsonObject := []
  actorExtra_names : ∀ entry ∈ actorExtra, entry.1 ∉ actorFields
  extra_names : ∀ entry ∈ extra, entry.1 ∉ eventFields

/-- What the default factories give for the fields of an event that has none. -/
structure EventDefaults where
  eventId : String
  timestamp : String

namespace EventRecord

/-- `event.actor.model_dump()` -/
def actorDump (event : EventRecord) : JsonObject :=
  [("type", .str event.actor.type), ("id", .str event.actor.id)] ++ event.actorExtra

def modelDump (event : EventRecord) : JsonObject :=
  [("schema_version", .str event.schemaVersion), ("event_id", .str event.eventId),
    ("correlation_id", .optional event.correlationId),
    ("event_type", .str event.eventType.value), ("timestamp", .str event.timestamp),
    ("session_id", .optional event.sessionId), ("stage_id", .optional event.stageId),
    ("actor", .obj event.actorDump), ("payload", .obj event.payload),
    ("redactions", .arr (event.redactions.map .str))] ++ event.extra

/-- The validation of the model. -/
def validate (defaults : EventDefaults) (obj : JsonObject) : Option EventRecord := do
  let schemaVersion ← strFieldOr obj "schema_version" "0.1"
  let eventId ← strFieldOr obj "event_id" defaults.eventId
  let correlationId ← optionalStrField obj "correlation_id"
  let eventType ← EventType.ofValue? (← strField obj "event_type")
  let timestamp ← strFieldOr obj "timestamp" defaults.timestamp
  let sessionId ← optionalStrField obj "session_id"
  let stageId ← optionalStrField obj "stage_id"
  match Dict.get? obj "actor" with
  | some (.obj actor) =>
      let type ← strField actor "type"
      let id ← strField actor "id"
      let payload ← mappingField obj "payload"
      let redactions ← strListField obj "redactions"
      return {
        schemaVersion, eventId, correlationId, eventType, timestamp, sessionId, stageId
        actor := { type, id }
        payload, redactions
        actorExtra := actor.filter fun entry => entry.1 ∉ actorFields
        extra := obj.filter fun entry => entry.1 ∉ eventFields
        actorExtra_names := fun _ hentry => of_decide_eq_true (List.mem_filter.mp hentry).2
        extra_names := fun _ hentry => of_decide_eq_true (List.mem_filter.mp hentry).2 }
  | _ => none

/-- What is no field of a dump is beside the fields. -/
theorem filter_modelDump (event : EventRecord) :
    (event.modelDump.filter fun entry => entry.1 ∉ eventFields) = event.extra := by
  rw [modelDump, List.filter_append]
  have hextra : (event.extra.filter fun entry => entry.1 ∉ eventFields) = event.extra :=
    List.filter_eq_self.mpr fun entry hentry => decide_eq_true (event.extra_names entry hentry)
  rw [hextra]
  rfl

theorem filter_actorDump (event : EventRecord) :
    (event.actorDump.filter fun entry => entry.1 ∉ actorFields) = event.actorExtra := by
  rw [actorDump, List.filter_append]
  have hextra : (event.actorExtra.filter fun entry => entry.1 ∉ actorFields) =
      event.actorExtra :=
    List.filter_eq_self.mpr fun entry hentry =>
      decide_eq_true (event.actorExtra_names entry hentry)
  rw [hextra]
  rfl

/-- An event passes its own check. -/
theorem validate_modelDump (defaults : EventDefaults) (event : EventRecord) :
    validate defaults event.modelDump = some event := by
  have hversion : strFieldOr event.modelDump "schema_version" "0.1" = some event.schemaVersion :=
    rfl
  have hid : strFieldOr event.modelDump "event_id" defaults.eventId = some event.eventId := rfl
  have hcorrelation : optionalStrField event.modelDump "correlation_id" =
      some event.correlationId := optionalStrField_optional rfl
  have htype : strField event.modelDump "event_type" = some event.eventType.value := rfl
  have htimestamp : strFieldOr event.modelDump "timestamp" defaults.timestamp =
      some event.timestamp := rfl
  have hsession : optionalStrField event.modelDump "session_id" = some event.sessionId :=
    optionalStrField_optional rfl
  have hstage : optionalStrField event.modelDump "stage_id" = some event.stageId :=
    optionalStrField_optional rfl
  have hactor : Dict.get? event.modelDump "actor" = some (.obj event.actorDump) := rfl
  have hactorType : strField event.actorDump "type" = some event.actor.type := rfl
  have hactorId : strField event.actorDump "id" = some event.actor.id := rfl
  have hpayload : mappingField event.modelDump "payload" = some event.payload := rfl
  have hredactions : strListField event.modelDump "redactions" = some event.redactions :=
    mapM_str?_map event.redactions
  have hextra := filter_modelDump event
  have hactorExtra := filter_actorDump event
  unfold validate
  simp only [hversion, hid, hcorrelation, htype, htimestamp, hsession, hstage, hactor,
    hactorType, hactorId, hpayload, hredactions, hextra, hactorExtra, Option.bind_eq_bind,
    Option.bind_some, EventType.ofValue?_value, Option.pure_def]

end EventRecord

namespace EventLog

open ClaudeCode JsonLines JsonText

/-- A JSON text of an object, in printable ASCII. -/
structure AsciiDump (reading : Reading) where
  object : JsonObject
  text : List Char
  serialises : ∃ maxDigits maxDepth,
    decode ⟨reading.toFloat, maxDigits, maxDepth, reading.countsEmpty⟩ distinctHook text =
      .ok (.obj object)
  printable : ∀ c ∈ text, 0x20 ≤ c.toNat ∧ c.toNat ≤ 0x7e

/-- An `append_event` call: the event with what `json.dumps` makes of its dump,
which is none if one of the two raises. -/
structure AppendCall (reading : Reading) where
  event : EventRecord
  dump : Option (AsciiDump reading)
  dump_object : ∀ made ∈ dump, made.object = event.modelDump

/-- The record of the log that is read back for a call, if its event was written. -/
def AppendCall.logged {reading : Reading} (call : AppendCall reading) : Option EventRecord :=
  call.dump.map fun _ => call.event

/-- What a call adds to the file. -/
def AppendCall.written {reading : Reading} (call : AppendCall reading) : List Char :=
  match call.dump with
  | some made => made.text ++ ['\n']
  | none => []

/-- The log after a call. It is opened before the event is dumped, so that it
exists even if that raises. -/
def append {reading : Reading} (file : Option (List Char)) (call : AppendCall reading) :
    Option (List Char) :=
  some (file.getD [] ++ call.written)

section Reading

variable (reading : Reading) (defaults : Nat → EventDefaults) (path : String)

/-- The loop of `read_events`, from a line on. -/
def readLines (lineNumber : Nat) : List (List Char) → Except String (List EventRecord)
  | [] => .ok []
  | line :: rest =>
      if stripLine line = [] then readLines (lineNumber + 1) rest
      else
        match modelValidateJson reading (EventRecord.validate (defaults lineNumber)) line with
        | none => .error s!"Invalid event log line {lineNumber} in {path}"
        | some event =>
            match readLines (lineNumber + 1) rest with
            | .error message => .error message
            | .ok events => .ok (event :: events)

/-- The events of the log, if there is one. -/
def readEvents : Option (List Char) → Except String (List EventRecord)
  | none => .ok []
  | some content => readLines reading defaults path 1 (fileLines content)

end Reading

/-! ### The lines of the log -/

variable {reading : Reading}

theorem AsciiDump.no_break (dump : AsciiDump reading) :
    ∀ c ∈ dump.text, isLineBreak c = false := by
  intro c hc
  obtain ⟨hlow, hhigh⟩ := dump.printable c hc
  rw [← Bool.not_eq_true]
  intro hbreak
  simp only [isLineBreak, Bool.or_eq_true, decide_eq_true_eq] at hbreak
  rcases hbreak with (((((((((rfl | rfl) | rfl) | rfl) | rfl) | rfl) | rfl) | rfl) | rfl) | rfl)
  all_goals revert hlow hhigh; decide

/-- Printable text is on one line. -/
def AsciiDump.framed (dump : AsciiDump reading) : FramedRecord reading where
  object := dump.object
  text := dump.text
  serialises := dump.serialises
  no_newline := fun hc => absurd (dump.no_break _ hc) (by decide)
  no_return := fun hc => absurd (dump.no_break _ hc) (by decide)

/-- The dumps that some calls have written. -/
def dumps (calls : List (AppendCall reading)) : List (AsciiDump reading) :=
  calls.filterMap AppendCall.dump

theorem dumps_of_none {call : AppendCall reading} (h : call.dump = none)
    (rest : List (AppendCall reading)) : dumps (call :: rest) = dumps rest :=
  List.filterMap_cons_none h

theorem dumps_of_some {call : AppendCall reading} {made : AsciiDump reading}
    (h : call.dump = some made) (rest : List (AppendCall reading)) :
    dumps (call :: rest) = made :: dumps rest :=
  List.filterMap_cons_some h

theorem flatMap_written (calls : List (AppendCall reading)) :
    calls.flatMap AppendCall.written = framed ((dumps calls).map AsciiDump.framed) := by
  induction calls with
  | nil => rfl
  | cons call rest ih =>
      rw [List.flatMap_cons, ih, AppendCall.written]
      cases hdump : call.dump with
      | none =>
          rw [dumps_of_none hdump]
          rfl
      | some made =>
          rw [dumps_of_some hdump]
          rfl

/-- The log is that of the calls so far. -/
theorem run_append (calls : List (AppendCall reading)) :
    (run append none calls).getD [] = calls.flatMap AppendCall.written := by
  induction calls using List.reverseRecOn with
  | nil => rfl
  | append_singleton earlier call ih =>
      rw [run_snoc, append, Option.getD_some, ih, List.flatMap_append, List.flatMap_singleton]

/-- A dump is one line of the log. -/
theorem fileLines_written (calls : List (AppendCall reading)) :
    fileLines (calls.flatMap AppendCall.written) = (dumps calls).map AsciiDump.text := by
  have hreturn : '\r' ∉ framed ((dumps calls).map AsciiDump.framed) := by
    intro h
    obtain ⟨record, -, hmem⟩ := List.mem_flatMap.mp h
    rcases List.mem_append.mp hmem with hmem | hmem
    · exact record.no_return hmem
    · cases List.mem_singleton.mp hmem
  rw [flatMap_written, fileLines, universalNewlines_of_no_return hreturn, splitLines_framed,
    List.flatMap_map, List.map_eq_flatMap]
  exact List.flatMap_congr fun dump _ => pieces_of_no_break dump.no_break []

/-! ### What is read of it -/

variable (defaults : Nat → EventDefaults) (path : String)

/-- No log is read like an empty one. -/
theorem readEvents_getD (file : Option (List Char)) :
    readEvents reading defaults path file =
      readLines reading defaults path 1 (fileLines (file.getD [])) := by
  cases file with
  | none => rfl
  | some content => rfl

/-- The line of a call is no event exactly if it goes beyond the limits of the
reader. -/
theorem modelValidateJson_dump (call : AppendCall reading) (made : AsciiDump reading)
    (hmade : call.dump = some made) (lineNumber : Nat) :
    stripLine made.text ≠ [] ∧
      modelValidateJson reading (EventRecord.validate (defaults lineNumber)) made.text =
        if Fits reading made.text (.obj made.object) then some call.event else none := by
  refine ⟨made.framed.stripLine_ne_nil, ?_⟩
  have hobject := call.dump_object made (Option.mem_def.mpr hmade)
  have hloads : loads reading made.text =
      if Fits reading made.text (.obj made.object) then .ok (.obj made.object)
      else .error .refused := made.framed.loads_text
  unfold modelValidateJson
  rw [hloads]
  split
  · rename_i obj hread
    split at hread
    · rename_i hfits
      obtain rfl := Json.obj.inj (Except.ok.inj hread)
      rw [if_pos hfits, hobject, EventRecord.validate_modelDump]
    · cases hread
  · rename_i hread
    rw [if_neg]
    intro hfits
    rw [if_pos hfits] at hread
    exact hread _ rfl

/-- The lines of some calls are read exactly if all are within the limits, and
then the events are those that were written. -/
theorem readLines_dumps_iff (calls : List (AppendCall reading)) (events : List EventRecord)
    (lineNumber : Nat) :
    readLines reading defaults path lineNumber ((dumps calls).map AsciiDump.text) = .ok events ↔
      (∀ made ∈ dumps calls, Fits reading made.text (.obj made.object)) ∧
        events = calls.filterMap AppendCall.logged := by
  induction calls generalizing lineNumber events with
  | nil =>
      change Except.ok [] = Except.ok events ↔ _
      simp [dumps, eq_comm]
  | cons call rest ih =>
      cases hdump : call.dump with
      | none =>
          have hlogged : call.logged = none := by rw [AppendCall.logged, hdump]; rfl
          rw [dumps_of_none hdump, ih, List.filterMap_cons_none hlogged]
      | some made =>
          have hlogged : call.logged = some call.event := by rw [AppendCall.logged, hdump]; rfl
          obtain ⟨hblank, hvalid⟩ := modelValidateJson_dump defaults call made hdump lineNumber
          rw [dumps_of_some hdump, List.map_cons, readLines, if_neg hblank, hvalid,
            List.filterMap_cons_some hlogged, List.forall_mem_cons]
          by_cases hfits : Fits reading made.text (.obj made.object)
          · rw [if_pos hfits]
            dsimp only
            cases hrest : readLines reading defaults path (lineNumber + 1)
                ((dumps rest).map AsciiDump.text) with
            | error message =>
                have hnone := (ih (rest.filterMap AppendCall.logged) (lineNumber + 1)).not.mp
                  (by rw [hrest]; exact nofun)
                refine iff_of_false nofun fun h => hnone ⟨h.1.2, rfl⟩
            | ok others =>
                obtain ⟨hothers, rfl⟩ := (ih others (lineNumber + 1)).mp hrest
                rw [Except.ok.injEq, eq_comm]
                exact (and_iff_right ⟨hfits, hothers⟩).symm
          · rw [if_neg hfits]
            exact iff_of_false nofun fun h => hfits h.1.1

/-- The event was written, within the limits of the reader. -/
def AppendCall.Readable (call : AppendCall reading) : Prop :=
  ∃ made ∈ call.dump, Fits reading made.text (.obj made.object)

/-- The events of some calls come back, in order, exactly if each could be dumped
to a text within the limits of the reader. An event that is nested deeper is
written all the same, and no event of the log is read from then on. -/
theorem readEvents_append_iff (calls : List (AppendCall reading)) :
    readEvents reading defaults path (run append none calls) =
        .ok (calls.map AppendCall.event) ↔
      ∀ call ∈ calls, call.Readable := by
  rw [readEvents_getD, run_append, fileLines_written, readLines_dumps_iff]
  constructor
  · rintro ⟨hfits, hevents⟩ call hcall
    have hsame := congrArg List.length hevents
    rw [List.length_map, eq_comm, List.filterMap_length_eq_length] at hsame
    have hwritten := hsame call hcall
    rw [AppendCall.logged, Option.isSome_map] at hwritten
    obtain ⟨made, hmade⟩ := Option.isSome_iff_exists.mp hwritten
    exact ⟨made, hmade, hfits made (List.mem_filterMap.mpr ⟨call, hcall, hmade⟩)⟩
  · intro hreadable
    constructor
    · intro made hmade
      obtain ⟨call, hcall, hdump⟩ := List.mem_filterMap.mp hmade
      obtain ⟨other, hother, hfits⟩ := hreadable call hcall
      obtain rfl := Option.mem_unique hdump hother
      exact hfits
    · symm
      rw [List.filterMap_eq_map_iff_forall_eq_some]
      intro call hcall
      obtain ⟨made, hmade, -⟩ := hreadable call hcall
      rw [AppendCall.logged, Option.mem_def.mp hmade, Option.map_some]

/-- Lists in one another. -/
def nestedLists : Nat → Json
  | 0 => .arr []
  | n + 1 => .arr [nestedLists n]

theorem parseValue_nestedLists (reading : Reading) (hook : PairsHook) (n fuel depth : Nat)
    (rest : List JsonToken) :
    parseValue reading hook (fuel + (2 * n + 1)) (depth + (n + 1))
      (List.replicate (n + 1) (.mark '[') ++ (List.replicate (n + 1) (.mark ']') ++ rest)) =
        .ok (nestedLists n, rest) := by
  induction n generalizing rest with
  | zero => exact parseValue_emptyList
  | succ n ih =>
      have hend : List.replicate (n + 2) (JsonToken.mark ']') ++ rest =
          List.replicate (n + 1) (.mark ']') ++ .mark ']' :: rest := by
        rw [List.replicate_succ', List.append_assoc, List.singleton_append]
      have hitems : parseItems reading hook (fuel + (2 * n + 1) + 1) (depth + (n + 1))
          (List.replicate (n + 1) (.mark '[') ++
            (List.replicate (n + 1) (.mark ']') ++ .mark ']' :: rest)) =
          .ok ([nestedLists n], rest) := by
        rw [parseItems, ih]
        rfl
      have hlist := @parseValue_list reading hook (fuel + (2 * n + 1) + 1) (depth + (n + 1))
        (List.replicate (n + 1) (.mark '[') ++ (List.replicate (n + 2) (.mark ']') ++ rest))
        (by rw [List.replicate_succ]; simp)
      rw [hend, hitems] at hlist
      rw [hend]
      exact hlist

/-- Brackets are tokens of their own. -/
theorem lex_replicate {c : Char} (h : (LexMode.outside []).step c = some ([.mark c], .outside []))
    (n : Nat) (rest : List Char) :
    lex (.outside []) (List.replicate n c ++ rest) =
      List.replicate n (.mark c) ++ lex (.outside []) rest := by
  induction n with
  | zero => rfl
  | succ n ih =>
      rw [List.replicate_succ, List.cons_append, lex, h]
      change .mark c :: lex (.outside []) (List.replicate n c ++ rest) = _
      rw [ih]
      rfl

/-- Its payload is nested deeper than the reader goes, though not too deep for
the writer. -/
def nestedEvent : EventRecord where
  eventId := "evt-1"
  eventType := .sessionStart
  timestamp := "2026-01-01T00:00:00Z"
  actor := { type := "core", id := "forge-os" }
  payload := [("data", nestedLists 219)]
  actorExtra_names := by simp
  extra_names := by simp

/-- The text of that event before the lists, -/
def nestedFront : List Char :=
  "\x7b\"schema_version\": \"0.1\", \"event_id\": \"evt-1\", ".toList ++
    "\"correlation_id\": null, \"event_type\": \"SessionStart\", ".toList ++
    "\"timestamp\": \"2026-01-01T00:00:00Z\", \"session_id\": null, ".toList ++
    "\"stage_id\": null, \"actor\": \x7b\"type\": \"core\", \"id\": \"forge-os\"\x7d, ".toList ++
    "\"payload\": \x7b\"data\": ".toList

/-- and behind them. -/
def nestedBack : List Char := "\x7d, \"redactions\": []\x7d".toList

def nestedText : List Char :=
  nestedFront ++ (List.replicate 220 '[' ++ (List.replicate 220 ']' ++ nestedBack))

def frontTokens : List JsonToken :=
  [.mark '\x7b', .str "schema_version", .mark ':', .str "0.1", .mark ',', .str "event_id",
    .mark ':', .str "evt-1", .mark ',', .str "correlation_id", .mark ':', .word "null".toList,
    .mark ',', .str "event_type", .mark ':', .str "SessionStart", .mark ',', .str "timestamp",
    .mark ':', .str "2026-01-01T00:00:00Z", .mark ',', .str "session_id", .mark ':',
    .word "null".toList, .mark ',', .str "stage_id", .mark ':', .word "null".toList, .mark ',',
    .str "actor", .mark ':', .mark '\x7b', .str "type", .mark ':', .str "core", .mark ',',
    .str "id", .mark ':', .str "forge-os", .mark '\x7d', .mark ',', .str "payload", .mark ':',
    .mark '\x7b', .str "data", .mark ':']

def backTokens : List JsonToken :=
  [.mark '\x7d', .mark ',', .str "redactions", .mark ':', .mark '[', .mark ']', .mark '\x7d']

theorem lex_nestedText :
    lex (.outside []) nestedText = frontTokens ++
      ((List.replicate 220 (.mark '[') ++ List.replicate 220 (.mark ']')) ++ backTokens) := by
  have hfront : (LexMode.outside []).run nestedFront = some (frontTokens, .outside []) := by
    decide +kernel
  have hback : lex (.outside []) nestedBack = backTokens := by decide +kernel
  rw [nestedText, lex_append hfront, lex_replicate rfl, lex_replicate rfl, hback,
    List.append_assoc]

theorem parseValue_around (reading : Reading) (fuel depth : Nat) {inner : List JsonToken}
    {data : Json} (h : parseValue reading distinctHook (fuel + 3) depth (inner ++ backTokens) =
      .ok (data, backTokens)) :
    parseValue reading distinctHook (fuel + 15) (depth + 2)
      (frontTokens ++ (inner ++ backTokens)) =
        .ok (.obj { nestedEvent with payload := [("data", data)] }.modelDump, []) := by
  have hpayload : parseValue reading distinctHook (fuel + 5) (depth + 1)
      (.mark '\x7b' :: .str "data" :: .mark ':' :: (inner ++ backTokens)) =
        .ok (.obj [("data", data)], backTokens.tail) := by
    rw [parseValue_object (by simp), parseMembers_last h]
    rfl
  have hmembers : parseMembers reading distinctHook (fuel + 14) (depth + 1)
      (frontTokens ++ (inner ++ backTokens)).tail =
        .ok ({ nestedEvent with payload := [("data", data)] }.modelDump, []) := by
    iterate 8 refine parseMembers_more rfl ?_
    exact parseMembers_more hpayload (parseMembers_last parseValue_emptyList)
  have hobject := @parseValue_object reading distinctHook (fuel + 14) (depth + 1)
    (frontTokens ++ (inner ++ backTokens)).tail nofun
  rw [hmembers] at hobject
  exact hobject

theorem decode_nestedText :
    decode ⟨demoReading.toFloat, 4300, 255, false⟩ distinctHook nestedText =
      .ok (.obj nestedEvent.modelDump) := by
  have hlists := parseValue_nestedLists ⟨demoReading.toFloat, 4300, 255, false⟩ distinctHook 219
    1031 33 backTokens
  rw [← List.append_assoc] at hlists
  refine decode_of_parseValue lex_nestedText ?_
  rw [List.length_append, List.length_append, List.length_append, List.length_replicate,
    List.length_replicate]
  exact parseValue_around ⟨demoReading.toFloat, 4300, 255, false⟩ 1467 253 hlists

theorem nestedText_printable : ∀ c ∈ nestedText, 0x20 ≤ c.toNat ∧ c.toNat ≤ 0x7e := by
  have hall {text : List Char}
      (h : text.all (fun c => decide (0x20 ≤ c.toNat ∧ c.toNat ≤ 0x7e)) = true) :
      ∀ c ∈ text, 0x20 ≤ c.toNat ∧ c.toNat ≤ 0x7e := fun c hc =>
    of_decide_eq_true (List.all_eq_true.mp h c hc)
  have hreplicate (c : Char) (hc : 0x20 ≤ c.toNat ∧ c.toNat ≤ 0x7e) :
      ∀ d ∈ List.replicate 220 c, 0x20 ≤ d.toNat ∧ d.toNat ≤ 0x7e := fun d hd =>
    List.eq_of_mem_replicate hd ▸ hc
  have hfront : ∀ c ∈ nestedFront, 0x20 ≤ c.toNat ∧ c.toNat ≤ 0x7e := hall (by decide +kernel)
  have hback : ∀ c ∈ nestedBack, 0x20 ≤ c.toNat ∧ c.toNat ≤ 0x7e := hall (by decide +kernel)
  simp only [nestedText, List.forall_mem_append]
  exact ⟨hfront, hreplicate '[' (by decide), hreplicate ']' (by decide), hback⟩

/-- The call that appends that event. -/
def nestedCall : AppendCall demoReading where
  event := nestedEvent
  dump := some {
    object := nestedEvent.modelDump
    text := nestedText
    serialises := ⟨4300, 255, decode_nestedText⟩
    printable := nestedText_printable }
  dump_object := by simp

/-- An event that is written need not be readable. -/
theorem not_readEvents_append :
    ¬ ∀ (reading : Reading) (defaults : Nat → EventDefaults) (path : String)
        (calls : List (AppendCall reading)), (∀ call ∈ calls, call.dump.isSome = true) →
      readEvents reading defaults path (run append none calls) =
        .ok (calls.map AppendCall.event) := by
  intro h
  have hread := h demoReading (fun _ => ⟨"evt-0", ""⟩) ".forge/events.jsonl" [nestedCall]
    (List.forall_mem_singleton.mpr rfl)
  obtain ⟨made, hmade, hdepth, -⟩ :=
    (readEvents_append_iff _ _ _).mp hread nestedCall (List.mem_singleton_self _)
  obtain rfl := Option.some.inj hmade
  revert hdepth
  decide +kernel

end EventLog

end ForgeOS
