import ForgeOS.Cost.Report

/-!
What makes the reading of the recorded spend raise. Both cost modules skip a
payload that is no JSON object and a field that is no number; what is left to
raise are the numbers that do not convert, and the texts that `json.loads`
refuses with another error than its own.
-/

namespace ForgeOS

open Library

/-- A row whose payload column can be fetched. -/
structure SpendRow where
  eventType : String
  event : SpendEvent

/-- A store that can be read. -/
def EventsDb.ofRows (rows : List SpendRow) : EventsDb :=
  .rows (rows.map fun row => ⟨row.event.streamId, row.eventType, some row.event.payload⟩)

/-- The rows of one type, in their order. -/
def eventsOf (eventType : String) (rows : List SpendRow) : List SpendEvent :=
  (rows.filter fun row => row.eventType = eventType).map SpendRow.event

theorem EventsDb.readByType_ofRows (rows : List SpendRow) (eventType : String) :
    (ofRows rows).readByType eventType = .ok (eventsOf eventType rows) := by
  unfold ofRows readByType eventsOf
  dsimp only
  rw [List.filter_map]
  dsimp only [Function.comp_def]
  induction rows.filter fun row => row.eventType = eventType with
  | nil => rfl
  | cons row rest ih =>
      rw [List.map_cons, List.mapM_cons, ih]
      rfl

/-- `int(value)` of a number is no error unless it is NaN or infinite. -/
def Json.Counts : Json → Prop
  | .float value => value.isFinite = true
  | _ => True

/-- `float(value)` of a number is no error unless it is an integer that no
float reaches. -/
def Json.Prices : Json → Prop
  | .int value => value.natAbs < floatLimit
  | _ => True

theorem asFloat_eq_ok_iff (rnd : Rounding) (value : Json) :
    (∃ number, value.asFloat rnd = .ok number) ↔ value.Prices := by
  cases value with
  | int value =>
      change (∃ number, (floatOfInt rnd value).map some = .ok number) ↔ value.natAbs < floatLimit
      unfold floatOfInt
      by_cases hlimit : value.natAbs < floatLimit
      · rw [if_pos hlimit]
        exact iff_of_true ⟨_, rfl⟩ hlimit
      · rw [if_neg hlimit]
        refine iff_of_false ?_ hlimit
        rintro ⟨number, h⟩
        cases h
  | float value => exact iff_of_true ⟨some value, rfl⟩ trivial
  | null => exact iff_of_true ⟨none, rfl⟩ trivial
  | bool value => exact iff_of_true ⟨none, rfl⟩ trivial
  | str value => exact iff_of_true ⟨none, rfl⟩ trivial
  | arr items => exact iff_of_true ⟨none, rfl⟩ trivial
  | obj entries => exact iff_of_true ⟨none, rfl⟩ trivial

theorem asInt_eq_ok_iff (value : Json) :
    (∃ number, CostUseCases.asInt value = .ok number) ↔ value.Counts := by
  cases value with
  | float value =>
      cases value with
      | finite value => exact iff_of_true ⟨_, rfl⟩ rfl
      | nan =>
          refine iff_of_false ?_ Bool.false_ne_true
          rintro ⟨number, h⟩
          cases h
      | inf negative =>
          refine iff_of_false ?_ Bool.false_ne_true
          rintro ⟨number, h⟩
          cases h
  | int value => exact iff_of_true ⟨value, rfl⟩ trivial
  | null => exact iff_of_true ⟨0, rfl⟩ trivial
  | bool value => exact iff_of_true ⟨0, rfl⟩ trivial
  | str value => exact iff_of_true ⟨0, rfl⟩ trivial
  | arr items => exact iff_of_true ⟨0, rfl⟩ trivial
  | obj entries => exact iff_of_true ⟨0, rfl⟩ trivial

/-- `json.loads` decodes the payload, or rejects it with its own error. -/
def SpendEvent.Decodes (event : SpendEvent) : Prop := event.payload ≠ .refused

theorem decode_eq_ok_iff (event : SpendEvent) :
    (∃ decoded, event.decode = .ok decoded) ↔ event.Decodes := by
  unfold SpendEvent.decode SpendEvent.Decodes
  cases event.payload with
  | refused =>
      refine iff_of_false ?_ fun h => h rfl
      rintro ⟨decoded, h⟩
      cases h
  | notText => exact iff_of_true ⟨none, rfl⟩ fun h => by cases h
  | invalidJson => exact iff_of_true ⟨none, rfl⟩ fun h => by cases h
  | json value =>
      refine iff_of_true ?_ fun h => by cases h
      cases value with
      | obj entries => exact ⟨some entries, rfl⟩
      | _ => exact ⟨none, rfl⟩

/-- What the payload says, where it is an object. -/
def SpendEvent.Says (event : SpendEvent) (P : JsonObject → Prop) : Prop :=
  event.Decodes ∧ ∀ payload, event.decode = .ok (some payload) → P payload

/-- A loop's body that decodes the row first, and skips what is no object. -/
theorem decoded_eq_ok_iff {α : Type} {event : SpendEvent} {P : JsonObject → Prop}
    {skipped : Except SpendError α} (hskipped : ∃ value, skipped = .ok value)
    {read : JsonObject → Except SpendError α}
    (hread : ∀ payload, (∃ value, read payload = .ok value) ↔ P payload) :
    (∃ value, (do
      match ← event.decode with
      | none => skipped
      | some payload => read payload) = .ok value) ↔ event.Says P := by
  unfold SpendEvent.Says
  rw [← decode_eq_ok_iff]
  constructor
  · rintro ⟨value, h⟩
    obtain ⟨decoded, hdecoded, h⟩ := bind_eq_ok_iff.mp h
    refine ⟨⟨decoded, hdecoded⟩, ?_⟩
    intro payload hpayload
    obtain rfl := Except.ok.inj (hdecoded.symm.trans hpayload)
    exact (hread payload).mp ⟨value, h⟩
  · rintro ⟨⟨decoded, hdecoded⟩, hpayloads⟩
    rw [hdecoded]
    cases decoded with
    | none => exact hskipped
    | some payload => exact (hread payload).mpr (hpayloads payload hdecoded)

/-! ### The totals -/

namespace CostAggregator

theorem readCost_eq_ok_iff (rnd : Rounding) (event : SpendEvent) :
    (∃ cost, readCost rnd event = .ok cost) ↔
      event.Says fun payload => (recordedCost payload).Prices := by
  apply decoded_eq_ok_iff ⟨none, rfl⟩
  intro payload
  rw [← asFloat_eq_ok_iff rnd]
  constructor
  · rintro ⟨cost, h⟩
    obtain ⟨number, hnumber, -⟩ := bind_eq_ok_iff.mp h
    obtain ⟨read, hread, -⟩ := bind_eq_ok_iff.mp (mapError_eq_ok_iff.mp hnumber)
    exact ⟨read, hread⟩
  · rintro ⟨number, hnumber⟩
    unfold asCost
    rw [hnumber]
    exact ⟨_, rfl⟩

theorem totals_eq_ok_iff (rnd : Rounding) (rows : List SpendRow) :
    (∃ found, totals rnd (.ofRows rows) = .ok found) ↔
      ∀ event ∈ eventsOf completedType rows,
        event.Says fun payload => (recordedCost payload).Prices := by
  have hdb : EventsDb.ofRows rows ≠ .missing := fun h => by cases h
  rw [totals_of_read rnd hdb (EventsDb.readByType_ofRows rows completedType)]
  simp only [← readCost_eq_ok_iff rnd, ← mapM_eq_ok_iff]
  constructor
  · rintro ⟨found, h⟩
    obtain ⟨reads, hreads, -⟩ := bind_eq_ok_iff.mp h
    exact ⟨reads, hreads⟩
  · rintro ⟨reads, hreads⟩
    rw [hreads]
    exact ⟨_, rfl⟩

end CostAggregator

/-! ### The report -/

namespace CostUseCases

/-- What `report` raises, the refusal of a text by the report's own schema
included. -/
inductive ReportError where
  | spend (error : SpendError)
  | validation

/-- The filter lets a stage through. -/
def Wanted (stageFilter : Option String) (stage : String) : Prop :=
  stageFilter.all (fun wanted => stage = wanted) = true

/-- `payload.get("adapter")`, if it names one. -/
def adapterOf (payload : JsonObject) : Option String :=
  ((Dict.get? payload "adapter").bind Json.str?).filter fun name => name ≠ ""

/-- A token count of the payload. -/
def tokens (payload : JsonObject) (key : String) : Json :=
  (Dict.get? (subMapping (subMapping payload "metadata") "usage") key).getD .null

def CostReport.texts (report : CostReport) : List String :=
  report.stages.map StageCost.stageId ++ report.adapters

/-- The report as an instance of `CostReport`. Which texts the schema takes is
up to `accepts`. -/
def validatedReport (accepts : String → Bool) (db : EventsDb) (stageFilter : Option String) :
    Except ReportError CostReport := do
  let report ← (report db stageFilter).mapError .spend
  if report.texts.all accepts then return report else throw .validation

/-- The numbers of a completed spawn convert. -/
structure Convertible (payload : JsonObject) : Prop where
  inputTokens : (tokens payload "input_tokens").Counts
  outputTokens : (tokens payload "output_tokens").Counts
  cost : (recordedCost payload).Prices

/-- Its stage and its adapter are texts the schema takes. -/
structure Named (accepts : String → Bool) (stage : String) (payload : JsonObject) : Prop where
  stage : accepts stage = true
  adapter : ∀ name ∈ adapterOf payload, accepts name = true

theorem stageByRun_eq_ok_iff (started : List SpendEvent) :
    (∃ stages, stageByRun started = .ok stages) ↔ ∀ event ∈ started, event.Decodes := by
  unfold stageByRun
  generalize ([] : Dict String (Option String)) = stages
  induction started generalizing stages with
  | nil => exact iff_of_true ⟨stages, rfl⟩ (by simp)
  | cons event rest ih =>
      rw [List.foldlM_cons, List.forall_mem_cons, ← decode_eq_ok_iff]
      cases hdecode : event.decode with
      | error error =>
          refine iff_of_false ?_ ?_
          · rintro ⟨found, h⟩
            cases h
          · rintro ⟨⟨decoded, h⟩, -⟩
            cases h
      | ok decoded =>
          rw [and_iff_right ⟨decoded, rfl⟩]
          cases decoded with
          | none => exact ih stages
          | some payload => exact ih _

/-- The body of the loop, for a row that is counted. -/
theorem readSpawn_of_wanted {stages : Dict String (Option String)} {stageFilter : Option String}
    {event : SpendEvent} {payload : JsonObject} (hdecode : event.decode = .ok (some payload))
    (hwanted : Wanted stageFilter (stageOf stages event.streamId)) :
    readSpawn stages stageFilter event = do
      let inputTokens ← (asInt (tokens payload "input_tokens")).mapError .number
      let outputTokens ← (asInt (tokens payload "output_tokens")).mapError .number
      let cost ← (asCost (recordedCost payload)).mapError .number
      return some {
        stage := stageOf stages event.streamId
        adapter := adapterOf payload
        inputTokens := inputTokens
        outputTokens := outputTokens
        cost := cost } := by
  unfold Wanted at hwanted
  simp only [readSpawn, hdecode, hwanted, if_true]
  rfl

theorem readSpawn_eq_some {stages : Dict String (Option String)} {stageFilter : Option String}
    {event : SpendEvent} {spawn : Spawn}
    (h : readSpawn stages stageFilter event = .ok (some spawn)) :
    ∃ payload, event.decode = .ok (some payload) ∧
      Wanted stageFilter (stageOf stages event.streamId) ∧
      spawn.stage = stageOf stages event.streamId ∧ spawn.adapter = adapterOf payload := by
  obtain ⟨decoded, hdecode, hbody⟩ := bind_eq_ok_iff.mp h
  cases decoded with
  | none => cases hbody
  | some payload =>
      by_cases hwanted : Wanted stageFilter (stageOf stages event.streamId)
      · rw [readSpawn_of_wanted hdecode hwanted] at h
        obtain ⟨inputTokens, -, h⟩ := bind_eq_ok_iff.mp h
        obtain ⟨outputTokens, -, h⟩ := bind_eq_ok_iff.mp h
        obtain ⟨cost, -, h⟩ := bind_eq_ok_iff.mp h
        obtain rfl := Option.some.inj (Except.ok.inj h)
        exact ⟨payload, hdecode, hwanted, rfl, rfl⟩
      · unfold Wanted at hwanted
        simp only [hwanted] at hbody
        cases hbody

theorem readSpawn_eq_ok_iff (stages : Dict String (Option String)) (stageFilter : Option String)
    (event : SpendEvent) :
    (∃ read, readSpawn stages stageFilter event = .ok read) ↔
      event.Says fun payload =>
        Wanted stageFilter (stageOf stages event.streamId) → Convertible payload := by
  apply decoded_eq_ok_iff ⟨none, rfl⟩
  intro payload
  dsimp only
  by_cases hwanted : Wanted stageFilter (stageOf stages event.streamId)
  · rw [if_pos (show _ = true from hwanted), forall_prop_of_true hwanted]
    constructor
    · rintro ⟨read, h⟩
      obtain ⟨inputTokens, hinput, h⟩ := bind_eq_ok_iff.mp h
      obtain ⟨outputTokens, houtput, h⟩ := bind_eq_ok_iff.mp h
      obtain ⟨cost, hcost, -⟩ := bind_eq_ok_iff.mp h
      exact {
        inputTokens := (asInt_eq_ok_iff _).mp ⟨_, mapError_eq_ok_iff.mp hinput⟩
        outputTokens := (asInt_eq_ok_iff _).mp ⟨_, mapError_eq_ok_iff.mp houtput⟩
        cost := (asFloat_eq_ok_iff exactly _).mp ⟨_, mapError_eq_ok_iff.mp hcost⟩ }
    · intro hconvertible
      obtain ⟨inputTokens, hinput⟩ := (asInt_eq_ok_iff _).mpr hconvertible.inputTokens
      obtain ⟨outputTokens, houtput⟩ := (asInt_eq_ok_iff _).mpr hconvertible.outputTokens
      obtain ⟨cost, hcost⟩ := (asFloat_eq_ok_iff exactly _).mpr hconvertible.cost
      unfold tokens at hinput houtput
      unfold asCost
      rw [hinput, houtput, hcost]
      exact ⟨_, rfl⟩
  · rw [if_neg (show ¬ _ = true from hwanted)]
    exact iff_of_true ⟨none, rfl⟩ fun h => absurd h hwanted

/-- The texts in a report come from the spawns it counts. -/
theorem mem_texts_iff {reads : List (Option Spawn)} {text : String} :
    text ∈ (reads.foldl Collected.add {}).report.texts ↔
      ∃ spawn, some spawn ∈ reads ∧ (text = spawn.stage ∨ text ∈ spawn.adapter) := by
  have hstages : text ∈ (reads.foldl Collected.add {}).report.stages.map StageCost.stageId ↔
      ∃ spawn, some spawn ∈ reads ∧ text = spawn.stage := by
    have hkeys : text ∈ (Buckets.collect Spawn.stage Bucket.add {}
        (reads.filterMap id)).map Prod.fst ↔ text ∈ (reads.filterMap id).map Spawn.stage :=
      Buckets.mem_keys_collect Spawn.stage Bucket.add {}
    have hbuckets := foldl_collected_buckets reads {}
    change (_ : Dict String Bucket) = Buckets.collect Spawn.stage Bucket.add {} _ at hbuckets
    unfold Collected.report
    rw [hbuckets, List.map_map]
    change text ∈ (List.insertionSort _ _).map Prod.fst ↔ _
    rw [((List.perm_insertionSort _ _).map Prod.fst).mem_iff, hkeys, List.mem_map]
    simp [eq_comm, and_comm]
  have hadapters : text ∈ (reads.foldl Collected.add {}).report.adapters ↔
      ∃ spawn, some spawn ∈ reads ∧ text ∈ spawn.adapter := by
    unfold Collected.report
    dsimp only
    rw [(List.perm_insertionSort _ _).mem_iff, List.mem_dedup, foldl_collected_adapters]
    simp
  unfold CostReport.texts
  rw [List.mem_append, hstages, hadapters, ← exists_or]
  simp only [and_or_left]

theorem validatedReport_eq_ok_iff (accepts : String → Bool) (db : EventsDb)
    (stageFilter : Option String) :
    (∃ found, validatedReport accepts db stageFilter = .ok found) ↔
      ∃ found, report db stageFilter = .ok found ∧ ∀ text ∈ found.texts, accepts text = true := by
  constructor
  · rintro ⟨found, h⟩
    obtain ⟨reported, hreported, h⟩ := bind_eq_ok_iff.mp h
    refine ⟨reported, mapError_eq_ok_iff.mp hreported, ?_⟩
    split at h
    · rename_i haccepted
      exact List.all_eq_true.mp haccepted
    · cases h
  · rintro ⟨found, hreported, haccepted⟩
    refine ⟨found, bind_eq_ok_iff.mpr ⟨found, mapError_eq_ok_iff.mpr hreported, ?_⟩⟩
    rw [if_pos (List.all_eq_true.mpr haccepted)]
    rfl

/-- The condition under which the report returns. -/
structure Reportable (accepts : String → Bool) (stageFilter : Option String)
    (rows : List SpendRow) : Prop where
  started : ∀ event ∈ eventsOf startedType rows, event.Decodes
  completed : ∀ stages, stageByRun (eventsOf startedType rows) = .ok stages →
    ∀ event ∈ eventsOf completedType rows, event.Says fun payload =>
      Wanted stageFilter (stageOf stages event.streamId) →
        Convertible payload ∧ Named accepts (stageOf stages event.streamId) payload

/-- The report of a store that can be read is made of the spawns read. -/
theorem report_ofRows (rows : List SpendRow) (stageFilter : Option String) :
    report (.ofRows rows) stageFilter = do
      let stages ← stageByRun (eventsOf startedType rows)
      let reads ← (eventsOf completedType rows).mapM (readSpawn stages stageFilter)
      return (reads.foldl Collected.add {}).report := by
  have hdb : EventsDb.ofRows rows ≠ .missing := fun h => by cases h
  rw [report_of_read hdb, EventsDb.readByType_ofRows, EventsDb.readByType_ofRows]
  rfl

theorem report_returns_iff (accepts : String → Bool) (stageFilter : Option String)
    (rows : List SpendRow) :
    (∃ found, validatedReport accepts (.ofRows rows) stageFilter = .ok found) ↔
      Reportable accepts stageFilter rows := by
  rw [validatedReport_eq_ok_iff, report_ofRows]
  constructor
  · rintro ⟨found, h, haccepted⟩
    obtain ⟨stages, hstages, h⟩ := bind_eq_ok_iff.mp h
    obtain ⟨reads, hreads, h⟩ := bind_eq_ok_iff.mp h
    obtain rfl := Except.ok.inj h
    refine ⟨(stageByRun_eq_ok_iff _).mp ⟨stages, hstages⟩, ?_⟩
    intro others hothers event hevent
    obtain rfl := Except.ok.inj (hstages.symm.trans hothers)
    obtain ⟨read, hread, hspawn⟩ := exists_mem_of_mapM_eq_ok hreads hevent
    obtain ⟨hdecodes, hpayloads⟩ := (readSpawn_eq_ok_iff stages stageFilter event).mp ⟨read, hspawn⟩
    refine ⟨hdecodes, ?_⟩
    intro payload hpayload hwanted
    refine ⟨hpayloads payload hpayload hwanted, ?_⟩
    rw [readSpawn_of_wanted hpayload hwanted] at hspawn
    obtain ⟨inputTokens, -, hspawn⟩ := bind_eq_ok_iff.mp hspawn
    obtain ⟨outputTokens, -, hspawn⟩ := bind_eq_ok_iff.mp hspawn
    obtain ⟨cost, -, hspawn⟩ := bind_eq_ok_iff.mp hspawn
    obtain rfl := Except.ok.inj hspawn
    constructor
    · exact haccepted _ (mem_texts_iff.mpr ⟨_, hread, Or.inl rfl⟩)
    · intro name hname
      exact haccepted _ (mem_texts_iff.mpr ⟨_, hread, Or.inr hname⟩)
  · rintro ⟨hstarted, hcompleted⟩
    obtain ⟨stages, hstages⟩ := (stageByRun_eq_ok_iff _).mpr hstarted
    have hevents := hcompleted stages hstages
    have hread : ∀ event ∈ eventsOf completedType rows,
        ∃ read, readSpawn stages stageFilter event = .ok read := by
      intro event hevent
      obtain ⟨hdecodes, hpayloads⟩ := hevents event hevent
      rw [readSpawn_eq_ok_iff]
      exact ⟨hdecodes, fun payload hpayload hwanted => (hpayloads payload hpayload hwanted).1⟩
    obtain ⟨reads, hreads⟩ := mapM_eq_ok_iff.mpr hread
    refine ⟨(reads.foldl Collected.add {}).report, ?_, ?_⟩
    · exact bind_eq_ok_iff.mpr ⟨stages, hstages, bind_eq_ok_iff.mpr ⟨reads, hreads, rfl⟩⟩
    intro text htext
    obtain ⟨spawn, hspawn, hname⟩ := mem_texts_iff.mp htext
    obtain ⟨event, hevent, hfound⟩ := mem_of_mapM_eq_ok hreads hspawn
    obtain ⟨payload, hpayload, hwanted, hstage, hadapter⟩ := readSpawn_eq_some hfound
    have hnamed := ((hevents event hevent).2 payload hpayload hwanted).2
    rcases hname with rfl | hname
    · rw [hstage]
      exact hnamed.stage
    · rw [hadapter] at hname
      exact hnamed.adapter text hname

/-- On a store that can be read, the report and the totals are returned exactly
if `json.loads` decodes the payloads of the spawns or rejects them with its own
error, no token count that is reported is NaN or infinite, no cost is an integer
that no float reaches, and the schema takes the names of the stages and the
adapters. -/
theorem cost_reading_returns_iff (accepts : String → Bool) (rnd : Rounding)
    (stageFilter : Option String) (rows : List SpendRow) :
    ((∃ found, validatedReport accepts (.ofRows rows) stageFilter = .ok found) ∧
        ∃ found, CostAggregator.totals rnd (.ofRows rows) = .ok found) ↔
      Reportable accepts stageFilter rows ∧
        ∀ event ∈ eventsOf completedType rows,
          event.Says fun payload => (recordedCost payload).Prices := by
  rw [report_returns_iff, CostAggregator.totals_eq_ok_iff]

/-- A completed spawn that used `NaN` tokens. -/
def unmeasuredSpawn : SpendRow :=
  ⟨completedType, "run", .json (.obj
    [("metadata", .obj [("usage", .obj [("input_tokens", .float .nan)])])])⟩

theorem not_cost_reading_returns :
    ¬ ∀ (accepts : String → Bool) (rnd : Rounding) (stageFilter : Option String)
      (rows : List SpendRow),
      (∃ found, validatedReport accepts (.ofRows rows) stageFilter = .ok found) ∧
        ∃ found, CostAggregator.totals rnd (.ofRows rows) = .ok found := by
  intro h
  obtain ⟨⟨found, hfound⟩, -⟩ := h (fun _ => true) exactly none [unmeasuredSpawn]
  have hraises : (validatedReport (fun _ => true) (.ofRows [unmeasuredSpawn]) none).isOk =
      false := by decide
  rw [hfound] at hraises
  cases hraises

end CostUseCases

end ForgeOS
