import ForgeOS.Datetime
import ForgeOS.JsonLines
import ForgeOS.Library.Effect
import Mathlib.Data.List.Induction

/-!
The feedback that senders submit through channels, queued in
`.forge/channels/feedback.jsonl` one item a line. An item is refused if it is
pending already or its sender has submitted too many of late.
-/

namespace ForgeOS

open Library

inductive TrustLevel where
  | untrusted
  | trusted
deriving DecidableEq, Repr

def TrustLevel.value : TrustLevel → String
  | .untrusted => "untrusted"
  | .trusted => "trusted"

/-- `TrustLevel(value)` -/
def TrustLevel.ofValue? (value : String) : Option TrustLevel :=
  if value = "untrusted" then some .untrusted
  else if value = "trusted" then some .trusted
  else none

@[simp]
theorem TrustLevel.ofValue?_value (level : TrustLevel) : ofValue? level.value = some level := by
  cases level <;> rfl

/-- A piece of channel feedback queued for triage. -/
structure FeedbackItem where
  feedbackId : String
  channelId : String
  sender : String
  text : String
  trustLevel : TrustLevel := .untrusted
  createdAt : String
  status : String := "pending"
deriving DecidableEq, Repr

/-- What the default factories give for the fields of an item that has none. -/
structure FeedbackDefaults where
  feedbackId : String
  createdAt : String

namespace FeedbackItem

open JsonLines

def modelDump (item : FeedbackItem) : JsonObject :=
  [("feedback_id", .str item.feedbackId), ("channel_id", .str item.channelId),
    ("sender", .str item.sender), ("text", .str item.text),
    ("trust_level", .str item.trustLevel.value), ("created_at", .str item.createdAt),
    ("status", .str item.status)]

/-- The validation of the model. -/
def validate (defaults : FeedbackDefaults) (obj : JsonObject) : Option FeedbackItem := do
  let feedbackId ← strFieldOr obj "feedback_id" defaults.feedbackId
  let channelId ← strField obj "channel_id"
  let sender ← strField obj "sender"
  let text ← strField obj "text"
  let trustLevel ← TrustLevel.ofValue? (← strFieldOr obj "trust_level" "untrusted")
  let createdAt ← strFieldOr obj "created_at" defaults.createdAt
  let status ← strFieldOr obj "status" "pending"
  return { feedbackId, channelId, sender, text, trustLevel, createdAt, status }

theorem validate_modelDump (defaults : FeedbackDefaults) (item : FeedbackItem) :
    validate defaults item.modelDump = some item := by
  simp [validate, modelDump, strField, strFieldOr, Dict.get?, Json.str?]

end FeedbackItem

/-- What `submit` raises; a `ValidationError` comes from an item of the file. -/
inductive FeedbackFault where
  | validation
  | duplicate (message : String)
  | rateLimit (message : String)
deriving DecidableEq, Repr

/-- The limits of a queue. -/
structure FeedbackQueue where
  maxPerWindow : Int := 5
  windowSeconds : PyFloat := .finite 60

/-- A `submit` call: the item with its dump, and the moment it is given or, if
none is, the time of day. -/
structure Submission (reading : JsonText.Reading) where
  item : FeedbackItem
  dump : JsonLines.ModelDump reading
  dump_object : dump.object = item.modelDump
  moment : PyDatetime

namespace FeedbackQueue

open JsonLines JsonText

abbrev FeedbackEffect := Effect (Option (List Char)) FeedbackFault

section Calls

variable (reading : Reading) (defaults : FeedbackDefaults)
  (fromisoformat : String → Option PyDatetime) (rnd : Rounding) (queue : FeedbackQueue)

def listPending (file : Option (List Char)) : Except FeedbackFault (List FeedbackItem) :=
  match validateAll reading (FeedbackItem.validate defaults) file with
  | none => .error .validation
  | some items => .ok (items.filter fun item => item.status = "pending")

/-- `_within_window`. What cannot be parsed or subtracted is outside. -/
def withinWindow (createdAt : String) (moment : PyDatetime) : Bool :=
  match fromisoformat createdAt with
  | none => false
  | some created =>
      match moment.since? created with
      | none => false
      | some micros => (totalSeconds rnd micros).lt queue.windowSeconds

/-- Enqueue an item, rejecting duplicates and rate-limit violations. -/
def submit (call : Submission reading) : FeedbackEffect FeedbackItem := do
  let existing ← Effect.ofExcept (listPending reading defaults (← get))
  let sender := call.item.sender
  if existing.any fun item => item.sender = sender && item.text = call.item.text then
    throw (.duplicate s!"duplicate feedback from '{sender}'")
  else
    let recent := existing.filter fun item =>
      item.sender = sender && queue.withinWindow fromisoformat rnd item.createdAt call.moment
    if queue.maxPerWindow ≤ recent.length then
      let window := queue.windowSeconds.fixed 0
      throw (.rateLimit
        s!"sender '{sender}' exceeded {queue.maxPerWindow} items per {window}s")
    else
      modify (appended [call.dump])
      return call.item

/-- The file a call leaves behind, whether it returns or raises. -/
def perform (file : Option (List Char)) (call : Submission reading) : Option (List Char) :=
  ((submit reading defaults fromisoformat rnd queue call).exec file).2

/-- The call, if it returns. -/
def accepts (file : Option (List Char)) (call : Submission reading) : List (Submission reading) :=
  match ((submit reading defaults fromisoformat rnd queue call).exec file).1 with
  | .ok _ => [call]
  | .error _ => []

/-- The calls that return, of a queue that begins without a file. -/
def accepted (calls : List (Submission reading)) : List (Submission reading) :=
  collect (perform reading defaults fromisoformat rnd queue)
    (accepts reading defaults fromisoformat rnd queue) none calls

def fileAfter (calls : List (Submission reading)) : Option (List Char) :=
  run (perform reading defaults fromisoformat rnd queue) none calls

end Calls

/-! ### The file holds what was accepted -/

/-- The pending ones among the items of some calls. -/
def pendingItems {reading : Reading} (calls : List (Submission reading)) : List FeedbackItem :=
  (calls.map Submission.item).filter fun item => item.status = "pending"

section File

variable {reading : Reading} (defaults : FeedbackDefaults)
  (fromisoformat : String → Option PyDatetime) (rnd : Rounding) (queue : FeedbackQueue)

/-- The items can be listed exactly if every dump is kept. -/
theorem listPending_fileOf (calls : List (Submission reading)) :
    listPending reading defaults (fileOf (calls.map Submission.dump)) =
      if ∀ call ∈ calls, call.dump.Kept then .ok (pendingItems calls) else .error .validation := by
  have hitems : (calls.map Submission.dump).map
      (fun dump => FeedbackItem.validate defaults dump.object) =
      (calls.map Submission.item).map some := by
    rw [List.map_map, List.map_map]
    refine List.map_congr_left fun call _ => ?_
    change FeedbackItem.validate defaults call.dump.object = some call.item
    rw [call.dump_object, FeedbackItem.validate_modelDump]
  have hwritten := validateAll_written hitems
  simp only [List.forall_mem_map] at hwritten
  rw [listPending, validateAll_fileOf, hwritten]
  by_cases hkept : ∀ call ∈ calls, call.dump.Kept
  · rw [if_pos hkept, if_pos hkept]
    rfl
  · rw [if_neg hkept, if_neg hkept]

/-- A call raises and leaves the file alone, or finds fewer than the maximum of
items of its sender in the window and none that is the same, and appends its
item. -/
theorem submit_cases (file : Option (List Char)) (call : Submission reading) :
    (∃ fault, (submit reading defaults fromisoformat rnd queue call).exec file =
        (.error fault, file)) ∨
      ∃ existing, listPending reading defaults file = .ok existing ∧
        (∀ item ∈ existing, ¬ (item.sender = call.item.sender ∧ item.text = call.item.text)) ∧
        ((existing.filter fun item => item.sender = call.item.sender &&
          queue.withinWindow fromisoformat rnd item.createdAt call.moment).length : Int) <
          queue.maxPerWindow ∧
        (submit reading defaults fromisoformat rnd queue call).exec file =
          (.ok call.item, appended [call.dump] file) := by
  unfold submit
  rw [Effect.exec_bind, Effect.exec_get]
  dsimp only
  rw [Effect.exec_bind, Effect.exec_ofExcept]
  cases hlisted : listPending reading defaults file with
  | error fault => exact .inl ⟨fault, rfl⟩
  | ok existing =>
      dsimp only
      split
      · exact .inl ⟨_, rfl⟩
      · rename_i hnone
        split
        · exact .inl ⟨_, rfl⟩
        · rename_i hfew
          refine .inr ⟨existing, rfl, ?_, not_le.mp hfew, rfl⟩
          rintro item hitem ⟨hsender, htext⟩
          apply hnone
          rw [List.any_eq_true]
          exact ⟨item, hitem, by simp [hsender, htext]⟩

/-- What a call adds to those accepted. -/
theorem accepted_snoc (calls : List (Submission reading)) (call : Submission reading) :
    accepted reading defaults fromisoformat rnd queue (calls ++ [call]) =
      accepted reading defaults fromisoformat rnd queue calls ++
        accepts reading defaults fromisoformat rnd queue
          (fileAfter reading defaults fromisoformat rnd queue calls) call :=
  collect_snoc ..

theorem fileAfter_eq (calls : List (Submission reading)) :
    fileAfter reading defaults fromisoformat rnd queue calls =
      fileOf ((accepted reading defaults fromisoformat rnd queue calls).map Submission.dump) := by
  induction calls using List.reverseRecOn with
  | nil => rfl
  | append_singleton earlier call ih =>
      have hlast : fileAfter reading defaults fromisoformat rnd queue (earlier ++ [call]) =
          perform reading defaults fromisoformat rnd queue
            (fileAfter reading defaults fromisoformat rnd queue earlier) call := run_snoc ..
      rw [hlast, accepted_snoc]
      rcases submit_cases defaults fromisoformat rnd queue
          (fileAfter reading defaults fromisoformat rnd queue earlier) call with
        ⟨fault, hexec⟩ | ⟨existing, -, -, -, hexec⟩
      · rw [perform, accepts, hexec, List.append_nil, ih]
      · rw [perform, accepts, hexec, ih, List.map_append]
        exact appended_fileOf _ (List.cons_ne_nil _ _)

/-! ### The items come back -/

/-- A further call returns its item behind the items pending before. -/
def RoundTrips (calls : List (Submission reading)) (call : Submission reading) : Prop :=
  ∃ pending,
    listPending reading defaults (fileAfter reading defaults fromisoformat rnd queue calls) =
      .ok pending ∧
    listPending reading defaults
      (fileAfter reading defaults fromisoformat rnd queue (calls ++ [call])) =
      .ok (pending ++ [call.item])

/-- An item that no limit of the reader concerns. -/
theorem kept_iff (hdepth : 0 < reading.maxDepth) (call : Submission reading) :
    call.dump.Kept ↔ Unseparated (.obj call.item.modelDump) := by
  rw [← call.dump_object]
  refine call.dump.kept_iff ?_ ?_
  · rw [call.dump_object]
    rfl
  · rw [call.dump_object]
    exact hdepth

theorem eq_pendingItems {calls : List (Submission reading)} {existing : List FeedbackItem}
    (hlisted : listPending reading defaults (fileOf (calls.map Submission.dump)) = .ok existing) :
    existing = pendingItems calls := by
  rw [listPending_fileOf] at hlisted
  split at hlisted
  · exact (Except.ok.inj hlisted).symm
  · cases hlisted

/-- Behind items that can be listed another one can be listed too exactly if its
dump is kept. -/
theorem listPending_snoc {calls : List (Submission reading)} {existing : List FeedbackItem}
    (hlisted : listPending reading defaults (fileOf (calls.map Submission.dump)) = .ok existing)
    (call : Submission reading) :
    listPending reading defaults (fileOf ((calls ++ [call]).map Submission.dump)) =
      if call.dump.Kept then .ok (existing ++ pendingItems [call]) else .error .validation := by
  rw [listPending_fileOf] at hlisted ⊢
  simp only [List.forall_mem_append, List.forall_mem_singleton]
  split at hlisted
  · rename_i hkept
    rw [← Except.ok.inj hlisted]
    by_cases hcall : call.dump.Kept
    · rw [if_pos ⟨hkept, hcall⟩, if_pos hcall, pendingItems, List.map_append, List.filter_append]
      rfl
    · rw [if_neg fun h => hcall h.2, if_neg hcall]
  · cases hlisted

/-- An item that is accepted comes back, behind those that were pending before,
exactly if none of its strings has a separator and it is pending itself. The
queue is dumped with its separators as they are, and split at them when it is
listed. -/
theorem roundTrips_iff (hdepth : 0 < reading.maxDepth) (calls : List (Submission reading))
    (call : Submission reading)
    (haccepted : ((submit reading defaults fromisoformat rnd queue call).exec
      (fileAfter reading defaults fromisoformat rnd queue calls)).1.isOk = true) :
    RoundTrips defaults fromisoformat rnd queue calls call ↔
      Unseparated (.obj call.item.modelDump) ∧ call.item.status = "pending" := by
  unfold RoundTrips
  rw [← kept_iff hdepth, fileAfter_eq, fileAfter_eq, accepted_snoc, fileAfter_eq]
  rw [fileAfter_eq] at haccepted
  rcases submit_cases defaults fromisoformat rnd queue
      (fileOf ((accepted reading defaults fromisoformat rnd queue calls).map Submission.dump))
      call with
    ⟨fault, hexec⟩ | ⟨existing, hlisted, -, -, hexec⟩
  · rw [hexec] at haccepted
    cases haccepted
  · rw [accepts, hexec]
    dsimp only
    rw [listPending_snoc defaults hlisted, hlisted]
    simp only [Except.ok.injEq, exists_eq_left']
    have hpending : pendingItems [call] = [call.item] ↔ call.item.status = "pending" := by
      rw [pendingItems, List.map_singleton, List.filter_eq_self]
      simp
    by_cases hkept : call.dump.Kept
    · rw [if_pos hkept, Except.ok.injEq, List.append_cancel_left_eq, hpending]
      exact (and_iff_right hkept).symm
    · rw [if_neg hkept]
      refine iff_of_false ?_ fun h => hkept h.1
      intro h
      cases h

end File

/-- The text of the item is `a…b`, with a line separator between the letters. -/
def separatedItem : FeedbackItem where
  feedbackId := "fb-1"
  channelId := "cli"
  sender := "alice"
  text := "a\u2028b"
  createdAt := "2026-01-01T00:00:00"

def separatedText : List Char :=
  "\x7b\"feedback_id\":\"fb-1\",\"channel_id\":\"cli\",\"sender\":\"alice\",".toList ++
    "\"text\":\"a\u2028b\",\"trust_level\":\"untrusted\",".toList ++
    "\"created_at\":\"2026-01-01T00:00:00\",\"status\":\"pending\"\x7d".toList

theorem lex_separatedText :
    lex (.outside []) separatedText =
      [.mark '\x7b', .str "feedback_id", .mark ':', .str "fb-1", .mark ',', .str "channel_id",
        .mark ':', .str "cli", .mark ',', .str "sender", .mark ':', .str "alice", .mark ',',
        .str "text", .mark ':', .str "a\u2028b", .mark ',', .str "trust_level", .mark ':',
        .str "untrusted", .mark ',', .str "created_at", .mark ':', .str "2026-01-01T00:00:00",
        .mark ',', .str "status", .mark ':', .str "pending", .mark '\x7d'] := by
  decide +kernel

theorem decode_separatedText :
    decode demoReading distinctHook separatedText = .ok (.obj separatedItem.modelDump) := by
  simp only [decode, lex_separatedText]
  rfl

theorem separatedText_one_line : '\n' ∉ separatedText ∧ '\r' ∉ separatedText := by
  decide +kernel

theorem separator_mem_separatedText : '\u2028' ∈ separatedText := by decide +kernel

theorem separator_of_separatedItem :
    ∀ s ∈ (Json.obj separatedItem.modelDump).strings, ∀ c ∈ s.toList, 0x80 ≤ c.toNat →
      c = '\u2028' :=
  eq_of_beyond_ascii (by decide +kernel)

/-- The call that submits that item. -/
def separatedCall : Submission demoReading where
  item := separatedItem
  dump :=
    { object := separatedItem.modelDump
      text := separatedText
      serialises := ⟨4300, 200, decode_separatedText⟩
      no_newline := separatedText_one_line.1
      no_return := separatedText_one_line.2
      unescaped := fun s hs c hc hbeyond =>
        separator_of_separatedItem s hs c hc hbeyond ▸ separator_mem_separatedText }
  dump_object := rfl
  moment := .naive 1767225600000000

theorem roundTrips_separatedCall :
    RoundTrips ⟨"fb-0", ""⟩ (fun _ => none) exactly {} [] separatedCall ↔
      Unseparated (.obj separatedCall.item.modelDump) ∧ separatedCall.item.status = "pending" :=
  roundTrips_iff ⟨"fb-0", ""⟩ (fun _ => none) exactly {} (by decide) [] separatedCall rfl

/-- A line separator in an item that is accepted makes the queue unreadable. -/
theorem not_roundTrips :
    ¬ ∀ (reading : Reading) (defaults : FeedbackDefaults)
        (fromisoformat : String → Option PyDatetime) (rnd : Rounding) (queue : FeedbackQueue)
        (calls : List (Submission reading)) (call : Submission reading), 0 < reading.maxDepth →
        ((submit reading defaults fromisoformat rnd queue call).exec
          (fileAfter reading defaults fromisoformat rnd queue calls)).1.isOk = true →
        call.item.status = "pending" →
        RoundTrips defaults fromisoformat rnd queue calls call := by
  intro h
  obtain ⟨pending, -, hafter⟩ := h demoReading ⟨"fb-0", ""⟩ (fun _ => none) exactly {} []
    separatedCall (by decide) rfl rfl
  have haccepted : accepted demoReading ⟨"fb-0", ""⟩ (fun _ => none) exactly {} [separatedCall] =
      [separatedCall] := rfl
  have hlost : ¬ ∀ call ∈ [separatedCall], call.dump.Kept := by
    intro hkept
    have hclean := (hkept separatedCall (List.mem_singleton_self _)).1
    have htext : "a\u2028b" ∈ (Json.obj separatedItem.modelDump).strings := by decide
    exact absurd (hclean "a\u2028b" htext '\u2028' (by decide)) (by decide)
  rw [List.nil_append, fileAfter_eq, haccepted, listPending_fileOf, if_neg hlost] at hafter
  cases hafter

end FeedbackQueue

end ForgeOS
