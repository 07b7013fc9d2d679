import ForgeOS.Channels.Intake
import ForgeOS.Library.Admission

/-!
What the limits of the feedback queue amount to. `submit` looks at the window
that ends with the call and at nothing else; over a whole history this bounds
every window of that length.
-/

namespace ForgeOS

open Library

namespace FeedbackQueue

open JsonLines JsonText

section Limits

variable {reading : Reading} (defaults : FeedbackDefaults)
  (fromisoformat : String → Option PyDatetime) (rnd : Rounding) (queue : FeedbackQueue)

/-- What `submit` counts of an earlier call. -/
def counts (earlier call : Submission reading) : Bool :=
  (earlier.item.sender = call.item.sender &&
    queue.withinWindow fromisoformat rnd earlier.item.createdAt call.moment) &&
    earlier.item.status = "pending"

/-- What a duplicate has in common with an item. -/
def senderText (item : FeedbackItem) : String × String := (item.sender, item.text)

/-- A further call is accepted only if no pending item is the same and fewer
than the maximum count. -/
theorem accepted_snoc_cases (calls : List (Submission reading)) (call : Submission reading) :
    let before := accepted reading defaults fromisoformat rnd queue calls
    let after := accepted reading defaults fromisoformat rnd queue (calls ++ [call])
    after = before ∨ after = before ++ [call] ∧
      senderText call.item ∉ (pendingItems before).map senderText ∧
      before.countP (counts fromisoformat rnd queue · call) < queue.maxPerWindow.toNat := by
  intro before after
  have hafter : after = before ++ accepts reading defaults fromisoformat rnd queue
      (fileAfter reading defaults fromisoformat rnd queue calls) call := accepted_snoc ..
  rw [fileAfter_eq] at hafter
  rcases submit_cases defaults fromisoformat rnd queue
      (fileOf (before.map Submission.dump)) call with
    ⟨fault, hexec⟩ | ⟨existing, hlisted, hsame, hfew, hexec⟩
  · refine .inl ?_
    rw [hafter, accepts, hexec, List.append_nil]
  · obtain rfl := eq_pendingItems defaults hlisted
    refine .inr ⟨?_, ?_, ?_⟩
    · rw [hafter, accepts, hexec]
    · intro hmem
      obtain ⟨item, hitem, hkey⟩ := List.mem_map.mp hmem
      exact hsame item hitem (Prod.mk.inj hkey)
    · rw [← List.countP_eq_length_filter, pendingItems, List.countP_filter,
        List.countP_map] at hfew
      have hcount : before.countP (counts fromisoformat rnd queue · call) < queue.maxPerWindow :=
        hfew
      omega

/-- What is listed of the file, if it can be read, are the pending items of the
accepted calls. -/
theorem listPending_fileAfter {calls : List (Submission reading)} {items : List FeedbackItem}
    (hlisted : listPending reading defaults
      (fileAfter reading defaults fromisoformat rnd queue calls) = .ok items) :
    items = pendingItems (accepted reading defaults fromisoformat rnd queue calls) := by
  rw [fileAfter_eq] at hlisted
  exact eq_pendingItems defaults hlisted

/-- The calls are taken as they come. -/
theorem accepted_sublist (calls : List (Submission reading)) :
    (accepted reading defaults fromisoformat rnd queue calls).Sublist calls := by
  induction calls using List.reverseRecOn with
  | nil => exact List.Sublist.refl []
  | append_singleton earlier call ih =>
      rcases accepted_snoc_cases defaults fromisoformat rnd queue earlier call with
        hafter | ⟨hafter, -⟩
      · rw [hafter]
        exact ih.trans (List.sublist_append_left earlier [call])
      · rw [hafter]
        exact ih.append (List.Sublist.refl [call])

/-- The history of the accepted calls, with what counts as near. -/
theorem admitted_accepted (calls : List (Submission reading)) :
    Admitted (counts fromisoformat rnd queue) queue.maxPerWindow.toNat
      (accepted reading defaults fromisoformat rnd queue calls) := by
  induction calls using List.reverseRecOn with
  | nil => exact .nil
  | append_singleton earlier call ih =>
      rcases accepted_snoc_cases defaults fromisoformat rnd queue earlier call with
        hafter | ⟨hafter, -, hfew⟩
      · rw [hafter]
        exact ih
      · rw [hafter]
        exact .snoc ih hfew

/-- No two pending items are the same. -/
theorem nodup_accepted (calls : List (Submission reading)) :
    ((pendingItems (accepted reading defaults fromisoformat rnd queue calls)).map
      senderText).Nodup := by
  induction calls using List.reverseRecOn with
  | nil => exact List.nodup_nil
  | append_singleton earlier call ih =>
      rcases accepted_snoc_cases defaults fromisoformat rnd queue earlier call with
        hafter | ⟨hafter, hnew, -⟩
      · rw [hafter]
        exact ih
      · rw [hafter, pendingItems, List.map_append, List.filter_append, List.map_append]
        have hlast : (([call].map Submission.item).filter fun item =>
            item.status = "pending").map senderText ⊆ [senderText call.item] := by
          rw [List.map_singleton]
          exact List.map_subset senderText (List.filter_sublist).subset
        have hshort : ((([call].map Submission.item).filter fun item =>
            item.status = "pending").map senderText).Nodup :=
          ((List.nodup_singleton call.item).filter _).map_on (by simp)
        refine List.nodup_append'.mpr ⟨ih, hshort, ?_⟩
        intro key hkey hother
        rw [List.mem_singleton.mp (hlast hother)] at hkey
        exact hnew hkey

/-! ### Windows -/

/-- The moments from `start` on, for less than the length of the window. -/
def windowFrom (start micros : Int) : Bool :=
  start ≤ micros && (totalSeconds rnd (micros - start)).lt queue.windowSeconds

/-- The moments up to `finish`, for less than the length of the window. -/
def windowTo (finish micros : Int) : Bool :=
  micros ≤ finish && (totalSeconds rnd (finish - micros)).lt queue.windowSeconds

/-- The items of a sender that were submitted in a window. -/
def held (sender : String) (window : Int → Bool) (calls : List (Submission reading)) : Nat :=
  calls.countP fun call => call.item.sender = sender && window call.moment.micros

/-- The accepted items that are pending. -/
def queued (calls : List (Submission reading)) : List (Submission reading) :=
  (accepted reading defaults fromisoformat rnd queue calls).filter fun call =>
    call.item.status = "pending"

/-- Two moments of a window are less than its length apart. -/
def Narrow (window : Int → Bool) : Prop :=
  ∀ earlier later, window earlier = true → window later = true → earlier ≤ later →
    (totalSeconds rnd (later - earlier)).lt queue.windowSeconds = true

theorem narrow_windowFrom (hmono : rnd.Monotone) (start : Int) :
    Narrow rnd queue (windowFrom rnd queue start) := by
  intro earlier later hearlier hlater hle
  simp only [windowFrom, Bool.and_eq_true, decide_eq_true_eq] at hearlier hlater
  have hwithin : later - earlier ≤ later - start := by omega
  exact PyFloat.lt_of_le_of_lt (totalSeconds_mono hmono hwithin) hlater.2

theorem narrow_windowTo (hmono : rnd.Monotone) (finish : Int) :
    Narrow rnd queue (windowTo rnd queue finish) := by
  intro earlier later hearlier hlater hle
  simp only [windowTo, Bool.and_eq_true, decide_eq_true_eq] at hearlier hlater
  have hwithin : later - earlier ≤ finish - earlier := by omega
  exact PyFloat.lt_of_le_of_lt (totalSeconds_mono hmono hwithin) hearlier.2

/-- The items carry the time of their submission, which has no time zone. -/
def Dated (call : Submission reading) : Prop :=
  call.moment.isAware = false ∧ fromisoformat call.item.createdAt = some call.moment

theorem counts_of_narrow {window : Int → Bool} (hwindow : Narrow rnd queue window)
    {earlier call : Submission reading} (hearlier : Dated fromisoformat earlier)
    (hcall : Dated fromisoformat call) (hle : earlier.moment.micros ≤ call.moment.micros)
    (hin : window earlier.moment.micros = true) (hlast : window call.moment.micros = true) :
    queue.withinWindow fromisoformat rnd earlier.item.createdAt call.moment = true := by
  have hseconds := hwindow _ _ hin hlast hle
  unfold withinWindow
  rw [hearlier.2]
  cases hmoment : earlier.moment with
  | aware micros =>
      rw [Dated, hmoment] at hearlier
      cases hearlier.1
  | naive micros =>
      cases hother : call.moment with
      | aware other =>
          rw [Dated, hother] at hcall
          cases hcall.1
      | naive other =>
          rw [hmoment, hother] at hseconds
          exact hseconds

theorem held_le {window : Int → Bool} (hwindow : Narrow rnd queue window)
    {calls : List (Submission reading)} (hdated : ∀ call ∈ calls, Dated fromisoformat call)
    (hsorted : calls.Pairwise fun earlier later => earlier.moment.micros ≤ later.moment.micros)
    (sender : String) :
    held sender window (queued defaults fromisoformat rnd queue calls) ≤
      queue.maxPerWindow.toNat := by
  have hsub := accepted_sublist defaults fromisoformat rnd queue calls
  rw [held, queued, List.countP_filter]
  apply (admitted_accepted defaults fromisoformat rnd queue calls).countP_le
  refine List.Pairwise.imp_of_mem ?_ (hsorted.sublist hsub)
  intro earlier call hmem hlast hle hearlier hcall
  simp only [Bool.and_eq_true, decide_eq_true_eq] at hearlier hcall
  have hwithin := counts_of_narrow fromisoformat rnd queue hwindow
    (hdated earlier (hsub.subset hmem)) (hdated call (hsub.subset hlast)) hle
    hearlier.1.2 hcall.1.2
  simp only [counts, Bool.and_eq_true, decide_eq_true_eq]
  exact ⟨⟨hearlier.1.1.trans hcall.1.1.symm, hwithin⟩, hearlier.2⟩

/-- In calls at times that do not decrease, whose items are dated by them, no
window of the length of the queue's holds more pending items of a sender than
the maximum, and no two pending items are the same. Items of another status are
neither counted nor compared by `submit`. -/
theorem rate_limited (hmono : rnd.Monotone) (calls : List (Submission reading))
    (hdated : ∀ call ∈ calls, Dated fromisoformat call)
    (hsorted : calls.Pairwise fun earlier later =>
      earlier.moment.micros ≤ later.moment.micros) :
    let pending := queued defaults fromisoformat rnd queue calls
    (∀ sender start, held sender (windowFrom rnd queue start) pending ≤
        queue.maxPerWindow.toNat) ∧
      (∀ sender finish, held sender (windowTo rnd queue finish) pending ≤
        queue.maxPerWindow.toNat) ∧
      (pending.map fun call => senderText call.item).Nodup := by
  intro pending
  refine ⟨?_, ?_, ?_⟩
  · intro sender start
    exact held_le defaults fromisoformat rnd queue (narrow_windowFrom rnd queue hmono start)
      hdated hsorted sender
  · intro sender finish
    exact held_le defaults fromisoformat rnd queue (narrow_windowTo rnd queue hmono finish)
      hdated hsorted sender
  · have hnodup := nodup_accepted defaults fromisoformat rnd queue calls
    rw [pendingItems, List.filter_map, List.map_map] at hnodup
    exact hnodup

end Limits

/-! ### Items of plain text -/

/-- Printable ASCII of which JSON escapes nothing. -/
def isPlain (c : Char) : Bool := 0x20 ≤ c.toNat && c.toNat < 0x7f && c ≠ '"' && c ≠ '\\'

def strings (item : FeedbackItem) : List String :=
  [item.feedbackId, item.channelId, item.sender, item.text, item.trustLevel.value,
    item.createdAt, item.status]

/-- They have such characters only. -/
def Plain (item : FeedbackItem) : Prop :=
  ((strings item).all fun s => s.toList.all isPlain) = true

instance (item : FeedbackItem) : Decidable (Plain item) := inferInstanceAs (Decidable (_ = true))

theorem plain_iff {item : FeedbackItem} :
    Plain item ↔ ∀ s ∈ strings item, ∀ c ∈ s.toList, isPlain c = true := by
  simp only [Plain, List.all_eq_true]

/-- Characters of this kind are read as the string they are. -/
theorem lex_plain {text : List Char} (htext : ∀ c ∈ text, isPlain c = true) (rest : List Char) :
    lex (.string []) (text ++ '"' :: rest) =
      .str (String.ofList text) :: lex (.outside []) rest := by
  suffices h : ∀ units : List Nat, lex (.string units) (text ++ '"' :: rest) =
      .str (String.ofList (ofUnits (units ++ text.map Char.toNat))) :: lex (.outside []) rest by
    rw [h [], List.nil_append, ofUnits_map]
  induction text with
  | nil =>
      intro units
      rw [List.map_nil, List.append_nil]
      rfl
  | cons c text ih =>
      intro units
      obtain ⟨hc, htext⟩ := List.forall_mem_cons.mp htext
      have hstep : (LexMode.string units).step c = some ([], .string (units ++ [c.toNat])) := by
        simp only [isPlain, Bool.and_eq_true, decide_eq_true_eq, ne_eq] at hc
        simp only [LexMode.step, hc.1.2, hc.2, Nat.not_lt.mpr hc.1.1.1, if_false]
      rw [List.cons_append, lex, hstep, List.map_cons]
      simp only [List.nil_append]
      rw [ih htext, List.append_assoc]
      rfl

/-- `model_dump_json` of an item of plain text. -/
def itemText (item : FeedbackItem) : List Char :=
  "\x7b\"feedback_id\":\"".toList ++ (item.feedbackId.toList ++ '"' ::
    (",\"channel_id\":\"".toList ++ (item.channelId.toList ++ '"' ::
      (",\"sender\":\"".toList ++ (item.sender.toList ++ '"' ::
        (",\"text\":\"".toList ++ (item.text.toList ++ '"' ::
          (",\"trust_level\":\"".toList ++ (item.trustLevel.value.toList ++ '"' ::
            (",\"created_at\":\"".toList ++ (item.createdAt.toList ++ '"' ::
              (",\"status\":\"".toList ++ (item.status.toList ++ '"' :: ['\x7d'])))))))))))))

section Plain

variable {item : FeedbackItem}

theorem lex_itemText (hplain : Plain item) :
    lex (.outside []) (itemText item) =
      [.mark '\x7b', .str "feedback_id", .mark ':', .str item.feedbackId,
        .mark ',', .str "channel_id", .mark ':', .str item.channelId,
        .mark ',', .str "sender", .mark ':', .str item.sender,
        .mark ',', .str "text", .mark ':', .str item.text,
        .mark ',', .str "trust_level", .mark ':', .str item.trustLevel.value,
        .mark ',', .str "created_at", .mark ':', .str item.createdAt,
        .mark ',', .str "status", .mark ':', .str item.status, .mark '\x7d'] := by
  simp only [plain_iff, strings, List.forall_mem_cons] at hplain
  obtain ⟨hid, hchannel, hsender, htext, htrust, hcreated, hstatus, -⟩ := hplain
  have hfirst : (LexMode.outside []).run "\x7b\"feedback_id\":\"".toList =
      some ([.mark '\x7b', .str "feedback_id", .mark ':'], .string []) := by decide +kernel
  have hsecond : (LexMode.outside []).run ",\"channel_id\":\"".toList =
      some ([.mark ',', .str "channel_id", .mark ':'], .string []) := by decide +kernel
  have hthird : (LexMode.outside []).run ",\"sender\":\"".toList =
      some ([.mark ',', .str "sender", .mark ':'], .string []) := by decide +kernel
  have hfourth : (LexMode.outside []).run ",\"text\":\"".toList =
      some ([.mark ',', .str "text", .mark ':'], .string []) := by decide +kernel
  have hfifth : (LexMode.outside []).run ",\"trust_level\":\"".toList =
      some ([.mark ',', .str "trust_level", .mark ':'], .string []) := by decide +kernel
  have hsixth : (LexMode.outside []).run ",\"created_at\":\"".toList =
      some ([.mark ',', .str "created_at", .mark ':'], .string []) := by decide +kernel
  have hseventh : (LexMode.outside []).run ",\"status\":\"".toList =
      some ([.mark ',', .str "status", .mark ':'], .string []) := by decide +kernel
  have hlast : lex (.outside []) ['\x7d'] = [.mark '\x7d'] := rfl
  unfold itemText
  refine (lex_append hfirst _).trans ?_
  rw [lex_plain hid, lex_append hsecond, lex_plain hchannel, lex_append hthird, lex_plain hsender,
    lex_append hfourth, lex_plain htext, lex_append hfifth, lex_plain htrust, lex_append hsixth,
    lex_plain hcreated, lex_append hseventh, lex_plain hstatus, hlast]
  simp only [String.ofList_toList, List.cons_append, List.nil_append]

theorem decode_itemText (hplain : Plain item) :
    decode demoReading distinctHook (itemText item) = .ok (.obj item.modelDump) := by
  simp only [decode, lex_itemText hplain]
  rfl

theorem printable_of_plain (hplain : Plain item) :
    ∀ s ∈ strings item, s.toList.all isPrintable = true := by
  intro s hs
  refine List.all_eq_true.mpr fun c hc => ?_
  have hplain := plain_iff.mp hplain s hs c hc
  simp only [isPlain, Bool.and_eq_true] at hplain
  exact Bool.and_eq_true_iff.mpr hplain.1.1

theorem printable_itemText (hplain : Plain item) : (itemText item).all isPrintable = true := by
  have hprintable := printable_of_plain hplain
  simp only [strings, List.forall_mem_cons] at hprintable
  obtain ⟨hid, hchannel, hsender, htext, htrust, hcreated, hstatus, -⟩ := hprintable
  unfold itemText
  simp only [List.all_append, List.all_cons, hid, hchannel, hsender, htext, htrust, hcreated,
    hstatus]
  decide +kernel

theorem printable_modelDump (hplain : Plain item) :
    ∀ s ∈ (Json.obj item.modelDump).strings, s.toList.all isPrintable = true := by
  have hprintable := printable_of_plain hplain
  simp only [strings, List.forall_mem_cons] at hprintable
  obtain ⟨hid, hchannel, hsender, htext, htrust, hcreated, hstatus, -⟩ := hprintable
  change ∀ s ∈ ["feedback_id", item.feedbackId, "channel_id", item.channelId, "sender",
    item.sender, "text", item.text, "trust_level", item.trustLevel.value, "created_at",
    item.createdAt, "status", item.status], _
  simp only [List.forall_mem_cons]
  exact ⟨by decide, hid, by decide, hchannel, by decide, hsender, by decide, htext, by decide,
    htrust, by decide, hcreated, by decide, hstatus, List.forall_mem_nil _⟩

theorem toNat_lt_of_isPrintable {text : List Char} (h : text.all isPrintable = true) {c : Char}
    (hc : c ∈ text) : 0x20 ≤ c.toNat ∧ c.toNat < 0x7f := by
  have hprintable := List.all_eq_true.mp h c hc
  simpa only [isPrintable, Bool.and_eq_true, decide_eq_true_eq] using hprintable

end Plain

/-- The call that submits an item of plain text at some time. -/
def plainCall (item : FeedbackItem) (hplain : Plain item) (micros : Int) :
    Submission demoReading where
  item := item
  dump :=
    { object := item.modelDump
      text := itemText item
      serialises := ⟨4300, 200, decode_itemText hplain⟩
      no_newline := fun h => absurd
        (toNat_lt_of_isPrintable (printable_itemText hplain) h).1 (by decide)
      no_return := fun h => absurd
        (toNat_lt_of_isPrintable (printable_itemText hplain) h).1 (by decide)
      unescaped := fun s hs c hc hbeyond => by
        have hprintable := toNat_lt_of_isPrintable (printable_modelDump hplain s hs) hc
        omega }
  dump_object := rfl
  moment := .naive micros

/-- What `datetime.fromisoformat` makes of the times below. -/
def noteIsoformat (value : String) : Option PyDatetime :=
  if value = "2026-01-01T00:00:00" then some (.naive 1767225600000000)
  else if value = "2026-01-01T00:00:20" then some (.naive 1767225620000000)
  else if value = "2026-01-01T00:01:00" then some (.naive 1767225660000000)
  else none

/-- The second of these notes is the first again, the third comes too soon, the
fourth is of another sender, and the last of a minute later. -/
def noteCalls : List (Submission demoReading) := [
  plainCall ⟨"fb-1", "cli", "alice", "Slow.", .untrusted, "2026-01-01T00:00:00", "pending"⟩
    (by decide) 1767225600000000,
  plainCall ⟨"fb-2", "cli", "alice", "Slow.", .untrusted, "2026-01-01T00:00:20", "pending"⟩
    (by decide) 1767225620000000,
  plainCall ⟨"fb-3", "cli", "alice", "Late.", .untrusted, "2026-01-01T00:00:20", "pending"⟩
    (by decide) 1767225620000000,
  plainCall ⟨"fb-4", "cli", "bob", "Slow.", .untrusted, "2026-01-01T00:00:20", "pending"⟩
    (by decide) 1767225620000000,
  plainCall ⟨"fb-5", "cli", "alice", "Late.", .untrusted, "2026-01-01T00:01:00", "pending"⟩
    (by decide) 1767225660000000]

theorem rate_limited_noteCalls :
    let pending := queued ⟨"fb-0", ""⟩ noteIsoformat exactly ⟨1, .finite 60⟩ noteCalls
    (pending.map fun call => call.item.feedbackId) = ["fb-1", "fb-4", "fb-5"] ∧
      (∀ sender start, held sender (windowFrom exactly ⟨1, .finite 60⟩ start) pending ≤ 1) ∧
      (∀ sender finish, held sender (windowTo exactly ⟨1, .finite 60⟩ finish) pending ≤ 1) ∧
      (pending.map fun call => senderText call.item).Nodup := by
  have hdated : ∀ call ∈ noteCalls, Dated noteIsoformat call := by
    simp only [noteCalls, List.forall_mem_cons]
    exact ⟨⟨rfl, rfl⟩, ⟨rfl, rfl⟩, ⟨rfl, rfl⟩, ⟨rfl, rfl⟩, ⟨rfl, rfl⟩, List.forall_mem_nil _⟩
  exact ⟨by decide +kernel, rate_limited ⟨"fb-0", ""⟩ noteIsoformat exactly ⟨1, .finite 60⟩
    (fun _ _ h => PyFloat.finite_le_iff.mpr h) noteCalls hdated (by decide)⟩

/-- Two notes of one moment that have been triaged already. -/
def triagedCalls : List (Submission demoReading) := [
  plainCall ⟨"fb-1", "cli", "alice", "Slow.", .untrusted, "2026-01-01T00:00:00", "triaged"⟩
    (by decide) 1767225600000000,
  plainCall ⟨"fb-2", "cli", "alice", "Late.", .untrusted, "2026-01-01T00:00:00", "triaged"⟩
    (by decide) 1767225600000000]

/-- What is not pending is accepted without a limit. -/
theorem not_rate_limited :
    ¬ ∀ (fromisoformat : String → Option PyDatetime) (queue : FeedbackQueue)
        (calls : List (Submission demoReading)),
        (∀ call ∈ calls, Unseparated (.obj call.item.modelDump)) →
        (∀ call ∈ calls, Dated fromisoformat call) →
        (calls.Pairwise fun earlier later => earlier.moment.micros ≤ later.moment.micros) →
        ∀ sender start, held sender (windowFrom exactly queue start)
          (accepted demoReading ⟨"fb-0", ""⟩ fromisoformat exactly queue calls) ≤
            queue.maxPerWindow.toNat := by
  intro h
  have hdated : ∀ call ∈ triagedCalls, Dated noteIsoformat call := by
    simp only [triagedCalls, List.forall_mem_cons]
    exact ⟨⟨rfl, rfl⟩, ⟨rfl, rfl⟩, List.forall_mem_nil _⟩
  have hlines : ∀ call ∈ triagedCalls, Unseparated (.obj call.item.modelDump) := by
    simp only [triagedCalls, List.forall_mem_cons]
    exact ⟨by decide, by decide, List.forall_mem_nil _⟩
  have hheld := h noteIsoformat ⟨1, .finite 60⟩ triagedCalls hlines hdated (by decide) "alice"
    1767225600000000
  revert hheld
  decide +kernel

end FeedbackQueue

end ForgeOS
