import ForgeOS.Adapters.ClaudeSdk

/-!
How a run of the Claude SDK adapter ends. Its terminal event comes from a
`ResultMessage` or from an exception in the driver, and the sentinel behind it
ends the generator.
-/

namespace ForgeOS

open Library

namespace ClaudeSdk

/-! ### One terminal event -/

/-- `AGENT_COMPLETED` or `AGENT_FAILED`. -/
def isTerminal (event : Yielded) : Prop :=
  match event with
  | .event event => event.kind = .agentCompleted ∨ event.kind = .agentFailed
  | .proposal proposal => proposal.kind = .agentCompleted ∨ proposal.kind = .agentFailed

/-- There is one terminal event, and it is the last event. -/
def EndsOnce (events : List Yielded) : Prop :=
  ∃ before last, events = before ++ [last] ∧ isTerminal last ∧ ∀ event ∈ before, ¬ isTerminal event

theorem not_endsOnce_of_plain {events : List Yielded}
    (h : ∀ event ∈ events, ¬ isTerminal event) : ¬ EndsOnce events := by
  rintro ⟨before, last, rfl, hlast, -⟩
  exact h last (by simp) hlast

/-- Nothing may follow a terminal event. -/
theorem not_endsOnce_append {events more : List Yielded}
    (h : ∃ event ∈ events, isTerminal event) (hmore : more ≠ []) : ¬ EndsOnce (events ++ more) := by
  rintro ⟨before, last, hsplit, -, hbefore⟩
  obtain ⟨event, hevent, hterminal⟩ := h
  obtain ⟨front, x, rfl⟩ := (List.eq_nil_or_concat' more).resolve_left hmore
  rw [← List.append_assoc] at hsplit
  obtain ⟨rfl, -⟩ := List.append_inj' hsplit rfl
  exact hbefore event (List.mem_append_left _ hevent) hterminal

def Generator.isOver : Generator → Bool
  | .returned | .raised _ | .closed => true
  | .starting | .waiting | .paused _ => false

/-- It neither raises nor is closed. -/
def Generator.Undisturbed (generator : Generator) : Prop :=
  (∀ error, generator ≠ .raised error) ∧ generator ≠ .closed

/-- The driver has decided how the run ends. -/
def Driver.isSettled : Driver → Bool
  | .closing sawResult _ => sawResult
  | .finished => true
  | .idle | .connecting | .streaming => false

/-- What the generator has yet to yield. -/
def beforeSentinel : List Item → List Yielded
  | .yielded event :: rest => event :: beforeSentinel rest
  | .sentinel :: _ | [] => []

theorem beforeSentinel_append {items : List Item} (more : List Item) (h : .sentinel ∉ items) :
    beforeSentinel (items ++ more) = beforeSentinel items ++ beforeSentinel more := by
  induction items with
  | nil => rfl
  | cons item rest ih =>
      rw [List.mem_cons, not_or] at h
      cases item with
      | sentinel => exact absurd rfl h.1
      | yielded event =>
          rw [List.cons_append, beforeSentinel, ih h.2]
          rfl

theorem beforeSentinel_append_of_mem {items : List Item} (more : List Item)
    (h : .sentinel ∈ items) : beforeSentinel (items ++ more) = beforeSentinel items := by
  induction items with
  | nil => cases h
  | cons item rest ih =>
      cases item with
      | sentinel => rfl
      | yielded event =>
          have hrest : .sentinel ∈ rest := by simpa using h
          rw [List.cons_append, beforeSentinel, ih hrest]
          rfl

namespace SdkRun

/-- The generator has finished without raising, and one terminal event, the last
event, has been yielded. -/
def EndsProperly (s : SdkRun) : Prop := s.generator = .returned ∧ EndsOnce s.yielded

/-- A caller that resumes every proposal with a result, and does not close the
generator. -/
def Answers (s : SdkRun) : SdkStep → Prop
  | .resume none => ∀ proposal, s.generator ≠ .paused (.proposal proposal)
  | .close => s.generator.isOver = true ∨ s.generator = .waiting
  | _ => True

/-- A run leads to one terminal event: the time limit does not end it, an
exception ends it when no `ResultMessage` does and not otherwise, and no tool is
called between the `ResultMessage` and the end of the driver. -/
def Settles (session : Session) (s : SdkRun) : SdkStep → Prop
  | .timeout => s.generator ≠ .waiting
  | .fails raised => s.driver = .connecting → ∃ error, raised = .exception error
  | .closes raised => ∀ sawResult pending, s.driver = .closing sawResult pending →
      ((∃ error, (raised <|> pending) = some (.exception error)) ↔ sawResult = false)
  | .call toolUseId abstractName _ => ∀ pending, s.driver = .closing true pending →
      ¬ (s.calls toolUseId = none ∧ abstractName ∈ session.clientTools ∧
        abstractName ∈ forgeAbstractTools)
  | _ => True

/-! ### What is still to be yielded -/

/-- Everything the generator has yielded and will still yield. -/
def emitted (s : SdkRun) : List Yielded :=
  if s.generator.isOver then s.yielded else s.yielded ++ beforeSentinel s.eventsQ

/-- What every run keeps to. -/
structure Coherent (s : SdkRun) : Prop where
  starts : s.generator = .starting → s.driver = .idle
  overs : s.generator.isOver = true → s.driver = .finished ∨ s.driver = .idle
  returns : s.generator = .returned → s.driver = .finished
  marked : .sentinel ∈ s.eventsQ → s.driver = .finished
  marks : s.driver = .finished → s.generator.isOver = true ∨ .sentinel ∈ s.eventsQ
  plain : s.driver.isSettled = false → ∀ event ∈ s.emitted, ¬ isTerminal event
  settled : ∀ pending, s.driver = .closing true pending → ∃ event ∈ s.emitted, isTerminal event

/-- The run has led, or can still lead, to one terminal event. -/
structure OnCourse (s : SdkRun) : Prop where
  undisturbed : s.generator.Undisturbed
  once : s.driver.isSettled = true → EndsOnce s.emitted

variable {session : Session} {s : SdkRun}

/-- A driver that runs has a generator to put for. -/
theorem Coherent.running (h : s.Coherent) (hidle : s.driver ≠ .idle)
    (hfinished : s.driver ≠ .finished) :
    s.generator.isOver = false ∧ .sentinel ∉ s.eventsQ := by
  refine ⟨?_, fun hmem => hfinished (h.marked hmem)⟩
  cases hover : s.generator.isOver with
  | false => rfl
  | true =>
      rcases h.overs hover with hend | hstart
      · exact absurd hend hfinished
      · exact absurd hstart hidle

/-- A step that puts some items and leaves the generator alone. -/
structure Puts (s : SdkRun) (items : List Item) (t : SdkRun) : Prop where
  generator : t.generator = s.generator
  eventsQ : t.eventsQ = s.eventsQ ++ items
  yielded : t.yielded = s.yielded

variable {t : SdkRun} {items : List Item}

theorem Puts.emitted_of_open (ht : s.Puts items t) (hover : s.generator.isOver = false)
    (hopen : .sentinel ∉ s.eventsQ) : t.emitted = s.emitted ++ beforeSentinel items := by
  simp [emitted, ht.generator, ht.eventsQ, ht.yielded, hover, beforeSentinel_append items hopen]

theorem Puts.emitted_of_marked (ht : s.Puts items t)
    (h : s.generator.isOver = true ∨ .sentinel ∈ s.eventsQ) : t.emitted = s.emitted := by
  rcases h with hover | hmarked
  · simp [emitted, ht.generator, ht.yielded, hover]
  · simp [emitted, ht.generator, ht.eventsQ, ht.yielded,
      beforeSentinel_append_of_mem items hmarked]

/-- The driver goes on. -/
theorem Coherent.drive (h : s.Coherent) (ht : s.Puts items t) (hidle : s.driver ≠ .idle)
    (hfinished : s.driver ≠ .finished) (hsentinel : .sentinel ∈ items ↔ t.driver = .finished)
    (hplain : t.driver.isSettled = false → s.driver.isSettled = false ∧
      ∀ event ∈ beforeSentinel items, ¬ isTerminal event)
    (hsettled : ∀ pending, t.driver = .closing true pending →
      ∃ event ∈ beforeSentinel items, isTerminal event) : t.Coherent := by
  obtain ⟨hover, hopen⟩ := h.running hidle hfinished
  have hemitted := ht.emitted_of_open hover hopen
  refine ⟨?_, ?_, ?_, ?_, ?_, ?_, ?_⟩
  · intro hstarts
    exact absurd (h.starts (ht.generator.symm.trans hstarts)) hidle
  · intro hends
    rw [ht.generator, hover] at hends
    cases hends
  · intro hreturned
    rw [← ht.generator, hreturned] at hover
    cases hover
  · intro hmem
    rw [ht.eventsQ] at hmem
    rcases List.mem_append.mp hmem with hold | hnew
    · exact absurd hold hopen
    · exact hsentinel.mp hnew
  · intro hend
    rw [ht.eventsQ]
    exact Or.inr (List.mem_append_right _ (hsentinel.mpr hend))
  · intro hunsettled event hevent
    obtain ⟨hbefore, hnew⟩ := hplain hunsettled
    rw [hemitted] at hevent
    rcases List.mem_append.mp hevent with hold | hmore
    · exact h.plain hbefore event hold
    · exact hnew event hmore
  · intro pending hpending
    obtain ⟨event, hevent, hterminal⟩ := hsettled pending hpending
    rw [hemitted]
    exact ⟨event, List.mem_append_right _ hevent, hterminal⟩

/-- Something else than the driver puts events. -/
theorem Coherent.stay (h : s.Coherent) (ht : s.Puts items t) (hdriver : t.driver = s.driver)
    (hsentinel : .sentinel ∉ items) (hplain : ∀ event ∈ beforeSentinel items, ¬ isTerminal event) :
    t.Coherent := by
  have hmarked : .sentinel ∈ t.eventsQ ↔ .sentinel ∈ s.eventsQ := by
    rw [ht.eventsQ, List.mem_append, or_iff_left hsentinel]
  have hemitted : t.emitted = s.emitted ∨ t.emitted = s.emitted ++ beforeSentinel items := by
    by_cases hclosed : s.generator.isOver = true ∨ .sentinel ∈ s.eventsQ
    · exact Or.inl (ht.emitted_of_marked hclosed)
    · rw [not_or, Bool.not_eq_true] at hclosed
      exact Or.inr (ht.emitted_of_open hclosed.1 hclosed.2)
  refine ⟨?_, ?_, ?_, ?_, ?_, ?_, ?_⟩
  · rw [ht.generator, hdriver]
    exact h.starts
  · rw [ht.generator, hdriver]
    exact h.overs
  · rw [ht.generator, hdriver]
    exact h.returns
  · rw [hmarked, hdriver]
    exact h.marked
  · rw [hmarked, hdriver, ht.generator]
    exact h.marks
  · intro hunsettled event hevent
    rw [hdriver] at hunsettled
    rcases hemitted with hsame | hmore
    · exact h.plain hunsettled event (hsame ▸ hevent)
    · rw [hmore] at hevent
      rcases List.mem_append.mp hevent with hold | hnew
      · exact h.plain hunsettled event hold
      · exact hplain event hnew
  · intro pending hpending
    obtain ⟨event, hevent, hterminal⟩ := h.settled pending (hdriver.symm.trans hpending)
    refine ⟨event, ?_, hterminal⟩
    rcases hemitted with hsame | hmore
    · exact hsame ▸ hevent
    · exact hmore ▸ List.mem_append_left _ hevent

theorem onCourse_congr (hgenerator : t.generator = s.generator)
    (hsettled : t.driver.isSettled = s.driver.isSettled) (hemitted : t.emitted = s.emitted) :
    t.OnCourse ↔ s.OnCourse := by
  constructor
  · rintro ⟨hundisturbed, honce⟩
    exact ⟨hgenerator ▸ hundisturbed, by rwa [hsettled, hemitted] at honce⟩
  · rintro ⟨hundisturbed, honce⟩
    exact ⟨hgenerator ▸ hundisturbed, by rwa [hsettled, hemitted]⟩

theorem onCourse_of_unsettled (h : s.driver.isSettled = false) :
    s.OnCourse ↔ s.generator.Undisturbed := by
  constructor
  · exact fun hcourse => hcourse.undisturbed
  · intro hundisturbed
    refine ⟨hundisturbed, fun hsettled => ?_⟩
    exact absurd (h.symm.trans hsettled) Bool.false_ne_true

theorem onCourse_of_settled (h : s.driver.isSettled = true) :
    s.OnCourse ↔ s.generator.Undisturbed ∧ EndsOnce s.emitted := by
  constructor
  · exact fun hcourse => ⟨hcourse.undisturbed, hcourse.once h⟩
  · exact fun hcourse => ⟨hcourse.1, fun _ => hcourse.2⟩

/-! ### The steps of the driver -/

theorem endsOnce_concat {events : List Yielded} {last : Yielded}
    (h : ∀ event ∈ events, ¬ isTerminal event) (hlast : isTerminal last) :
    EndsOnce (events ++ [last]) := ⟨events, last, rfl, hlast, h⟩

theorem isTerminal_failedEvent (error : PyError) :
    isTerminal (.event (session.failedEvent error)) :=
  Or.inr rfl

theorem isTerminal_resultEvent (attrs : JsonObject) :
    isTerminal (.event (session.resultEvent attrs)) := by
  rw [isTerminal, Session.resultEvent]
  dsimp only
  split
  · exact Or.inl rfl
  · exact Or.inr rfl

theorem not_isTerminal_blockEvent {block : SdkBlock} {event : NormalizedEvent}
    (h : session.blockEvent block = some event) : ¬ isTerminal (.event event) := by
  rw [Session.blockEvent] at h
  split at h
  · obtain rfl := Option.some.inj h
    simp [isTerminal]
  · obtain rfl := Option.some.inj h
    simp [isTerminal]
  · cases h

theorem not_isTerminal_proposal (toolUseId abstractName : String) (args : JsonObject) :
    ¬ isTerminal (.proposal (session.proposal toolUseId abstractName args)) := by
  simp [isTerminal, Session.proposal]

/-- What `_drive_sdk` puts at its end. -/
def finishItems (session : Session) (raised : Option Raised) : List Item :=
  match raised with
  | some (.exception error) => [.yielded (.event (session.failedEvent error)), .sentinel]
  | _ => [.sentinel]

theorem puts_finish (raised : Option Raised) :
    s.Puts (finishItems session raised) (s.finish session raised) := by
  rcases raised with _ | error | _
  · exact ⟨rfl, rfl, rfl⟩
  · exact ⟨rfl, rfl, rfl⟩
  · exact ⟨rfl, rfl, rfl⟩

theorem driver_finish (raised : Option Raised) :
    (s.finish session raised).driver = .finished := by
  unfold finish
  split
  · rfl
  · rfl

theorem sentinel_mem_finishItems (raised : Option Raised) :
    .sentinel ∈ finishItems session raised := by
  unfold finishItems
  split
  · simp
  · simp

theorem Coherent.finish (h : s.Coherent) (hidle : s.driver ≠ .idle)
    (hfinished : s.driver ≠ .finished) (raised : Option Raised) :
    (s.finish session raised).Coherent := by
  have hdriver : (s.finish session raised).driver = .finished := driver_finish raised
  apply h.drive (puts_finish raised) hidle hfinished
  · exact iff_of_true (sentinel_mem_finishItems raised) hdriver
  · rw [hdriver]
    exact fun hunsettled => absurd hunsettled (by simp [Driver.isSettled])
  · rw [hdriver]
    exact fun pending hpending => absurd hpending (by simp)

/-- Without a `ResultMessage` the terminal event comes from an exception. -/
theorem onCourse_finish_of_plain (h : s.Coherent) (hidle : s.driver ≠ .idle)
    (hunsettled : s.driver.isSettled = false) (raised : Option Raised) :
    (s.finish session raised).OnCourse ↔
      s.OnCourse ∧ ∃ error, raised = some (.exception error) := by
  have hfinished : s.driver ≠ .finished := by
    intro hend
    rw [hend] at hunsettled
    cases hunsettled
  obtain ⟨hover, hopen⟩ := h.running hidle hfinished
  have hput : s.Puts _ (s.finish session raised) := puts_finish raised
  have hemitted := hput.emitted_of_open hover hopen
  have hplain := h.plain hunsettled
  rw [onCourse_of_settled (by rw [driver_finish]; rfl), onCourse_of_unsettled hunsettled,
    hput.generator, hemitted]
  refine and_congr_right fun _ => ?_
  unfold finishItems
  split
  · rename_i error
    exact iff_of_true (endsOnce_concat hplain (isTerminal_failedEvent error)) ⟨error, rfl⟩
  · rename_i hother
    refine iff_of_false ?_ (fun hraised => hother _ hraised.choose_spec)
    rw [beforeSentinel, List.append_nil]
    exact not_endsOnce_of_plain hplain

/-- Behind a `ResultMessage` an exception adds a second terminal event. -/
theorem onCourse_finish_of_settled (h : s.Coherent) {pending : Option Raised}
    (hclosing : s.driver = .closing true pending) (raised : Option Raised) :
    (s.finish session raised).OnCourse ↔
      s.OnCourse ∧ ¬ ∃ error, raised = some (.exception error) := by
  have hidle : s.driver ≠ .idle := by simp [hclosing]
  have hfinished : s.driver ≠ .finished := by simp [hclosing]
  obtain ⟨hover, hopen⟩ := h.running hidle hfinished
  have hput : s.Puts _ (s.finish session raised) := puts_finish raised
  have hemitted := hput.emitted_of_open hover hopen
  rw [onCourse_of_settled (by rw [driver_finish]; rfl),
    onCourse_of_settled (by rw [hclosing]; rfl), hput.generator, hemitted, and_assoc]
  refine and_congr_right fun _ => ?_
  unfold finishItems
  split
  · rename_i error
    refine iff_of_false ?_ (fun hboth => hboth.2 ⟨error, rfl⟩)
    exact not_endsOnce_append (h.settled pending hclosing) (by simp [beforeSentinel])
  · rename_i hother
    rw [beforeSentinel, List.append_nil]
    exact (and_iff_left fun hraised => hother _ hraised.choose_spec).symm

/-! ### The steps of the generator -/

theorem emitted_of_active (h : s.generator.isOver = false) :
    s.emitted = s.yielded ++ beforeSentinel s.eventsQ := by
  rw [emitted, h]
  rfl

theorem undisturbed_of_active {generator : Generator} (h : generator.isOver = false) :
    generator.Undisturbed := by
  refine ⟨?_, ?_⟩
  · rintro error rfl
    cases h
  · rintro rfl
    cases h

/-- The generator goes from one item to the next. -/
theorem Coherent.move (h : s.Coherent) (hs : s.generator.isOver = false)
    (ht : t.generator.isOver = false) (hstarts : t.generator ≠ .starting)
    (hdriver : t.driver = s.driver) (hmarked : .sentinel ∈ t.eventsQ ↔ .sentinel ∈ s.eventsQ)
    (hemitted : t.emitted = s.emitted) : t.Coherent ∧ (t.OnCourse ↔ s.OnCourse) := by
  refine ⟨⟨?_, ?_, ?_, ?_, ?_, ?_, ?_⟩, ?_⟩
  · exact fun hstart => absurd hstart hstarts
  · intro hover
    rw [ht] at hover
    cases hover
  · intro hreturned
    rw [hreturned] at ht
    cases ht
  · rw [hmarked, hdriver]
    exact h.marked
  · rw [hmarked, hdriver, ht, ← hs]
    exact h.marks
  · rw [hdriver, hemitted]
    exact h.plain
  · rw [hdriver, hemitted]
    exact h.settled
  · constructor
    · rintro ⟨-, honce⟩
      exact ⟨undisturbed_of_active hs, by rwa [hdriver, hemitted] at honce⟩
    · rintro ⟨-, honce⟩
      exact ⟨undisturbed_of_active ht, by rwa [hdriver, hemitted]⟩

variable (s) in
theorem coherent_endWith {generator : Generator} (hover : generator.isOver = true) :
    (s.endWith generator).Coherent where
  starts := by
    rintro (rfl : generator = .starting)
    cases hover
  overs _ := Or.inl rfl
  returns _ := rfl
  marked _ := rfl
  marks _ := Or.inl hover
  plain hunsettled := absurd hunsettled (by simp [endWith, Driver.isSettled])
  settled _ hpending := absurd hpending (by simp [endWith])

theorem not_onCourse_raised {error : PyError} (h : s.generator = .raised error) :
    ¬ s.OnCourse := fun hcourse => hcourse.undisturbed.1 error h

theorem not_onCourse_closed (h : s.generator = .closed) : ¬ s.OnCourse :=
  fun hcourse => hcourse.undisturbed.2 h

theorem Coherent.next (h : s.Coherent) : s.next.Coherent ∧ (s.next.OnCourse ↔ s.OnCourse) := by
  unfold SdkRun.next
  split
  · rename_i rest hwaiting hqueue
    refine ⟨coherent_endWith _ rfl, ?_⟩
    have hfinished := h.marked (by simp [hqueue])
    have hactive : s.generator.isOver = false := by simp [hwaiting, Generator.isOver]
    rw [onCourse_of_settled rfl, onCourse_of_settled (by rw [hfinished]; rfl), hwaiting,
      emitted_of_active hactive, hqueue, beforeSentinel, List.append_nil]
    refine and_congr_left fun _ => iff_of_true ?_ (undisturbed_of_active rfl)
    simp [endWith, Generator.Undisturbed]
  · rename_i event rest hwaiting hqueue
    have hactive : s.generator.isOver = false := by simp [hwaiting, Generator.isOver]
    refine h.move hactive rfl (by simp) rfl (by simp [hqueue]) ?_
    rw [emitted_of_active hactive, emitted_of_active rfl, hqueue, beforeSentinel]
    simp
  · exact ⟨h, Iff.rfl⟩

/-- The driver task is created. -/
theorem Coherent.start (h : s.Coherent) (hstarting : s.generator = .starting) :
    let t : SdkRun := { s with generator := .waiting, driver := .connecting }
    t.Coherent ∧ (t.OnCourse ↔ s.OnCourse) := by
  have hidle := h.starts hstarting
  have hactive : s.generator.isOver = false := by simp [hstarting, Generator.isOver]
  have hopen : .sentinel ∉ s.eventsQ := by
    intro hmem
    cases hidle.symm.trans (h.marked hmem)
  have hplain := h.plain (by rw [hidle]; rfl)
  rw [emitted_of_active hactive] at hplain
  refine ⟨⟨by simp, by simp [Generator.isOver], by simp, fun hmem => absurd hmem hopen, by simp,
    fun _ => hplain, by simp⟩, ?_⟩
  rw [onCourse_of_unsettled rfl, onCourse_of_unsettled (by rw [hidle]; rfl)]
  exact iff_of_true (undisturbed_of_active rfl) (undisturbed_of_active hactive)

theorem answers_resume {sent : Option ToolResult}
    (h : ∀ proposal, s.generator ≠ .paused (.proposal proposal)) : s.Answers (.resume sent) := by
  cases sent with
  | none => exact h
  | some result => trivial

theorem Coherent.resume (h : s.Coherent) (sent : Option ToolResult) :
    (s.resume sent).Coherent ∧
      ((s.resume sent).OnCourse ↔ s.OnCourse ∧ s.Answers (.resume sent)) := by
  unfold SdkRun.resume
  split
  · rename_i hstarting
    rw [and_iff_left (answers_resume (by simp [hstarting]))]
    exact h.start hstarting
  · rename_i event hpaused
    have hactive : s.generator.isOver = false := by simp [hpaused, Generator.isOver]
    rw [and_iff_left (answers_resume (by simp [hpaused]))]
    refine h.move hactive rfl (by simp) rfl Iff.rfl ?_
    rw [emitted_of_active hactive, emitted_of_active rfl]
  · rename_i proposal hpaused
    have hactive : s.generator.isOver = false := by simp [hpaused, Generator.isOver]
    cases sent with
    | some result =>
        rw [and_iff_left (show s.Answers (.resume (some result)) from trivial)]
        refine h.move hactive rfl (by simp [send]) rfl Iff.rfl ?_
        rw [emitted_of_active hactive, emitted_of_active rfl]
        rfl
    | none =>
        refine ⟨coherent_endWith _ rfl, iff_of_false (not_onCourse_raised rfl) ?_⟩
        exact fun hboth => hboth.2 proposal hpaused
  · rename_i hstarting hevent hproposal
    rw [and_iff_left (answers_resume hproposal)]
    exact ⟨h, Iff.rfl⟩

theorem Coherent.close (h : s.Coherent) :
    s.close.Coherent ∧ (s.close.OnCourse ↔ s.OnCourse ∧ s.Answers .close) := by
  unfold SdkRun.close
  split
  · rename_i hstarting
    have hidle := h.starts hstarting
    have hactive : s.generator.isOver = false := by simp [hstarting, Generator.isOver]
    refine ⟨?_, iff_of_false (not_onCourse_closed rfl) ?_⟩
    · refine ⟨by simp, fun _ => Or.inr hidle, by simp, h.marked, ?_, ?_, ?_⟩
      · intro hfinished
        cases hidle.symm.trans hfinished
      · intro hunsettled event hevent
        refine h.plain hunsettled event ?_
        rw [emitted_of_active hactive]
        exact List.mem_append_left _ hevent
      · intro pending hpending
        cases hidle.symm.trans hpending
    · simp [Answers, hstarting, Generator.isOver]
  · rename_i event hpaused
    refine ⟨coherent_endWith _ rfl, iff_of_false (not_onCourse_closed rfl) ?_⟩
    simp [Answers, hpaused, Generator.isOver]
  · rename_i hstarting hpaused
    refine ⟨h, (and_iff_left ?_).symm⟩
    rw [Answers]
    cases hgenerator : s.generator with
    | starting => exact absurd hgenerator hstarting
    | paused event => exact absurd hgenerator (hpaused event)
    | waiting => exact Or.inr rfl
    | returned => exact Or.inl rfl
    | raised error => exact Or.inl rfl
    | closed => exact Or.inl rfl

theorem Coherent.timeout (h : s.Coherent) :
    s.timeout.Coherent ∧ (s.timeout.OnCourse ↔ s.OnCourse ∧ s.Settles session .timeout) := by
  unfold SdkRun.timeout
  split
  · rename_i hwaiting
    refine ⟨coherent_endWith _ rfl, iff_of_false (not_onCourse_raised rfl) ?_⟩
    exact fun hboth => hboth.2 hwaiting
  · rename_i hwaiting
    exact ⟨h, (and_iff_left hwaiting).symm⟩

/-! ### Every step -/

/-- The driver or a proxy call leaves the terminal events as they are. -/
theorem Coherent.quiet (h : s.Coherent) (ht : s.Puts items t) (hdriver : t.driver = s.driver)
    (hsentinel : .sentinel ∉ items) (hplain : ∀ event ∈ beforeSentinel items, ¬ isTerminal event)
    (hcalm : s.driver.isSettled = false ∨ s.driver = .finished ∨ items = []) :
    t.Coherent ∧ (t.OnCourse ↔ s.OnCourse) := by
  refine ⟨h.stay ht hdriver hsentinel hplain, ?_⟩
  rcases hcalm with hunsettled | hfinished | rfl
  · rw [onCourse_of_unsettled (hdriver ▸ hunsettled), onCourse_of_unsettled hunsettled,
      ht.generator]
  · refine onCourse_congr ht.generator (by rw [hdriver]) (ht.emitted_of_marked (h.marks hfinished))
  · refine onCourse_congr ht.generator (by rw [hdriver]) ?_
    rw [emitted, emitted, ht.generator, ht.eventsQ, ht.yielded, List.append_nil]

/-- The driver goes on without having decided how the run ends. -/
theorem Coherent.goOn (h : s.Coherent) {driver : Driver} (hidle : s.driver ≠ .idle)
    (hbefore : s.driver.isSettled = false) (hafter : driver.isSettled = false) :
    let t : SdkRun := { s with driver }
    t.Coherent ∧ (t.OnCourse ↔ s.OnCourse) := by
  have hfinished : s.driver ≠ .finished := by
    intro hend
    rw [hend] at hbefore
    cases hbefore
  have hputs : s.Puts [] { s with driver } := ⟨rfl, (List.append_nil _).symm, rfl⟩
  refine ⟨h.drive hputs hidle hfinished ?_ ?_ ?_, ?_⟩
  · refine iff_of_false List.not_mem_nil ?_
    rintro rfl
    cases hafter
  · exact fun _ => ⟨hbefore, by simp [beforeSentinel]⟩
  · rintro pending rfl
    cases hafter
  · rw [onCourse_of_unsettled hafter, onCourse_of_unsettled hbefore]

theorem mem_beforeSentinel_map {events : List NormalizedEvent} {event : Yielded} :
    event ∈ beforeSentinel (events.map fun event => .yielded (.event event)) ↔
      ∃ normalized ∈ events, .event normalized = event := by
  induction events with
  | nil => simp [beforeSentinel]
  | cons first rest ih => simp [beforeSentinel, ih, eq_comm]

theorem Coherent.message (h : s.Coherent) (msg : SdkMessage) :
    (s.message session msg).Coherent ∧ ((s.message session msg).OnCourse ↔ s.OnCourse) := by
  unfold SdkRun.message
  split
  · rename_i hstreaming
    have hunsettled : s.driver.isSettled = false := by rw [hstreaming]; rfl
    cases msg with
    | assistant content =>
        refine h.quiet ⟨rfl, rfl, rfl⟩ rfl (by simp) ?_ (Or.inl hunsettled)
        intro event hevent
        obtain ⟨normalized, hmem, rfl⟩ := mem_beforeSentinel_map.mp hevent
        obtain ⟨block, -, hblock⟩ := List.mem_filterMap.mp hmem
        exact not_isTerminal_blockEvent hblock
    | result attrs =>
        have hidle : s.driver ≠ .idle := by simp [hstreaming]
        have hfinished : s.driver ≠ .finished := by simp [hstreaming]
        have hterminal : isTerminal (.event (session.resultEvent attrs)) :=
          isTerminal_resultEvent attrs
        obtain ⟨hover, hopen⟩ := h.running hidle hfinished
        let t : SdkRun := { s.put [.yielded (.event (session.resultEvent attrs))] with
          driver := .closing true none }
        have hputs : s.Puts [.yielded (.event (session.resultEvent attrs))] t := ⟨rfl, rfl, rfl⟩
        refine ⟨h.drive hputs hidle hfinished (by simp) (by simp [Driver.isSettled]) ?_, ?_⟩
        · exact fun _ _ => ⟨_, List.mem_singleton.mpr rfl, hterminal⟩
        · rw [onCourse_of_settled rfl, onCourse_of_unsettled hunsettled,
            hputs.emitted_of_open hover hopen]
          exact and_iff_left (endsOnce_concat (h.plain hunsettled) hterminal)
    | other => exact ⟨h, Iff.rfl⟩
  · exact ⟨h, Iff.rfl⟩

theorem Coherent.call (h : s.Coherent) (toolUseId abstractName : String) (args : JsonObject) :
    (s.call session toolUseId abstractName args).Coherent ∧
      ((s.call session toolUseId abstractName args).OnCourse ↔
        s.OnCourse ∧ s.Settles session (.call toolUseId abstractName args)) := by
  unfold SdkRun.call
  split
  · rename_i hidle
    exact ⟨h, (and_iff_left (by simp [Settles, hidle])).symm⟩
  · split
    · rename_i hcalled
      let items : List Item := [.yielded (.proposal (session.proposal toolUseId abstractName args))]
      have hplain : ∀ event ∈ beforeSentinel items, ¬ isTerminal event := by
        intro event hevent
        obtain rfl := List.mem_singleton.mp hevent
        exact not_isTerminal_proposal toolUseId abstractName args
      let t : SdkRun := { s.put items with
        calls := Function.update s.calls toolUseId (some .waiting) }
      have hputs : s.Puts items t := ⟨rfl, rfl, rfl⟩
      have hdriver : t.driver = s.driver := rfl
      have hsentinel : .sentinel ∉ items := by simp [items]
      by_cases hclosing : ∃ pending, s.driver = .closing true pending
      · obtain ⟨pending, hclosing⟩ := hclosing
        refine ⟨h.stay hputs hdriver hsentinel hplain, iff_of_false ?_ ?_⟩
        · obtain ⟨hover, hopen⟩ := h.running (by simp [hclosing]) (by simp [hclosing])
          rw [onCourse_of_settled (by rw [hdriver, hclosing]; rfl),
            hputs.emitted_of_open hover hopen]
          exact fun hboth => not_endsOnce_append (h.settled pending hclosing)
            (by simp [items, beforeSentinel]) hboth.2
        · exact fun hboth => hboth.2 pending hclosing hcalled
      · have hsettles : s.Settles session (.call toolUseId abstractName args) :=
          fun pending hpending => absurd ⟨pending, hpending⟩ hclosing
        rw [and_iff_left hsettles]
        refine h.quiet hputs hdriver hsentinel hplain ?_
        cases hphase : s.driver with
        | closing sawResult pending =>
            cases sawResult with
            | false => exact Or.inl rfl
            | true => exact absurd ⟨pending, hphase⟩ hclosing
        | finished => exact Or.inr (Or.inl rfl)
        | idle => exact Or.inl rfl
        | connecting => exact Or.inl rfl
        | streaming => exact Or.inl rfl
    · rename_i hcalled
      exact ⟨h, (and_iff_left fun _ _ => hcalled).symm⟩

/-- What a proxy call does with the results changes nothing else. -/
theorem Coherent.passing (h : s.Coherent) (hgenerator : t.generator = s.generator)
    (hdriver : t.driver = s.driver) (heventsQ : t.eventsQ = s.eventsQ)
    (hyielded : t.yielded = s.yielded) : t.Coherent ∧ (t.OnCourse ↔ s.OnCourse) :=
  h.quiet ⟨hgenerator, by rw [heventsQ, List.append_nil], hyielded⟩ hdriver List.not_mem_nil
    (by simp [beforeSentinel]) (Or.inr (Or.inr rfl))

theorem free_step {k : SdkStep} (hanswers : s.Answers k) (hsettles : s.Settles session k)
    (h : t.Coherent ∧ (t.OnCourse ↔ s.OnCourse)) :
    t.Coherent ∧ (t.OnCourse ↔ s.OnCourse ∧ s.Answers k ∧ s.Settles session k) :=
  ⟨h.1, h.2.trans (and_iff_left ⟨hanswers, hsettles⟩).symm⟩

theorem Coherent.step (h : s.Coherent) (k : SdkStep) :
    (s.step session k).Coherent ∧
      ((s.step session k).OnCourse ↔ s.OnCourse ∧ s.Answers k ∧ s.Settles session k) := by
  cases k with
  | next =>
      exact free_step trivial trivial h.next
  | resume sent =>
      rw [and_iff_left (show s.Settles session (.resume sent) from trivial)]
      exact h.resume sent
  | close =>
      rw [and_iff_left (show s.Settles session .close from trivial)]
      exact h.close
  | timeout =>
      rw [and_iff_right (show s.Answers .timeout from trivial)]
      exact h.timeout
  | connect =>
      refine free_step trivial trivial ?_
      rw [SdkRun.step, SdkRun.connect]
      split
      · rename_i hconnecting
        exact h.goOn (by simp [hconnecting]) (by rw [hconnecting]; rfl) rfl
      · exact ⟨h, Iff.rfl⟩
  | message msg =>
      exact free_step trivial trivial (h.message msg)
  | streamEnds =>
      refine free_step trivial trivial ?_
      rw [SdkRun.step, SdkRun.streamEnds]
      split
      · rename_i hstreaming
        exact h.goOn (by simp [hstreaming]) (by rw [hstreaming]; rfl) rfl
      · exact ⟨h, Iff.rfl⟩
  | fails raised =>
      rw [and_iff_right (show s.Answers (.fails raised) from trivial), SdkRun.step, SdkRun.fails]
      split
      · rename_i hconnecting
        have hidle : s.driver ≠ .idle := by simp [hconnecting]
        refine ⟨h.finish hidle (by simp [hconnecting]) (some raised), ?_⟩
        rw [onCourse_finish_of_plain h hidle (by rw [hconnecting]; rfl)]
        simp [Settles, hconnecting]
      · rename_i hstreaming
        rw [and_iff_left (show s.Settles session (.fails raised) by simp [Settles, hstreaming])]
        exact h.goOn (by simp [hstreaming]) (by rw [hstreaming]; rfl) rfl
      · rename_i hconnecting hstreaming
        rw [and_iff_left (show s.Settles session (.fails raised) from
          fun hconnect => absurd hconnect hconnecting)]
        exact ⟨h, Iff.rfl⟩
  | closes raised =>
      rw [and_iff_right (show s.Answers (.closes raised) from trivial), SdkRun.step, SdkRun.closes]
      split
      · rename_i sawResult pending hclosing
        have hidle : s.driver ≠ .idle := by simp [hclosing]
        refine ⟨h.finish hidle (by simp [hclosing]) _, ?_⟩
        have hsettles : s.Settles session (.closes raised) ↔
            ((∃ error, (raised <|> pending) = some (.exception error)) ↔ sawResult = false) := by
          simp [Settles, hclosing]
        rw [hsettles]
        cases sawResult with
        | false =>
            rw [onCourse_finish_of_plain h hidle (by rw [hclosing]; rfl)]
            simp
        | true =>
            rw [onCourse_finish_of_settled h hclosing]
            simp
      · rename_i hclosing
        refine ⟨h, (and_iff_left ?_).symm⟩
        exact fun sawResult pending hdriver => absurd hdriver (hclosing sawResult pending)
  | call toolUseId abstractName args =>
      rw [and_iff_right (show s.Answers (.call toolUseId abstractName args) from trivial)]
      exact h.call toolUseId abstractName args
  | take toolUseId =>
      refine free_step trivial trivial ?_
      rw [SdkRun.step, SdkRun.take]
      split
      · exact h.passing rfl rfl rfl rfl
      · exact ⟨h, Iff.rfl⟩
  | putBack toolUseId =>
      refine free_step trivial trivial ?_
      rw [SdkRun.step, SdkRun.putBack]
      split
      · exact h.passing rfl rfl rfl rfl
      · exact ⟨h, Iff.rfl⟩
  | giveUp toolUseId =>
      refine free_step trivial trivial ?_
      rw [SdkRun.step, SdkRun.giveUp]
      split
      · exact h.passing rfl rfl rfl rfl
      · exact ⟨h, Iff.rfl⟩

/-! ### A whole run -/

theorem coherent_initial : (initial session).Coherent where
  starts _ := rfl
  overs := by simp [initial, Generator.isOver]
  returns := by simp [initial]
  marked := by simp [initial]
  marks := by simp [initial]
  plain _ event hevent := by
    obtain rfl : event = .event session.sessionStarted := by
      simpa [emitted, initial, Generator.isOver, beforeSentinel] using hevent
    simp [isTerminal, Session.sessionStarted]
  settled := by simp [initial]

theorem onCourse_initial : (initial session).OnCourse :=
  (onCourse_of_unsettled rfl).mpr (undisturbed_of_active rfl)

variable (session) in
theorem coherent_after (steps : List SdkStep) : (after session steps).Coherent :=
  run_invariant coherent_initial fun _ k _ h => (h.step k).1

/-- A run that is over has ended properly if it stayed on course. -/
theorem Coherent.endsProperly_iff_onCourse (h : s.Coherent) (hover : s.generator.isOver = true) :
    s.EndsProperly ↔ s.OnCourse := by
  have hemitted : s.emitted = s.yielded := by rw [emitted, if_pos hover]
  constructor
  · rintro ⟨hreturned, honce⟩
    refine ⟨?_, fun _ => hemitted ▸ honce⟩
    rw [hreturned]
    simp [Generator.Undisturbed]
  · rintro ⟨hundisturbed, honce⟩
    have hreturned : s.generator = .returned := by
      cases hgenerator : s.generator with
      | returned => rfl
      | raised error => exact absurd hgenerator (hundisturbed.1 error)
      | closed => exact absurd hgenerator hundisturbed.2
      | starting => simp [hgenerator, Generator.isOver] at hover
      | waiting => simp [hgenerator, Generator.isOver] at hover
      | paused event => simp [hgenerator, Generator.isOver] at hover
    have hfinished := h.returns hreturned
    rw [hfinished, hemitted] at honce
    exact ⟨hreturned, honce rfl⟩

/-- With a caller that answers every proposal, a run that is over has yielded one
terminal event, its last, and has not raised, exactly when every step of it led
there. The steps that do not are a stream without a result, a time limit that
expires while the generator waits, and what the client raises behind a result. -/
theorem endsProperly_iff (session : Session) (steps : List SdkStep)
    (hcaller : Throughout (step session) Answers (initial session) steps)
    (hover : (after session steps).generator.isOver = true) :
    (after session steps).EndsProperly ↔
      Throughout (step session) (Settles session) (initial session) steps := by
  rw [(coherent_after session steps).endsProperly_iff_onCourse hover]
  have hcourse : (after session steps).OnCourse ↔
      Throughout (step session) (fun t k => t.Answers k ∧ t.Settles session k)
        (initial session) steps :=
    run_iff_throughout (step session) steps (fun _ k _ h => (h.step k).1)
      (fun _ k _ h => (h.step k).2) coherent_initial onCourse_initial
  rw [hcourse]
  constructor
  · exact fun hall before k after hsplit => (hall before k after hsplit).2
  · exact fun hall before k after hsplit =>
      ⟨hcaller before k after hsplit, hall before k after hsplit⟩

/-- A session without tools. -/
def plainSession : Session where
  aggregateId := "agg-1"
  persona := "builder"
  model := "claude-opus-4-7"
  settingSources := []
  clientTools := []
  reprError error := error.message

/-- The messages contain a `ResultMessage`. -/
def resultRun : List SdkStep :=
  [.resume none, .connect, .message (.result [("subtype", .str "success")]), .closes none, .next,
    .resume none, .next]

theorem endsProperly_resultRun : (after plainSession resultRun).EndsProperly := by
  refine (endsProperly_iff plainSession resultRun ?_ rfl).mpr ?_
  · simp [resultRun, throughout_cons, throughout_nil, Answers, step, initial, resume, connect,
      message, closes, finish, next, put]
  · simp [resultRun, throughout_cons, throughout_nil, Settles, step, initial, resume, connect,
      message, closes, finish, next, put]

/-- The messages end without a `ResultMessage`. -/
def silentRun : List SdkStep := [.resume none, .connect, .streamEnds, .closes none, .next]

/-- The caller has answered everything, and the generator has returned; it has
yielded no terminal event. -/
theorem not_endsProperly_silentRun :
    Throughout (step plainSession) Answers (initial plainSession) silentRun ∧
      (after plainSession silentRun).generator.isOver = true ∧
      ¬ (after plainSession silentRun).EndsProperly := by
  refine ⟨?_, rfl, ?_⟩
  · simp [silentRun, throughout_cons, throughout_nil, Answers, initial]
  · rintro ⟨-, honce⟩
    refine not_endsOnce_of_plain ?_ honce
    intro event hevent
    obtain rfl := List.mem_singleton.mp hevent
    simp [isTerminal, Session.sessionStarted]

end SdkRun

end ClaudeSdk

end ForgeOS
