import ForgeOS.Adapters.ClaudeSdk
import Mathlib.Data.List.Nodup

/-!
The queue of results that all proxy calls share. A result stays in it, or with a
call that puts it back, until the call whose id it carries takes it.
-/

namespace ForgeOS

open Library

namespace ClaudeSdk

/-- The result a call has in its hands, or has returned. -/
def ProxyCall.sent? : ProxyCall → Option Sent
  | .holding sent | .returned sent => some sent
  | .waiting | .ended => none

/-- A call holds results of other calls and returns one of its own. -/
def ProxyCall.Fits (toolUseId : String) : ProxyCall → Prop
  | .holding sent => sent.result.toolUseId ≠ toolUseId
  | .returned sent => sent.result.toolUseId = toolUseId
  | .waiting | .ended => True

/-- The steps by which the calls pass results around. -/
def SdkStep.passesResults : SdkStep → Bool
  | .take _ | .putBack _ => true
  | _ => false

namespace SdkRun

variable (session : Session)

def answer? (s : SdkRun) : SdkStep → Option ToolResult
  | .resume (some result) =>
      match s.generator with
      | .paused (.proposal _) => some result
      | _ => none
  | _ => none

/-- The results the caller answers proposals with, in a run that goes on from a
state. -/
def answersFrom (s : SdkRun) : List SdkStep → List ToolResult
  | [] => []
  | k :: rest => (s.answer? k).toList ++ answersFrom (s.step session k) rest

/-- The results the caller answers proposals with, in a run of `spawn_agent`. -/
def answers (steps : List SdkStep) : List ToolResult := answersFrom session (initial session) steps

def inHand (s : SdkRun) (toolUseId : String) : Option Sent :=
  (s.calls toolUseId).bind ProxyCall.sent?

/-- A proxy call that has not come to its end. -/
def Waits (s : SdkRun) (toolUseId : String) : Prop :=
  s.calls toolUseId = some .waiting ∨ ∃ sent, s.calls toolUseId = some (.holding sent)

/-- What has become of the results sent, in a state that is reached. -/
structure Routed (answered : List ToolResult) (s : SdkRun) : Prop where
  /-- A call returns a result that was sent for it. -/
  own : ∀ toolUseId returned, s.calls toolUseId = some (.returned returned) →
    returned.result.toolUseId = toolUseId ∧ answered[returned.number]? = some returned.result
  /-- A result that has been returned is nowhere else. -/
  once : ∀ toolUseId returned, s.calls toolUseId = some (.returned returned) →
    returned.number ∉ s.resultsQ.map Sent.number ∧
      ∀ other held, s.inHand other = some held →
        held.number = returned.number → other = toolUseId
  /-- It stays returned. -/
  final : ∀ toolUseId returned, s.calls toolUseId = some (.returned returned) →
    ∀ more, (run (step session) s more).calls toolUseId = some (.returned returned)
  /-- While its call waits, a result is in the queue, or held by a call that is
  about to put it back. -/
  kept : ∀ (number : Nat) (result : ToolResult), answered[number]? = some result →
    s.Waits result.toolUseId →
    ⟨number, result⟩ ∈ s.resultsQ ∨ ∃ other, other ≠ result.toolUseId ∧
      s.calls other = some (.holding ⟨number, result⟩)
  /-- The calls need nothing else to make the call return. -/
  returnable : ∀ (number : Nat) (result : ToolResult), answered[number]? = some result →
    s.Waits result.toolUseId →
    ∃ more : List SdkStep, (∀ k ∈ more, k.passesResults = true) ∧
      ∃ returned, (run (step session) s more).calls result.toolUseId = some (.returned returned)

/-! ### Where the results are -/

/-- Every result is in one place: in the queue, or with one call. -/
structure Placed (answered : List ToolResult) (s : SdkRun) : Prop where
  numbered : s.numbered = answered.length
  queued : ∀ sent ∈ s.resultsQ, answered[sent.number]? = some sent.result
  owned : ∀ toolUseId sent, s.inHand toolUseId = some sent →
    answered[sent.number]? = some sent.result
  fits : ∀ toolUseId call, s.calls toolUseId = some call → call.Fits toolUseId
  distinct : (s.resultsQ.map Sent.number).Nodup
  apart : ∀ toolUseId sent, s.inHand toolUseId = some sent →
    sent.number ∉ s.resultsQ.map Sent.number
  single : ∀ toolUseId other sent sent', s.inHand toolUseId = some sent →
    s.inHand other = some sent' → sent.number = sent'.number →
    toolUseId = other
  somewhere : ∀ (number : Nat) (result : ToolResult), answered[number]? = some result →
    ⟨number, result⟩ ∈ s.resultsQ ∨
      ∃ toolUseId, s.inHand toolUseId = some ⟨number, result⟩

theorem placed_initial : (initial session).Placed [] where
  numbered := rfl
  queued := by simp [initial]
  owned := by simp [initial, inHand]
  fits := by simp [initial]
  distinct := by simp [initial]
  apart := by simp [initial, inHand]
  single := by simp [initial, inHand]
  somewhere := by simp [initial]

variable {session} {s : SdkRun} {answered : List ToolResult}

/-- Steps that leave the calls and the results alone. -/
theorem Placed.of_eq {t : SdkRun} (h : s.Placed answered) (hcalls : t.calls = s.calls)
    (hqueue : t.resultsQ = s.resultsQ) (hnumbered : t.numbered = s.numbered) :
    t.Placed answered := by
  obtain ⟨generator, driver, eventsQ, resultsQ, calls, yielded, numbered⟩ := s
  obtain ⟨generator', driver', eventsQ', resultsQ', calls', yielded', numbered'⟩ := t
  dsimp only at hcalls hqueue hnumbered
  subst hcalls hqueue hnumbered
  exact ⟨h.numbered, h.queued, h.owned, h.fits, h.distinct, h.apart, h.single, h.somewhere⟩

@[simp]
theorem inHand_setCall (toolUseId other : String) (call : ProxyCall) :
    (s.setCall toolUseId call).inHand other =
      if other = toolUseId then call.sent? else s.inHand other := by
  simp only [inHand, setCall, Function.update_apply]
  split
  · rfl
  · rfl

theorem Placed.lt_of_queued (h : s.Placed answered) {number : Nat}
    (hnumber : number ∈ s.resultsQ.map Sent.number) : number < answered.length := by
  obtain ⟨sent, hsent, rfl⟩ := List.mem_map.mp hnumber
  exact (List.getElem?_eq_some_iff.mp (h.queued sent hsent)).1

theorem Placed.lt_of_inHand (h : s.Placed answered) {toolUseId : String} {sent : Sent}
    (hhand : s.inHand toolUseId = some sent) : sent.number < answered.length :=
  (List.getElem?_eq_some_iff.mp (h.owned toolUseId sent hhand)).1

theorem getElem?_append_one {number : Nat} {old result : ToolResult} :
    (answered ++ [result])[number]? = some old ↔
      answered[number]? = some old ∨ number = answered.length ∧ old = result := by
  simp only [List.getElem?_append, List.getElem?_singleton]
  split
  · rename_i hlt
    simp [Nat.ne_of_lt hlt]
  · rename_i hge
    have hnone : answered[number]? = none := List.getElem?_eq_none (Nat.le_of_not_lt hge)
    simp only [hnone, reduceCtorEq, false_or]
    constructor
    · intro h
      split at h
      · exact ⟨by omega, (Option.some.inj h).symm⟩
      · cases h
    · rintro ⟨rfl, rfl⟩
      rw [Nat.sub_self, if_pos rfl]

theorem Placed.send (h : s.Placed answered) (result : ToolResult) :
    (s.send result).Placed (answered ++ [result]) where
  numbered := by
    rw [List.length_append, ← h.numbered]
    rfl
  queued := by
    intro sent hsent
    rcases List.mem_append.mp hsent with hold | hnew
    · exact getElem?_append_one.mpr (Or.inl (h.queued sent hold))
    · obtain rfl := List.mem_singleton.mp hnew
      exact getElem?_append_one.mpr (Or.inr ⟨h.numbered, rfl⟩)
  owned := by
    intro toolUseId sent hhand
    exact getElem?_append_one.mpr (Or.inl (h.owned toolUseId sent hhand))
  fits := h.fits
  distinct := by
    simp only [SdkRun.send, List.map_append]
    apply List.Nodup.append h.distinct (List.nodup_singleton _)
    intro number hold hnew
    have hlt := h.lt_of_queued hold
    obtain rfl := List.mem_singleton.mp hnew
    exact absurd h.numbered (Nat.ne_of_lt hlt)
  apart := by
    intro toolUseId sent hhand hqueue
    have hlt := h.lt_of_inHand hhand
    simp only [SdkRun.send, List.map_append] at hqueue
    rcases List.mem_append.mp hqueue with hold | hnew
    · exact h.apart toolUseId sent hhand hold
    · have heq := List.mem_singleton.mp hnew
      exact absurd (heq.trans h.numbered) (Nat.ne_of_lt hlt)
  single := h.single
  somewhere := by
    intro number given hsent
    rcases getElem?_append_one.mp hsent with hold | ⟨rfl, rfl⟩
    · exact (h.somewhere number given hold).imp_left (List.mem_append_left _)
    · rw [← h.numbered]
      exact Or.inl (List.mem_append_right _ (List.mem_singleton.mpr rfl))

theorem Placed.fits_setCall (h : s.Placed answered) {toolUseId other : String}
    {call phase : ProxyCall}
    (hcall : call.Fits toolUseId) (hother : (s.setCall toolUseId call).calls other = some phase) :
    phase.Fits other := by
  simp only [setCall, Function.update_apply] at hother
  split at hother
  · rename_i hsame
    obtain rfl := Option.some.inj hother
    rw [hsame]
    exact hcall
  · exact h.fits other phase hother

/-- A call without a result begins, waits or ends. -/
theorem Placed.setCall_none (h : s.Placed answered) {toolUseId : String} {call : ProxyCall}
    (hhand : s.inHand toolUseId = none) (hcall : call.sent? = none)
    (hfits : call.Fits toolUseId) : (s.setCall toolUseId call).Placed answered := by
  have hsame : (s.setCall toolUseId call).inHand = s.inHand := by
    funext other
    rw [inHand_setCall]
    split
    · rename_i hother
      rw [hcall, hother, hhand]
    · rfl
  refine ⟨h.numbered, h.queued, ?_, fun other phase => h.fits_setCall hfits, h.distinct, ?_, ?_, ?_⟩
  · rw [hsame]
    exact h.owned
  · rw [hsame]
    exact h.apart
  · rw [hsame]
    exact h.single
  · rw [hsame]
    exact h.somewhere

/-- A call takes the first result into its hands. -/
theorem Placed.taken (h : s.Placed answered) {toolUseId : String} {sent : Sent} {rest : List Sent}
    {call : ProxyCall} (hhand : s.inHand toolUseId = none) (hqueue : s.resultsQ = sent :: rest)
    (hsent : call.sent? = some sent) (hfits : call.Fits toolUseId) :
    ({ s with resultsQ := rest }.setCall toolUseId call).Placed answered := by
  have hfirst : sent ∈ s.resultsQ := by simp [hqueue]
  have hrest : ∀ other ∈ rest, other ∈ s.resultsQ := by
    intro other hother
    rw [hqueue]
    exact List.mem_cons_of_mem _ hother
  have hdistinct := h.distinct
  rw [hqueue, List.map_cons, List.nodup_cons] at hdistinct
  have hhands : ∀ other held, ({ s with resultsQ := rest }.setCall toolUseId call).inHand other =
      some held → other = toolUseId ∧ held = sent ∨ s.inHand other = some held := by
    intro other held hheld
    rw [inHand_setCall] at hheld
    split at hheld
    · rename_i hother
      exact Or.inl ⟨hother, Option.some.inj (hheld.symm.trans hsent)⟩
    · exact Or.inr hheld
  refine ⟨h.numbered, fun other hother => h.queued other (hrest other hother), ?_,
    fun other phase => h.fits_setCall hfits, hdistinct.2, ?_, ?_, ?_⟩
  · intro other held hheld
    rcases hhands other held hheld with ⟨rfl, rfl⟩ | hold
    · exact h.queued held hfirst
    · exact h.owned other held hold
  · intro other held hheld hmem
    rcases hhands other held hheld with ⟨rfl, rfl⟩ | hold
    · exact hdistinct.1 hmem
    · refine h.apart other held hold ?_
      rw [hqueue]
      exact List.mem_cons_of_mem _ hmem
  · intro one other held held' hone hother hnumber
    have hfree : ∀ id held, s.inHand id = some held → held.number ≠ sent.number := by
      intro id held hheld heq
      exact h.apart id held hheld (heq ▸ List.mem_map_of_mem hfirst)
    rcases hhands one held hone with ⟨rfl, rfl⟩ | hold
    · rcases hhands other held' hother with ⟨rfl, rfl⟩ | hold'
      · rfl
      · exact absurd hnumber.symm (hfree other held' hold')
    · rcases hhands other held' hother with ⟨rfl, rfl⟩ | hold'
      · exact absurd hnumber (hfree one held hold)
      · exact h.single one other held held' hold hold' hnumber
  · intro number result hresult
    rcases h.somewhere number result hresult with hmem | ⟨other, hother⟩
    · rw [hqueue] at hmem
      rcases List.mem_cons.mp hmem with rfl | hmem
      · refine Or.inr ⟨toolUseId, ?_⟩
        rw [inHand_setCall, if_pos rfl, hsent]
      · exact Or.inl hmem
    · refine Or.inr ⟨other, ?_⟩
      rw [inHand_setCall, if_neg]
      · exact hother
      · rintro rfl
        rw [hhand] at hother
        cases hother

theorem Placed.putBack (h : s.Placed answered) {toolUseId : String} {sent : Sent} {call : ProxyCall}
    (hhand : s.inHand toolUseId = some sent) (hcall : call.sent? = none)
    (hfits : call.Fits toolUseId) :
    ({ s with resultsQ := s.resultsQ ++ [sent] }.setCall toolUseId call).Placed answered := by
  have hhands : ∀ other held,
      ({ s with resultsQ := s.resultsQ ++ [sent] }.setCall toolUseId call).inHand other =
        some held ↔ other ≠ toolUseId ∧ s.inHand other = some held := by
    intro other held
    rw [inHand_setCall]
    split
    · rename_i hother
      simp [hcall, hother]
    · rename_i hother
      simp only [ne_eq, hother, not_false_eq_true, true_and]
      rfl
  refine ⟨h.numbered, ?_, ?_, fun other phase => h.fits_setCall hfits, ?_, ?_, ?_, ?_⟩
  · intro other hother
    rcases List.mem_append.mp hother with hold | hnew
    · exact h.queued other hold
    · obtain rfl := List.mem_singleton.mp hnew
      exact h.owned toolUseId other hhand
  · intro other held hheld
    exact h.owned other held ((hhands other held).mp hheld).2
  · simp only [setCall, List.map_append]
    apply List.Nodup.append h.distinct (List.nodup_singleton _)
    intro number hold hnew
    obtain rfl := List.mem_singleton.mp hnew
    exact h.apart toolUseId sent hhand hold
  · intro other held hheld hmem
    obtain ⟨hne, hold⟩ := (hhands other held).mp hheld
    simp only [setCall, List.map_append] at hmem
    rcases List.mem_append.mp hmem with hqueued | hnew
    · exact h.apart other held hold hqueued
    · exact hne (h.single other toolUseId held sent hold hhand (List.mem_singleton.mp hnew))
  · intro one other held held' hone hother hnumber
    exact h.single one other held held' ((hhands one held).mp hone).2
      ((hhands other held').mp hother).2 hnumber
  · intro number result hresult
    rcases h.somewhere number result hresult with hmem | ⟨other, hother⟩
    · exact Or.inl (List.mem_append_left _ hmem)
    · by_cases hsame : other = toolUseId
      · rw [hsame, hhand] at hother
        obtain rfl := Option.some.inj hother
        exact Or.inl (List.mem_append_right _ (List.mem_singleton.mpr rfl))
      · exact Or.inr ⟨other, (hhands other _).mpr ⟨hsame, hother⟩⟩

theorem Placed.finish (h : s.Placed answered) (raised : Option Raised) :
    (s.finish session raised).Placed answered := by
  unfold SdkRun.finish
  split
  · exact h.of_eq rfl rfl rfl
  · exact h.of_eq rfl rfl rfl

/-- A step that answers no proposal. -/
theorem Placed.unanswered {t : SdkRun} (h : t.Placed answered) {k : SdkStep}
    (hk : s.answer? k = none) : t.Placed (answered ++ (s.answer? k).toList) := by
  rw [hk, Option.toList_none, List.append_nil]
  exact h

theorem Placed.resume (h : s.Placed answered) (given : Option ToolResult) :
    (s.resume given).Placed (answered ++ (s.answer? (.resume given)).toList) := by
  have hnone (hgenerator : ∀ proposal, s.generator ≠ .paused (.proposal proposal)) :
      s.answer? (.resume given) = none := by
    cases given with
    | none => rfl
    | some result => simp only [answer?]
  unfold SdkRun.resume
  split
  · rename_i hstarting
    refine Placed.unanswered ?_ (hnone (by simp [hstarting]))
    exact h.of_eq rfl rfl rfl
  · rename_i event hpaused
    refine Placed.unanswered ?_ (hnone (by simp [hpaused]))
    exact h.of_eq rfl rfl rfl
  · rename_i proposal hpaused
    cases given with
    | some result =>
        simp only [answer?, hpaused, Option.toList_some]
        exact h.send result
    | none =>
        refine Placed.unanswered ?_ rfl
        exact h.of_eq rfl rfl rfl
  · rename_i hpaused
    exact h.unanswered (hnone (by simpa using hpaused))

theorem Placed.take (h : s.Placed answered) (toolUseId : String) :
    (s.take toolUseId).Placed answered := by
  unfold SdkRun.take
  split
  · rename_i sent rest hwaiting hqueue
    have hhand : s.inHand toolUseId = none := by
      rw [inHand, hwaiting]
      rfl
    split
    · rename_i hown
      exact h.taken hhand hqueue rfl hown
    · rename_i hother
      exact h.taken hhand hqueue rfl hother
  · exact h

theorem Placed.step (h : s.Placed answered) (k : SdkStep) :
    (s.step session k).Placed (answered ++ (s.answer? k).toList) := by
  cases k with
  | next =>
      refine Placed.unanswered ?_ rfl
      rw [SdkRun.step, SdkRun.next]
      split
      · exact h.of_eq rfl rfl rfl
      · exact h.of_eq rfl rfl rfl
      · exact h
  | resume sent => exact h.resume sent
  | close =>
      refine Placed.unanswered ?_ rfl
      rw [SdkRun.step, SdkRun.close]
      split
      · exact h.of_eq rfl rfl rfl
      · exact h.of_eq rfl rfl rfl
      · exact h
  | timeout =>
      refine Placed.unanswered ?_ rfl
      rw [SdkRun.step, SdkRun.timeout]
      split
      · exact h.of_eq rfl rfl rfl
      · exact h
  | connect =>
      refine Placed.unanswered ?_ rfl
      rw [SdkRun.step, SdkRun.connect]
      split
      · exact h.of_eq rfl rfl rfl
      · exact h
  | message msg =>
      refine Placed.unanswered ?_ rfl
      change (s.message session msg).Placed answered
      unfold SdkRun.message
      split
      · cases msg with
        | assistant content => exact h.of_eq rfl rfl rfl
        | result attrs => exact h.of_eq rfl rfl rfl
        | other => exact h
      · exact h
  | streamEnds =>
      refine Placed.unanswered ?_ rfl
      rw [SdkRun.step, SdkRun.streamEnds]
      split
      · exact h.of_eq rfl rfl rfl
      · exact h
  | fails raised =>
      refine Placed.unanswered ?_ rfl
      rw [SdkRun.step, SdkRun.fails]
      split
      · exact h.finish (some raised)
      · exact h.of_eq rfl rfl rfl
      · exact h
  | closes raised =>
      refine Placed.unanswered ?_ rfl
      rw [SdkRun.step, SdkRun.closes]
      split
      · exact h.finish _
      · exact h
  | call toolUseId abstractName args =>
      refine Placed.unanswered ?_ rfl
      rw [SdkRun.step, SdkRun.call]
      split
      · exact h
      · split
        · rename_i hnew
          have hhand : s.inHand toolUseId = none := by
            rw [inHand, hnew.1]
            rfl
          have hcall : (s.setCall toolUseId .waiting).Placed answered :=
            h.setCall_none hhand rfl trivial
          exact hcall.of_eq rfl rfl rfl
        · exact h
  | take toolUseId => exact (h.take toolUseId).unanswered rfl
  | putBack toolUseId =>
      refine Placed.unanswered ?_ rfl
      rw [SdkRun.step, SdkRun.putBack]
      split
      · rename_i sent hholding
        have hhand : s.inHand toolUseId = some sent := by
          rw [inHand, hholding]
          rfl
        exact h.putBack hhand rfl trivial
      · exact h
  | giveUp toolUseId =>
      refine Placed.unanswered ?_ rfl
      rw [SdkRun.step, SdkRun.giveUp]
      split
      · rename_i hwaiting
        have hhand : s.inHand toolUseId = none := by
          rw [inHand, hwaiting]
          rfl
        exact h.setCall_none hhand rfl trivial
      · exact h

variable (session) in
theorem placed_after (steps : List SdkStep) :
    (after session steps).Placed (answers session steps) := by
  have hrun : ∀ (s : SdkRun) answered, s.Placed answered →
      (run (SdkRun.step session) s steps).Placed (answered ++ answersFrom session s steps) := by
    induction steps with
    | nil =>
        intro s answered h
        rw [answersFrom, List.append_nil]
        exact h
    | cons k rest ih =>
        intro s answered h
        rw [answersFrom, ← List.append_assoc]
        exact ih _ _ (h.step k)
  exact hrun (initial session) [] (placed_initial session)

/-! ### What is returned -/

theorem calls_setCall_of_waits {toolUseId other : String} (call : ProxyCall)
    (h : s.Waits toolUseId) :
    (s.setCall toolUseId call).calls other = s.calls other ∨ s.Waits other := by
  by_cases hother : other = toolUseId
  · exact Or.inr (hother ▸ h)
  · exact Or.inl (Function.update_of_ne hother _ _)

theorem calls_finish (raised : Option Raised) : (s.finish session raised).calls = s.calls := by
  unfold finish
  split <;> rfl

/-- A step changes a call only while it waits, or before it is made. -/
theorem calls_step (k : SdkStep) (toolUseId : String) :
    (s.step session k).calls toolUseId = s.calls toolUseId ∨ s.calls toolUseId = none ∨
      s.Waits toolUseId := by
  cases k with
  | next =>
      rw [step, next]
      split <;> exact Or.inl rfl
  | resume sent =>
      change (s.resume sent).calls toolUseId = _ ∨ _
      unfold resume
      split
      · exact Or.inl rfl
      · exact Or.inl rfl
      · split <;> exact Or.inl rfl
      · exact Or.inl rfl
  | close =>
      rw [step, close]
      split <;> exact Or.inl rfl
  | timeout =>
      rw [step, timeout]
      split <;> exact Or.inl rfl
  | connect =>
      rw [step, connect]
      split <;> exact Or.inl rfl
  | message msg =>
      change (s.message session msg).calls toolUseId = _ ∨ _
      unfold message
      split
      · cases msg <;> exact Or.inl rfl
      · exact Or.inl rfl
  | streamEnds =>
      rw [step, streamEnds]
      split <;> exact Or.inl rfl
  | fails raised =>
      rw [step, fails]
      split
      · exact Or.inl (congrFun (calls_finish _) toolUseId)
      · exact Or.inl rfl
      · exact Or.inl rfl
  | closes raised =>
      rw [step, closes]
      split
      · exact Or.inl (congrFun (calls_finish _) toolUseId)
      · exact Or.inl rfl
  | call called abstractName args =>
      rw [step, call]
      split
      · exact Or.inl rfl
      · split
        · rename_i hnew
          by_cases hsame : toolUseId = called
          · exact Or.inr (Or.inl (hsame ▸ hnew.1))
          · exact Or.inl (Function.update_of_ne hsame _ _)
        · exact Or.inl rfl
  | take taker =>
      rw [step, take]
      split
      · rename_i hwaiting _
        exact (calls_setCall_of_waits _ (Or.inl hwaiting)).imp_right Or.inr
      · exact Or.inl rfl
  | putBack holder =>
      rw [step, putBack]
      split
      · rename_i sent hholding
        exact (calls_setCall_of_waits _ (Or.inr ⟨sent, hholding⟩)).imp_right Or.inr
      · exact Or.inl rfl
  | giveUp waiter =>
      rw [step, giveUp]
      split
      · rename_i hwaiting
        exact (calls_setCall_of_waits _ (Or.inl hwaiting)).imp_right Or.inr
      · exact Or.inl rfl

theorem not_waits_of_returned {toolUseId : String} {sent : Sent}
    (h : s.calls toolUseId = some (.returned sent)) : ¬ s.Waits toolUseId := by
  rintro (hwaiting | ⟨held, hholding⟩)
  · cases h.symm.trans hwaiting
  · cases h.symm.trans hholding

/-- A call that has returned stays as it is. -/
theorem returned_run {toolUseId : String} {sent : Sent}
    (h : s.calls toolUseId = some (.returned sent)) (steps : List SdkStep) :
    (run (step session) s steps).calls toolUseId = some (.returned sent) := by
  refine run_invariant
    (I := fun t : SdkRun => t.calls toolUseId = some (ProxyCall.returned sent)) h ?_
  intro t k _ ht
  rcases calls_step k toolUseId with hsame | hnone | hwaits
  · exact hsame.trans ht
  · cases ht.symm.trans hnone
  · exact absurd hwaits (not_waits_of_returned ht)

theorem Placed.kept (h : s.Placed answered) {number : Nat} {result : ToolResult}
    (hsent : answered[number]? = some result) (hwaits : s.Waits result.toolUseId) :
    ⟨number, result⟩ ∈ s.resultsQ ∨ ∃ other, other ≠ result.toolUseId ∧
      s.calls other = some (.holding ⟨number, result⟩) := by
  refine (h.somewhere number result hsent).imp_right ?_
  rintro ⟨other, hother⟩
  obtain ⟨call, hcall, hhand⟩ := Option.bind_eq_some_iff.mp hother
  have hfits := h.fits other call hcall
  cases call with
  | holding sent =>
      obtain rfl := Option.some.inj hhand
      exact ⟨other, Ne.symm hfits, hcall⟩
  | returned sent =>
      obtain rfl := Option.some.inj hhand
      obtain rfl : result.toolUseId = other := hfits
      exact absurd hwaits (not_waits_of_returned hcall)
  | waiting => cases hhand
  | ended => cases hhand

theorem putBack_of_holding {toolUseId : String} {sent : Sent}
    (h : s.calls toolUseId = some (.holding sent)) : s.putBack toolUseId =
      { s with resultsQ := s.resultsQ ++ [sent] }.setCall toolUseId .waiting := by
  rw [putBack, h]

variable (session) in
/-- A waiting call goes through the queue until it finds a result of its own. -/
theorem returnable_of_queued {toolUseId : String} {sent : Sent} (position : Nat)
    (hcall : s.calls toolUseId = some .waiting) (hqueue : s.resultsQ[position]? = some sent)
    (hown : sent.result.toolUseId = toolUseId) :
    ∃ more : List SdkStep, (∀ k ∈ more, k.passesResults = true) ∧
      ∃ returned, (run (step session) s more).calls toolUseId = some (.returned returned) := by
  induction position generalizing s with
  | zero =>
      obtain ⟨first, rest, hfirst⟩ := List.exists_cons_of_ne_nil (List.ne_nil_of_mem
        (List.mem_of_getElem? hqueue))
      obtain rfl : first = sent := by simpa [hfirst] using hqueue
      refine ⟨[.take toolUseId], by simp [SdkStep.passesResults], first, ?_⟩
      simp [run, step, take, hcall, hfirst, hown, setCall]
  | succ position ih =>
      obtain ⟨first, rest, hfirst⟩ := List.exists_cons_of_ne_nil (List.ne_nil_of_mem
        (List.mem_of_getElem? hqueue))
      by_cases hlucky : first.result.toolUseId = toolUseId
      · refine ⟨[.take toolUseId], by simp [SdkStep.passesResults], first, ?_⟩
        simp [run, step, take, hcall, hfirst, hlucky, setCall]
      · have hround : (s.take toolUseId).putBack toolUseId =
            { s with resultsQ := rest ++ [first] }.setCall toolUseId .waiting := by
          simp [take, putBack, hcall, hfirst, hlucky, setCall]
        have hposition : rest[position]? = some sent := by simpa [hfirst] using hqueue
        have hlt := (List.getElem?_eq_some_iff.mp hposition).1
        obtain ⟨more, hmore, returned, hreturned⟩ := ih
          (s := { s with resultsQ := rest ++ [first] }.setCall toolUseId .waiting)
          (Function.update_self _ _ _) ((List.getElem?_append_left hlt).trans hposition)
        refine ⟨.take toolUseId :: .putBack toolUseId :: more, ?_, returned, ?_⟩
        · simpa [SdkStep.passesResults] using hmore
        · simpa only [run, List.foldl_cons, step, hround] using hreturned

variable (session) in
/-- A result in the queue is enough for its call to return. -/
theorem returnable_of_mem {toolUseId : String} {sent : Sent} (hwaits : s.Waits toolUseId)
    (hqueue : sent ∈ s.resultsQ) (hown : sent.result.toolUseId = toolUseId) :
    ∃ more : List SdkStep, (∀ k ∈ more, k.passesResults = true) ∧
      ∃ returned, (run (step session) s more).calls toolUseId = some (.returned returned) := by
  rcases hwaits with hwaiting | ⟨held, hholding⟩
  · obtain ⟨position, hposition⟩ := List.mem_iff_getElem?.mp hqueue
    exact returnable_of_queued session position hwaiting hposition hown
  · have hback := putBack_of_holding hholding
    have hstill : sent ∈ (s.putBack toolUseId).resultsQ := by
      rw [hback]
      exact List.mem_append_left _ hqueue
    obtain ⟨position, hposition⟩ := List.mem_iff_getElem?.mp hstill
    have hwaiting : (s.putBack toolUseId).calls toolUseId = some .waiting := by
      rw [hback]
      exact Function.update_self _ _ _
    obtain ⟨more, hmore, returned, hreturned⟩ :=
      returnable_of_queued session position hwaiting hposition hown
    refine ⟨.putBack toolUseId :: more, ?_, returned, hreturned⟩
    simpa [SdkStep.passesResults] using hmore

theorem Placed.returnable (h : s.Placed answered) {number : Nat} {result : ToolResult}
    (hsent : answered[number]? = some result) (hwaits : s.Waits result.toolUseId) :
    ∃ more : List SdkStep, (∀ k ∈ more, k.passesResults = true) ∧ ∃ returned,
      (run (SdkRun.step session) s more).calls result.toolUseId = some (.returned returned) := by
  rcases h.kept hsent hwaits with hqueue | ⟨other, hne, hholding⟩
  · exact returnable_of_mem session hwaits hqueue rfl
  · have hback := putBack_of_holding hholding
    have hqueue : (⟨number, result⟩ : Sent) ∈ (s.putBack other).resultsQ := by
      rw [hback]
      exact List.mem_append_right _ (List.mem_singleton.mpr rfl)
    have hsame : (s.putBack other).calls result.toolUseId = s.calls result.toolUseId := by
      rw [hback]
      exact Function.update_of_ne (Ne.symm hne) _ _
    have hstill : (s.putBack other).Waits result.toolUseId := by
      rw [Waits, hsame]
      exact hwaits
    obtain ⟨more, hmore, returned, hreturned⟩ :=
      returnable_of_mem session hstill hqueue rfl
    refine ⟨.putBack other :: more, ?_, returned, hreturned⟩
    simpa [SdkStep.passesResults] using hmore

/-- In every run, whatever the order of its steps, the results that answer the
proposals go to the calls they are for. A result that is sent where no proposal
was yielded answers none, and is dropped. -/
theorem results_routed (session : Session) (steps : List SdkStep) :
    (after session steps).Routed session (answers session steps) := by
  have h := placed_after session steps
  refine ⟨?_, ?_, fun toolUseId returned hreturned => returned_run hreturned,
    fun number result => h.kept, fun number result => h.returnable⟩
  · intro toolUseId returned hreturned
    have hhand : (after session steps).inHand toolUseId = some returned := by
      rw [inHand, hreturned]
      rfl
    exact ⟨h.fits toolUseId _ hreturned, h.owned toolUseId returned hhand⟩
  · intro toolUseId returned hreturned
    have hhand : (after session steps).inHand toolUseId = some returned := by
      rw [inHand, hreturned]
      rfl
    exact ⟨h.apart toolUseId returned hhand,
      fun other held hheld hnumber =>
        h.single other toolUseId held returned hheld hhand hnumber⟩

/-! ### Results sent at other yields -/

/-- A result that is sent at any yield is kept while its call waits. -/
def KeepsEveryResult (session : Session) (steps : List SdkStep) : Prop :=
  ∀ before result later event, steps = before ++ .resume (some result) :: later →
    (after session before).generator = .paused event →
    (after session steps).Waits result.toolUseId →
    (∃ sent ∈ (after session steps).resultsQ, sent.result = result) ∨
      ∃ other sent, other ≠ result.toolUseId ∧
        (after session steps).calls other = some (.holding sent) ∧ sent.result = result

/-- A session that may read files. -/
def readSession : Session where
  aggregateId := "agg-1"
  persona := "builder"
  model := "claude-opus-4-7"
  settingSources := []
  clientTools := ["Read"]
  reprError error := error.message

/-- Its caller sends the result at the text in front of the proposal. -/
def earlyResult : List SdkStep := [.resume none, .connect,
  .message (.assistant [.object [("type", .str "text"), ("text", .str "I read it.")]]),
  .call "toolu_1" "Read" [], .next, .resume (some ⟨"toolu_1", .str "content", false⟩)]

/-- The generator drops it, and its call waits on. -/
theorem not_keepsEveryResult : ¬KeepsEveryResult readSession earlyResult := by
  intro hkeeps
  rcases hkeeps [.resume none, .connect,
      .message (.assistant [.object [("type", .str "text"), ("text", .str "I read it.")]]),
      .call "toolu_1" "Read" [], .next] _ [] _ rfl rfl (Or.inl rfl) with
    ⟨sent, hsent, -⟩ | ⟨other, sent, hother, hholding, -⟩
  · cases hsent
  · have hnone : (after readSession earlyResult).calls other = none :=
      Function.update_of_ne hother _ _
    rw [hnone] at hholding
    cases hholding

end SdkRun

end ClaudeSdk

end ForgeOS
