import ForgeOS.Health.CostCap
import ForgeOS.Library.Effect
import Mathlib.Tactic.Linarith

/-!
`CostThrottle`, with which the daemon decides whether to spend more. It goes by
the cap and the totals of the health check, so that the two say the same; and
in exact arithmetic it does not let go again while events are added.
-/

namespace ForgeOS

open Library

inductive ThrottleReason where
  | overCap
  | storeUnreadable
deriving DecidableEq, Repr

structure ThrottleDecision where
  throttled : Bool
  spentUsd : PyFloat
  costCapUsd : Json
  ratio : Option PyFloat
  reason : Option ThrottleReason := none

def throttleRatio : PyFloat := capWarnRatio

namespace CostThrottle

variable (validate : JsonObject → Except String JsonObject) (rnd : Rounding)

/-- The decision once the cap and the totals are known. -/
def decision (cap : Json) (totals : CostTotals) : Except SpendError ThrottleDecision := do
  let spent := totals.spent
  if ← uncapped cap then
    return { throttled := false, spentUsd := spent, costCapUsd := cap, ratio := none }
  else if !totals.readable then
    return {
      throttled := true
      spentUsd := spent
      costCapUsd := cap
      ratio := none
      reason := some .storeUnreadable }
  else
    let ratio ← spentRatio rnd spent (← capNumber rnd cap)
    let throttled := throttleRatio.le ratio
    return {
      throttled := throttled
      spentUsd := spent
      costCapUsd := cap
      ratio := some ratio
      reason := if throttled then some .overCap else none }

/-- `evaluate()` of a throttle built with a cap. -/
def evaluate (injected : Json) (files : SpendFiles) : Except SpendError ThrottleDecision := do
  let cap ← capInForce validate rnd injected files
  let totals ← CostAggregator.totals rnd files.db
  decision rnd cap totals

/-! ### Throttled and unhealthy -/

/-- Both raise the same, or one is throttled as the other is unhealthy. -/
def Alike (decided : Except SpendError ThrottleDecision)
    (checked : Except SpendError HealthResult) : Prop :=
  match decided, checked with
  | .ok decided, .ok checked => decided.throttled = true ↔ checked.healthy = false
  | .error error, .error error' => error = error'
  | _, _ => False

theorem capWarnRatio_le_of_one_le {ratio : PyFloat} (h : (PyFloat.finite 1).le ratio = true) :
    capWarnRatio.le ratio = true := by
  have hwarn : mkRat 7205759403792794 (2 ^ 53) < 1 := by decide +kernel
  cases ratio with
  | finite value =>
      have hone : (1 : ℚ) ≤ value := PyFloat.finite_le_iff.mp h
      exact PyFloat.finite_le_iff.mpr (hwarn.le.trans hone)
  | nan => cases h
  | inf negative => exact h

theorem decision_alike (cap : Json) (totals : CostTotals) :
    Alike (decision rnd cap totals) (CostCapHealthChecker.verdict rnd cap totals) := by
  unfold decision CostCapHealthChecker.verdict
  cases huncapped : uncapped cap with
  | error error => rfl
  | ok free =>
      cases free with
      | true => exact iff_of_false Bool.false_ne_true (Ne.symm Bool.false_ne_true)
      | false =>
          cases hreadable : totals.readable with
          | false => exact iff_of_true rfl rfl
          | true =>
              cases hnumber : capNumber rnd cap with
              | error error => rfl
              | ok number =>
                  cases hratio : spentRatio rnd totals.spent number with
                  | error error => simp [hratio, Alike]
                  | ok ratio =>
                      simp only [ok_bind, hratio, Bool.false_eq_true, if_false,
                        Bool.not_true, throttleRatio]
                      by_cases hover : (PyFloat.finite 1).le ratio = true
                      · simp [hover, capWarnRatio_le_of_one_le hover, Alike, pure, Except.pure]
                      · by_cases hwarn : capWarnRatio.le ratio = true
                        · simp [hover, hwarn, Alike, pure, Except.pure]
                        · simp [hover, hwarn, Alike, pure, Except.pure]

/-- The throttle and the health check of one cap and one project come to one
verdict: a dreamer is throttled exactly if the check is unhealthy, whatever the
cap and the costs are and however they are rounded. -/
theorem throttled_iff_unhealthy (injected : Json) (files : SpendFiles) :
    Alike (evaluate validate rnd injected files)
      (CostCapHealthChecker.check validate rnd injected files) := by
  unfold evaluate CostCapHealthChecker.check
  cases capInForce validate rnd injected files with
  | error error => rfl
  | ok cap =>
      cases CostAggregator.totals rnd files.db with
      | error error => rfl
      | ok totals => exact decision_alike rnd cap totals

/-! ### Throttled for good -/

theorem uncapped_eq_false {cap : Json} (h : uncapped cap = .ok false) {number : PyFloat}
    (hnumber : capNumber exactly cap = .ok number) : number.le (.finite 0) = false := by
  cases cap with
  | null => cases h
  | bool value =>
      obtain rfl := Except.ok.inj hnumber
      exact Except.ok.inj h
  | int value =>
      cases hfloat : floatOfInt exactly value with
      | error error => simp [capNumber, Json.operand, hfloat, Except.mapError] at hnumber
      | ok float =>
          simp only [capNumber, Json.operand, hfloat, Except.mapError, Except.ok.injEq] at hnumber
          rw [← hnumber, eq_of_floatOfInt hfloat]
          exact Except.ok.inj h
  | float value =>
      obtain rfl := Except.ok.inj hnumber
      exact Except.ok.inj h
  | str value => cases h
  | arr items => cases h
  | obj entries => cases h

/-- More spend is no smaller a share of the cap. -/
theorem spentRatio_mono {cap : PyFloat} (hcap : cap.le (.finite 0) = false) {spent spent' : ℚ}
    (hle : spent ≤ spent') {ratio : PyFloat}
    (h : spentRatio exactly (.finite spent) cap = .ok ratio)
    (hratio : throttleRatio.le ratio = true) :
    ∃ ratio', spentRatio exactly (.finite spent') cap = .ok ratio' ∧
      throttleRatio.le ratio' = true := by
  cases cap with
  | finite cap =>
      have hpositive : 0 < cap := by
        by_contra hnot
        rw [PyFloat.finite_le_iff.mpr (not_lt.mp hnot)] at hcap
        cases hcap
      simp only [spentRatio, PyFloat.div, if_neg hpositive.ne', Except.mapError,
        Except.ok.injEq] at h ⊢
      refine ⟨_, rfl, ?_⟩
      rw [← h] at hratio
      have hshare : spent / cap ≤ spent' / cap := div_le_div_of_nonneg_right hle hpositive.le
      exact PyFloat.finite_le_iff.mpr ((PyFloat.finite_le_iff.mp hratio).trans hshare)
  | nan => exact ⟨ratio, h, hratio⟩
  | inf negative => exact ⟨ratio, h, hratio⟩

/-- A throttle is on when there is a cap, and the store is unreadable or the
spend is at the ratio. -/
theorem decision_throttled_iff {cap : Json} {totals : CostTotals} :
    (∃ decided, decision rnd cap totals = .ok decided ∧ decided.throttled = true) ↔
      uncapped cap = .ok false ∧ (totals.readable = false ∨ totals.readable = true ∧
        ∃ number ratio, capNumber rnd cap = .ok number ∧
          spentRatio rnd totals.spent number = .ok ratio ∧ throttleRatio.le ratio = true) := by
  constructor
  · rintro ⟨decided, h, hthrottled⟩
    obtain ⟨free, huncapped, h⟩ := bind_eq_ok_iff.mp h
    cases free with
    | true =>
        rw [← Except.ok.inj h] at hthrottled
        cases hthrottled
    | false =>
        refine ⟨huncapped, ?_⟩
        cases hreadable : totals.readable with
        | false => exact Or.inl rfl
        | true =>
            simp only [hreadable, Bool.false_eq_true, Bool.not_true, if_false] at h
            obtain ⟨number, hnumber, h⟩ := bind_eq_ok_iff.mp h
            obtain ⟨ratio, hratio, h⟩ := bind_eq_ok_iff.mp h
            rw [← Except.ok.inj h] at hthrottled
            exact Or.inr ⟨rfl, number, ratio, hnumber, hratio, hthrottled⟩
  · rintro ⟨huncapped, hunreadable | ⟨hreadable, number, ratio, hnumber, hratio, hover⟩⟩
    · exact ⟨_, by simp only [decision, huncapped, hunreadable]; rfl, rfl⟩
    · simp only [decision, huncapped, hreadable, hnumber, hratio, ok_bind, pure,
        Except.pure, Bool.false_eq_true, if_false, Bool.not_true]
      exact ⟨_, rfl, hover⟩

/-- More spend under the same cap does not end a throttle. -/
theorem decision_of_grows {cap : Json} {before after : CostTotals} {decided : ThrottleDecision}
    (h : decision exactly cap before = .ok decided) (hthrottled : decided.throttled = true)
    (hgrows : before.Grows after) :
    ∃ decided', decision exactly cap after = .ok decided' ∧ decided'.throttled = true := by
  obtain ⟨huncapped, hbefore⟩ := (decision_throttled_iff exactly).mp ⟨decided, h, hthrottled⟩
  refine (decision_throttled_iff exactly).mpr ⟨huncapped, ?_⟩
  cases hafter : after.readable with
  | false => exact Or.inl rfl
  | true =>
      obtain ⟨hreadable, spent, spent', hspent, hspent', hle⟩ := hgrows hafter
      rcases hbefore with hunreadable | ⟨-, number, ratio, hnumber, hratio, hover⟩
      · rw [hreadable] at hunreadable
        cases hunreadable
      · rw [hspent] at hratio
        obtain ⟨ratio', hratio', hover'⟩ :=
          spentRatio_mono (uncapped_eq_false huncapped hnumber) hle hratio hover
        rw [← hspent'] at hratio'
        exact Or.inr ⟨rfl, number, ratio', hnumber, hratio', hover'⟩

theorem evaluate_eq_ok {injected : Json} {files : SpendFiles} {decided : ThrottleDecision}
    (h : evaluate validate rnd injected files = .ok decided) :
    ∃ cap totals, capInForce validate rnd injected files = .ok cap ∧
      CostAggregator.totals rnd files.db = .ok totals ∧ decision rnd cap totals = .ok decided := by
  obtain ⟨cap, hcap, h⟩ := bind_eq_ok_iff.mp h
  obtain ⟨totals, htotals, h⟩ := bind_eq_ok_iff.mp h
  exact ⟨cap, totals, hcap, htotals, h⟩

section Appended

variable {validate} {injected : Json} {configPath : String} {config : ConfigFile}
  {events : List StoredEvent} {decided : ThrottleDecision}

/-- Where the totals can be taken after rows were added, the throttle is still
on. -/
theorem still_throttled
    (h : evaluate validate exactly injected ⟨configPath, config, .rows events⟩ = .ok decided)
    (hthrottled : decided.throttled = true) {more : List StoredEvent} {after : CostTotals}
    (hafter : CostAggregator.totals exactly (.rows (events ++ more)) = .ok after) :
    ∃ decided', evaluate validate exactly injected ⟨configPath, config, .rows (events ++ more)⟩ =
      .ok decided' ∧ decided'.throttled = true := by
  obtain ⟨cap, before, hcap, hbefore, hdecision⟩ := evaluate_eq_ok validate exactly h
  have hgrows := (CostAggregator.totals_append hbefore more).1 after hafter
  obtain ⟨decided', hdecided', hstill⟩ := decision_of_grows hdecision hthrottled hgrows
  have hcap' : capInForce validate exactly injected
      ⟨configPath, config, .rows (events ++ more)⟩ = .ok cap := hcap
  refine ⟨decided', ?_, hstill⟩
  simp only [evaluate, hcap', hafter, ok_bind]
  exact hdecided'

/-- Rows added to the store never end a throttle; where their costs convert,
the throttle is found on again. -/
theorem throttled_append
    (h : evaluate validate exactly injected ⟨configPath, config, .rows events⟩ = .ok decided)
    (hthrottled : decided.throttled = true) (more : List StoredEvent) :
    (∀ decided', evaluate validate exactly injected ⟨configPath, config, .rows (events ++ more)⟩ =
        .ok decided' → decided'.throttled = true) ∧
      ((∀ event ∈ more, event.CostConverts) →
        ∃ decided', evaluate validate exactly injected
          ⟨configPath, config, .rows (events ++ more)⟩ = .ok decided' ∧
            decided'.throttled = true) := by
  constructor
  · intro decided' hdecided'
    obtain ⟨-, after, -, hafter, -⟩ := evaluate_eq_ok validate exactly hdecided'
    obtain ⟨other, hother, hstill⟩ := still_throttled h hthrottled hafter
    rw [hdecided', Except.ok.injEq] at hother
    rwa [hother]
  · intro hconverts
    obtain ⟨-, before, -, hbefore, -⟩ := evaluate_eq_ok validate exactly h
    obtain ⟨after, hafter⟩ := (CostAggregator.totals_append hbefore more).2 hconverts
    exact still_throttled h hthrottled hafter

/-- A row of a completed spawn that names a cost. -/
def completedSpawn (cost : ℚ) : StoredEvent :=
  ⟨"run", completedType, some (.json (.obj
    [("metadata", .obj [("total_cost_usd", .float (.finite cost))])]))⟩

/-- A throttle that one dollar spent of one trips outlasts a spawn that claims
to have cost -5. -/
theorem throttled_append_refund :
    ∃ decided, evaluate .ok exactly (.float (.finite 1))
        ⟨"config.yaml", .unreadable, .rows ([completedSpawn 1] ++ [completedSpawn (-5)])⟩ =
          .ok decided ∧ decided.throttled = true := by
  have hbefore : (evaluate .ok exactly (.float (.finite 1))
      ⟨"config.yaml", .unreadable, .rows [completedSpawn 1]⟩).map ThrottleDecision.throttled =
        .ok true := by decide +kernel
  cases h : evaluate .ok exactly (.float (.finite 1))
      ⟨"config.yaml", .unreadable, .rows [completedSpawn 1]⟩ with
  | error error => simp [h, Except.map] at hbefore
  | ok decided =>
      rw [h] at hbefore
      refine (throttled_append h (Except.ok.inj hbefore) _).2 ?_
      intro event hevent _ fetched hfetched
      obtain rfl := List.mem_singleton.mp hevent
      obtain rfl := Except.ok.inj hfetched
      exact ⟨_, rfl⟩

/-- One call of `EventStore.append`. -/
structure AppendCall where
  createdAt : String
  streamId : String
  eventType : String
  payload : Option JsonObject

def AppendCall.perform (db : Database) (call : AppendCall) : Database :=
  (db.append call.createdAt call.streamId call.eventType call.payload).2

theorem stored_run (db : Database) (calls : List AppendCall) :
    ∃ more, (run AppendCall.perform db calls).stored = db.stored ++ more := by
  induction calls generalizing db with
  | nil => exact ⟨[], (List.append_nil _).symm⟩
  | cons call rest ih =>
      obtain ⟨more, hmore⟩ := ih (call.perform db)
      rw [AppendCall.perform, Database.stored_append, List.append_assoc] at hmore
      exact ⟨_, hmore⟩

/-- No run of appends to the event store makes a tripped throttle report that
it is off. -/
theorem throttled_of_run {db : Database} {decided' : ThrottleDecision} {calls : List AppendCall}
    (h : evaluate validate exactly injected ⟨configPath, config, .rows db.stored⟩ = .ok decided)
    (hthrottled : decided.throttled = true)
    (h' : evaluate validate exactly injected
      ⟨configPath, config, .rows (run AppendCall.perform db calls).stored⟩ = .ok decided') :
    decided'.throttled = true := by
  obtain ⟨more, hmore⟩ := stored_run db calls
  rw [hmore] at h'
  obtain ⟨-, after, -, hafter, -⟩ := evaluate_eq_ok validate exactly h'
  obtain ⟨other, hother, hstill⟩ := still_throttled h hthrottled hafter
  rw [h', Except.ok.injEq] at hother
  rwa [hother]

end Appended

end CostThrottle

end ForgeOS
