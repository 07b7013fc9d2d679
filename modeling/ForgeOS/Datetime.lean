import ForgeOS.Floats

/-!
Moments, as Python's `datetime` has them, and the time between two of them.
-/

namespace ForgeOS

/-- What `datetime.fromisoformat` gives: a moment in microseconds, of UTC or of
no time zone. -/
inductive PyDatetime where
  | aware (micros : Int)
  | naive (micros : Int)

def PyDatetime.isAware : PyDatetime → Bool
  | .aware _ => true
  | .naive _ => false

def PyDatetime.micros : PyDatetime → Int
  | .aware micros => micros
  | .naive micros => micros

/-- `self - other` in microseconds, which is a `TypeError` between a moment of
UTC and one of no time zone. -/
def PyDatetime.since? : PyDatetime → PyDatetime → Option Int
  | .aware moment, .aware other => some (moment - other)
  | .naive moment, .naive other => some (moment - other)
  | _, _ => none

theorem PyDatetime.since?_isSome_iff (moment other : PyDatetime) :
    (moment.since? other).isSome = true ↔ moment.isAware = other.isAware := by
  cases moment <;> cases other <;> simp [since?, isAware]

def totalSeconds (rnd : Rounding) (micros : Int) : PyFloat := rnd (micros / 1000000)

theorem totalSeconds_mono {rnd : Rounding} (hmono : rnd.Monotone) {micros other : Int}
    (h : micros ≤ other) : (totalSeconds rnd micros).le (totalSeconds rnd other) = true := by
  have hcast : (micros : ℚ) ≤ other := by exact_mod_cast h
  exact hmono _ _ (div_le_div_of_nonneg_right hcast (by norm_num))

end ForgeOS
