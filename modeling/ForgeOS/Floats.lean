import ForgeOS.Json
import ForgeOS.Library.Rounding
import Mathlib.Algebra.Field.Rat
import Mathlib.Algebra.Order.Ring.Rat
import Mathlib.Data.Rat.Floor

/-!
Python's float arithmetic. What an operation gives exactly is turned back into
a float by some rounding; the identity makes the arithmetic exact.
-/

namespace ForgeOS

open Library

/-- How the exact result of an operation becomes a float. -/
abbrev Rounding := ℚ → PyFloat

/-- Every result is kept as it is. -/
def exactly : Rounding := .finite

/-- A larger result does not become a smaller float. -/
def Rounding.Monotone (rnd : Rounding) : Prop :=
  ∀ a b : ℚ, a ≤ b → (rnd a).le (rnd b) = true

/-- What an operation on numbers raises. -/
inductive NumberError where
  /-- `int too large to convert to float` -/
  | intTooLarge
  /-- `cannot convert float NaN to integer` -/
  | nanToInt
  /-- `cannot convert float infinity to integer` -/
  | infinityToInt
  /-- `float division by zero` -/
  | zeroDivision
  /-- `'<=' not supported between instances of … and 'int'` -/
  | notOrdered (typeName : String)
deriving DecidableEq, Repr

namespace PyFloat

def isFinite : PyFloat → Bool
  | .finite _ => true
  | _ => false

/-- `int(value)`, which drops the fraction. -/
def toInt : PyFloat → Except NumberError Int
  | .finite value => .ok (value.num.tdiv value.den)
  | .nan => .error .nanToInt
  | .inf _ => .error .infinityToInt

variable (rnd : Rounding)

/-- `a + b`. -/
def add : PyFloat → PyFloat → PyFloat
  | .finite a, .finite b => rnd (a + b)
  | .nan, _ => .nan
  | _, .nan => .nan
  | .inf a, .inf b => if a = b then .inf a else .nan
  | .inf a, .finite _ => .inf a
  | .finite _, .inf b => .inf b

/-- `a / b`. -/
def div : PyFloat → PyFloat → Except NumberError PyFloat
  | .finite a, .finite b => if b = 0 then .error .zeroDivision else .ok (rnd (a / b))
  | .inf a, .finite b => if b = 0 then .error .zeroDivision else .ok (.inf (a ^^ decide (b < 0)))
  | .nan, .finite b => if b = 0 then .error .zeroDivision else .ok .nan
  | .finite _, .inf _ => .ok (.finite 0)
  | _, _ => .ok .nan

def round (digits : Nat) : PyFloat → PyFloat
  | .finite value => rnd (roundTo (10 ^ digits) value)
  | other => other

/-- The format `.{digits}f`. -/
def fixed (digits : Nat) : PyFloat → String
  | .nan => "nan"
  | .inf negative => if negative then "-inf" else "inf"
  | .finite value =>
      let units := (halfEven (|value| * 10 ^ digits)).toNat
      let fraction := toString (units % 10 ^ digits)
      let padding := String.ofList (List.replicate (digits - fraction.length) '0')
      (if value < 0 then "-" else "") ++ toString (units / 10 ^ digits) ++
        if digits = 0 then "" else "." ++ padding ++ fraction

/-- The format `.0%`. -/
def percent : PyFloat → String
  | .finite value => (rnd (value * 100)).fixed 0 ++ "%"
  | other => other.fixed 0 ++ "%"

end PyFloat

/-- The integers from here on round to a power of two no float reaches. -/
def floatLimit : Nat := 2 ^ 1024 - 2 ^ 970

/-- `float(value)` of an integer. -/
def floatOfInt (rnd : Rounding) (value : Int) : Except NumberError PyFloat :=
  if value.natAbs < floatLimit then .ok (rnd value) else .error .intTooLarge

theorem eq_of_floatOfInt {rnd : Rounding} {value : Int} {number : PyFloat}
    (h : floatOfInt rnd value = .ok number) : number = rnd value := by
  unfold floatOfInt at h
  split at h
  · exact (Except.ok.inj h).symm
  · cases h

/-- `float(value)` of a number that is no boolean; `None` for anything else. -/
def Json.asFloat (rnd : Rounding) : Json → Except NumberError (Option PyFloat)
  | .int value => (floatOfInt rnd value).map some
  | .float value => .ok (some value)
  | _ => .ok none

def Json.operand (rnd : Rounding) : Json → Except NumberError PyFloat
  | .bool value => .ok (.finite (if value then 1 else 0))
  | .int value => floatOfInt rnd value
  | .float value => .ok value
  | other => .error (.notOrdered other.typeName)

/-- `value <= 0`. -/
def Json.leZero (value : Json) : Except NumberError Bool :=
  match value.number? with
  | some number => .ok (number.le (.finite 0))
  | none => .error (.notOrdered value.typeName)

/-! ### Exact arithmetic -/

namespace PyFloat

theorem finite_le_iff {a b : ℚ} : (PyFloat.finite a).le (.finite b) = true ↔ a ≤ b := by
  simp only [le, lt, eq, Bool.or_eq_true, decide_eq_true_eq]
  exact le_iff_lt_or_eq.symm

theorem not_le_of_lt {a b : PyFloat} (h : a.lt b = true) : b.le a = false := by
  cases a with
  | nan => cases h
  | finite a =>
      cases b with
      | nan => cases h
      | finite b =>
          rw [← Bool.not_eq_true, finite_le_iff, not_le]
          exact of_decide_eq_true h
      | inf negative =>
          cases negative with
          | false => rfl
          | true => cases h
  | inf negative =>
      cases b with
      | nan => cases h
      | finite b =>
          obtain rfl : negative = true := h
          rfl
      | inf other => revert h; revert negative other; decide

theorem lt_of_le_of_lt {a b c : PyFloat} (hab : a.le b = true) (hbc : b.lt c = true) :
    a.lt c = true := by
  cases b with
  | nan => cases hbc
  | finite b =>
      cases a with
      | nan => cases hab
      | finite a =>
          cases c with
          | nan => cases hbc
          | finite c =>
              exact decide_eq_true (LE.le.trans_lt (finite_le_iff.mp hab) (of_decide_eq_true hbc))
          | inf negative => exact hbc
      | inf negative =>
          obtain rfl : negative = true := by simpa [le, lt, eq] using hab
          cases c with
          | nan => cases hbc
          | finite c => rfl
          | inf negative => exact hbc
  | inf negative =>
      cases a with
      | nan => cases hab
      | finite a =>
          obtain rfl : negative = false := by simpa [le, lt, eq] using hab
          cases c <;> cases hbc
      | inf other =>
          cases c with
          | nan => cases hbc
          | finite c =>
              obtain rfl : negative = true := hbc
              simpa [le, lt, eq] using hab
          | inf last => revert hab hbc; revert negative other last; decide

@[simp]
theorem isFinite_add (a b : PyFloat) :
    (a.add exactly b).isFinite = (a.isFinite && b.isFinite) := by
  cases a with
  | finite a => cases b <;> rfl
  | nan => rfl
  | inf a =>
      cases b with
      | finite b => rfl
      | nan => rfl
      | inf b =>
          simp only [add]
          split
          · rfl
          · rfl

@[simp]
theorem isFinite_round (digits : Nat) (a : PyFloat) :
    (a.round exactly digits).isFinite = a.isFinite := by
  cases a <;> rfl

theorem isFinite_iff {a : PyFloat} : a.isFinite = true ↔ ∃ value, a = .finite value := by
  constructor
  · intro h
    cases a with
    | finite value => exact ⟨value, rfl⟩
    | nan => cases h
    | inf negative => cases h
  · rintro ⟨value, rfl⟩
    rfl

end PyFloat

/-! ### Data without infinite floats -/

mutual

/-- No float in the value is infinite or NaN. -/
def Json.allFinite : Json → Bool
  | .float value => value.isFinite
  | .arr items => allFiniteItems items
  | .obj entries => allFiniteEntries entries
  | _ => true

def Json.allFiniteItems : List Json → Bool
  | [] => true
  | item :: rest => item.allFinite && allFiniteItems rest

def Json.allFiniteEntries : List (String × Json) → Bool
  | [] => true
  | (_, value) :: rest => value.allFinite && allFiniteEntries rest

end

end ForgeOS
