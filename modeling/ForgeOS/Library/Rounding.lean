import Mathlib.Algebra.Order.Floor.Ring
import Mathlib.Algebra.Ring.Int.Parity
import Mathlib.Algebra.Order.Group.Abs
import Mathlib.Algebra.Order.Field.Basic
import Mathlib.Tactic.Linarith
import Mathlib.Tactic.FieldSimp

/-!
Rounding to the nearest integer and to the nearest multiple of a step, ties
going to the even neighbour.
-/

namespace Library

variable {α : Type} [Field α] [LinearOrder α] [IsStrictOrderedRing α] [FloorRing α]

/-- The integer nearest to `x`, of two the even one. -/
def halfEven (x : α) : ℤ :=
  if Int.fract x + Int.fract x < 1 then ⌊x⌋
  else if 1 < Int.fract x + Int.fract x ∨ ¬Even ⌊x⌋ then ⌊x⌋ + 1
  else ⌊x⌋

/-- `x` is nearer to `n` than to any other integer, or lies in the middle and
`n` is even. -/
def RoundsTo (x : α) (n : ℤ) : Prop :=
  |x - n| + |x - n| < 1 ∨ |x - n| + |x - n| = 1 ∧ Even n

theorem roundsTo_halfEven (x : α) : RoundsTo x (halfEven x) := by
  have hfract : Int.fract x = x - ⌊x⌋ := rfl
  have hnonneg := Int.fract_nonneg x
  have hlt := Int.fract_lt_one x
  have hdown : |x - ⌊x⌋| = Int.fract x := by rw [← hfract, abs_of_nonneg hnonneg]
  have hup : |x - (⌊x⌋ + 1 : ℤ)| = 1 - Int.fract x := by
    rw [abs_of_nonpos (by push_cast; linarith)]
    push_cast
    linarith
  unfold halfEven RoundsTo
  split
  · rename_i hhalf
    exact Or.inl (by rwa [hdown])
  · rename_i hhalf
    split
    · rename_i hgreater
      rw [hup]
      rcases lt_or_eq_of_le (not_lt.mp hhalf) with habove | htie
      · exact Or.inl (by linarith)
      · refine Or.inr ⟨by linarith, ?_⟩
        have hodd := hgreater.resolve_left (by rw [← htie]; exact lt_irrefl _)
        exact Int.even_add_one.mpr hodd
    · rename_i hnot
      push Not at hnot
      rw [hdown]
      exact Or.inr ⟨le_antisymm hnot.1 (not_lt.mp hhalf), hnot.2⟩

/-- A larger number is not rounded to a smaller integer. -/
theorem RoundsTo.le {x y : α} {m n : ℤ} (hx : RoundsTo x m) (hy : RoundsTo y n) (h : x ≤ y) :
    m ≤ n := by
  by_contra hgt
  have hstep : (n : α) + 1 ≤ m := by exact_mod_cast not_le.mp hgt
  have hleft := neg_abs_le (x - m)
  have hright := le_abs_self (y - n)
  -- Both lie exactly between the two, which are then neighbours and both even.
  have hdistances : |x - m| + |x - m| = 1 ∧ |y - n| + |y - n| = 1 := by
    rcases hx with hx | ⟨hx, -⟩ <;> rcases hy with hy | ⟨hy, -⟩
    · linarith
    · linarith
    · linarith
    · exact ⟨hx, hy⟩
  have hm : Even m := (hx.resolve_left (by linarith [hdistances.1])).2
  have hn : Even n := (hy.resolve_left (by linarith [hdistances.2])).2
  have hneighbour : m = n + 1 := by
    have hle : (m : α) ≤ n + 1 := by linarith [hdistances.1, hdistances.2]
    exact_mod_cast le_antisymm hle hstep
  rw [hneighbour, Int.even_add_one] at hm
  exact hm hn

theorem halfEven_eq_iff {x : α} {n : ℤ} : halfEven x = n ↔ RoundsTo x n := by
  constructor
  · rintro rfl
    exact roundsTo_halfEven x
  · intro h
    exact le_antisymm ((roundsTo_halfEven x).le h le_rfl) (h.le (roundsTo_halfEven x) le_rfl)

theorem halfEven_mono {x y : α} (h : x ≤ y) : halfEven x ≤ halfEven y :=
  (roundsTo_halfEven x).le (roundsTo_halfEven y) h

@[simp]
theorem halfEven_intCast (n : ℤ) : halfEven (n : α) = n :=
  halfEven_eq_iff.mpr (Or.inl (by simp))

@[simp]
theorem halfEven_zero : halfEven (0 : α) = 0 := by
  exact_mod_cast halfEven_intCast (α := α) 0

/-- The multiple of `1 / scale` nearest to `x`, of two the even one. -/
def roundTo (scale x : α) : α := halfEven (x * scale) / scale

@[simp]
theorem roundTo_zero (scale : α) : roundTo scale 0 = 0 := by
  simp [roundTo]

theorem roundTo_mono {scale : α} (hscale : 0 < scale) {x y : α} (h : x ≤ y) :
    roundTo scale x ≤ roundTo scale y := by
  have hscaled : halfEven (x * scale) ≤ halfEven (y * scale) :=
    halfEven_mono (mul_le_mul_of_nonneg_right h hscale.le)
  exact div_le_div_of_nonneg_right (by exact_mod_cast hscaled) hscale.le

/-- What is a multiple already stays. -/
theorem roundTo_intCast_div {scale : α} (hscale : 0 < scale) (n : ℤ) :
    roundTo scale (n / scale) = n / scale := by
  rw [roundTo, div_mul_cancel₀ _ hscale.ne', halfEven_intCast]

theorem roundTo_eq_intCast_div_iff {scale : α} (hscale : 0 < scale) {x : α} {n : ℤ} :
    roundTo scale x = n / scale ↔ RoundsTo (x * scale) n := by
  rw [roundTo, div_left_inj' hscale.ne', Int.cast_inj, halfEven_eq_iff]

end Library
