import Mathlib.Analysis.SpecialFunctions.Pow.Real

/-!
Exponential decay: an amount that halves in every period. Decaying in several
steps decays by the sum of the times, so it is the same for every way of
splitting a time into steps, if each step counts only its own.
-/

namespace Library

/-- What is left of an amount after some time, when it halves in every
`halfLife`. -/
noncomputable def halved (halfLife elapsed amount : ℝ) : ℝ :=
  amount * (1 / 2) ^ (elapsed / halfLife)

/-- What is left of one after so many of these periods. -/
noncomputable def powerOfHalf (exponent : ℝ) : ℝ := (1 / 2) ^ exponent

variable {halfLife elapsed amount : ℝ}

@[simp]
theorem halved_zero_amount (halfLife elapsed : ℝ) : halved halfLife elapsed 0 = 0 := zero_mul _

@[simp]
theorem halved_zero (halfLife amount : ℝ) : halved halfLife 0 amount = amount := by
  rw [halved, zero_div, Real.rpow_zero, mul_one]

/-- After one half-life half of the amount is left. -/
theorem halved_halfLife (hlife : halfLife ≠ 0) (amount : ℝ) :
    halved halfLife halfLife amount = amount / 2 := by
  rw [halved, div_self hlife, Real.rpow_one, one_div, div_eq_mul_inv]

theorem halved_nonneg (halfLife elapsed : ℝ) (hamount : 0 ≤ amount) :
    0 ≤ halved halfLife elapsed amount :=
  mul_nonneg hamount (Real.rpow_nonneg (by norm_num) _)

theorem halved_le (hlife : 0 < halfLife) (helapsed : 0 ≤ elapsed) (hamount : 0 ≤ amount) :
    halved halfLife elapsed amount ≤ amount := by
  have hfactor : ((1 : ℝ) / 2) ^ (elapsed / halfLife) ≤ 1 :=
    Real.rpow_le_one (by norm_num) (by norm_num) (div_nonneg helapsed hlife.le)
  exact mul_le_of_le_one_right hamount hfactor

/-- Two steps decay by the sum of their times. -/
theorem halved_halved (halfLife first second amount : ℝ) :
    halved halfLife second (halved halfLife first amount) =
      halved halfLife (first + second) amount := by
  rw [halved, halved, halved, mul_assoc, ← Real.rpow_add (by norm_num), add_div]

/-- A decay by some time keeps amounts apart. -/
theorem halved_injective (halfLife elapsed : ℝ) : Function.Injective (halved halfLife elapsed) := by
  intro first second h
  have hfactor : ((1 : ℝ) / 2) ^ (elapsed / halfLife) ≠ 0 :=
    (Real.rpow_pos_of_pos (by norm_num) _).ne'
  exact mul_right_cancel₀ hfactor h

/-- Only nothing does not decay, or in no time. -/
theorem halved_eq_self_iff (hlife : 0 < halfLife) (helapsed : 0 ≤ elapsed) :
    halved halfLife elapsed amount = amount ↔ amount = 0 ∨ elapsed = 0 := by
  constructor
  · intro h
    rcases mul_right_eq_self₀.mp h with hone | hzero
    · refine .inr ?_
      by_contra hne
      have hpos : 0 < elapsed / halfLife := div_pos (lt_of_le_of_ne helapsed (Ne.symm hne)) hlife
      exact (Real.rpow_lt_one (by norm_num) (by norm_num) hpos).ne hone
    · exact .inl hzero
  · rintro (rfl | rfl)
    · exact halved_zero_amount _ _
    · exact halved_zero _ _

/-- A whole list of steps decays by the sum of their times. -/
theorem foldl_halved (halfLife : ℝ) (steps : List ℝ) (amount : ℝ) :
    steps.foldl (fun left step => halved halfLife step left) amount =
      halved halfLife steps.sum amount := by
  induction steps generalizing amount with
  | nil => exact (halved_zero _ _).symm
  | cons step rest ih => rw [List.foldl_cons, ih, halved_halved, List.sum_cons]

end Library
