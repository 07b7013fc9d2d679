import Mathlib.Algebra.Order.BigOperators.Group.List
import Mathlib.Algebra.Order.Field.Basic
import Mathlib.Data.List.GetD
import Mathlib.Data.List.Sort
import Mathlib.Tactic.Linarith

/-!
The mean and the median of a list of numbers. Both lie between its least and
its greatest number, and neither side of the median has more than half of the
list.
-/

namespace Library

section Statistics

variable {κ : Type} [Field κ] [LinearOrder κ]

def mean (values : List κ) : κ := values.sum / values.length

/-- The number in the middle of the sorted list, or halfway between the two
that are. -/
def median (values : List κ) : κ :=
  let sorted := values.insertionSort (· ≤ ·)
  let middle := values.length / 2
  if values.length % 2 = 1 then sorted.getD middle 0
  else (sorted.getD (middle - 1) 0 + sorted.getD middle 0) / (2 : Nat)

/-- Of a sorted list, so many numbers are not above the one at a position. -/
theorem lt_countP_le {sorted : List κ} (hsorted : sorted.Pairwise (· ≤ ·)) {position : Nat}
    (hposition : position < sorted.length) {bound : κ} (hbound : sorted.getD position 0 ≤ bound) :
    position < sorted.countP fun value => value ≤ bound := by
  induction sorted generalizing position with
  | nil => cases hposition
  | cons value rest ih =>
      rw [List.pairwise_cons] at hsorted
      cases position with
      | zero =>
          rw [List.getD_cons_zero] at hbound
          rw [List.countP_cons, if_pos (decide_eq_true hbound)]
          exact Nat.succ_pos _
      | succ position =>
          rw [List.getD_cons_succ] at hbound
          rw [List.length_cons, Nat.succ_lt_succ_iff] at hposition
          have hvalue : value ≤ bound := by
            rw [List.getD_eq_getElem _ _ hposition] at hbound
            exact (hsorted.1 _ (List.getElem_mem hposition)).trans hbound
          rw [List.countP_cons, if_pos (decide_eq_true hvalue)]
          exact Nat.succ_lt_succ (ih hsorted.2 hposition hbound)

/-- And the rest of them are not below it. -/
theorem sub_le_countP_ge {sorted : List κ} (hsorted : sorted.Pairwise (· ≤ ·)) (position : Nat)
    {bound : κ} (hbound : position < sorted.length → bound ≤ sorted.getD position 0) :
    sorted.length - position ≤ sorted.countP fun value => bound ≤ value := by
  induction sorted generalizing position with
  | nil => simp
  | cons value rest ih =>
      rw [List.pairwise_cons] at hsorted
      cases position with
      | zero =>
          have hvalue : bound ≤ value := hbound (Nat.succ_pos _)
          have hall : ∀ other ∈ value :: rest, bound ≤ other := by
            rw [List.forall_mem_cons]
            exact ⟨hvalue, fun other hother => hvalue.trans (hsorted.1 other hother)⟩
          rw [List.countP_eq_length.mpr fun other hother => decide_eq_true (hall other hother)]
          exact Nat.sub_le _ _
      | succ position =>
          have hrest := ih hsorted.2 position fun hlt => by
            simpa using hbound (Nat.succ_lt_succ hlt)
          rw [List.length_cons, Nat.succ_sub_succ]
          exact hrest.trans (List.Sublist.countP_le (List.sublist_cons_self _ _))

variable [IsStrictOrderedRing κ] {values : List κ}

theorem le_mean (h : values ≠ []) {bound : κ} (hbound : ∀ value ∈ values, bound ≤ value) :
    bound ≤ mean values := by
  have hlength : (0 : κ) < values.length := Nat.cast_pos.mpr (List.length_pos_iff.mpr h)
  rw [mean, le_div_iff₀ hlength, mul_comm, ← nsmul_eq_mul]
  exact List.card_nsmul_le_sum values bound hbound

theorem mean_le (h : values ≠ []) {bound : κ} (hbound : ∀ value ∈ values, value ≤ bound) :
    mean values ≤ bound := by
  have hlength : (0 : κ) < values.length := Nat.cast_pos.mpr (List.length_pos_iff.mpr h)
  rw [mean, div_le_iff₀ hlength, mul_comm, ← nsmul_eq_mul]
  exact List.sum_le_card_nsmul values bound hbound

/-- Smaller numbers have a smaller mean. -/
theorem mean_map_le_mean_map {ι : Type} {items : List ι} {f g : ι → κ}
    (h : ∀ item ∈ items, f item ≤ g item) : mean (items.map f) ≤ mean (items.map g) := by
  rw [mean, mean, List.length_map, List.length_map]
  exact div_le_div_of_nonneg_right (List.sum_le_sum h) (Nat.cast_nonneg _)

/-- The median lies between the numbers in the middle. -/
theorem median_between (values : List κ) :
    (values.insertionSort (· ≤ ·)).getD ((values.length - 1) / 2) 0 ≤ median values ∧
      median values ≤ (values.insertionSort (· ≤ ·)).getD (values.length / 2) 0 := by
  have hsorted : (values.insertionSort (· ≤ ·)).Pairwise (· ≤ ·) :=
    List.pairwise_insertionSort _ values
  rw [median]
  split
  · rename_i hodd
    have hsame : (values.length - 1) / 2 = values.length / 2 := by omega
    rw [hsame]
    exact ⟨le_rfl, le_rfl⟩
  · rename_i heven
    by_cases hnil : values.length = 0
    · rw [List.length_eq_zero_iff] at hnil
      subst hnil
      simp
    · have hbefore : (values.length - 1) / 2 = values.length / 2 - 1 := by omega
      have hlower : values.length / 2 - 1 < (values.insertionSort (· ≤ ·)).length := by
        rw [List.length_insertionSort]
        omega
      have hupper : values.length / 2 < (values.insertionSort (· ≤ ·)).length := by
        rw [List.length_insertionSort]
        omega
      have hle : (values.insertionSort (· ≤ ·)).getD (values.length / 2 - 1) 0 ≤
          (values.insertionSort (· ≤ ·)).getD (values.length / 2) 0 := by
        rw [List.getD_eq_getElem _ _ hlower, List.getD_eq_getElem _ _ hupper]
        exact List.pairwise_iff_getElem.mp hsorted _ _ hlower hupper (by omega)
      rw [hbefore]
      constructor
      · linarith
      · linarith

/-- Half of the list, at least, is not above the median. -/
theorem length_le_two_mul_countP_le (values : List κ) :
    values.length ≤ 2 * values.countP fun value => value ≤ median values := by
  by_cases hnil : values = []
  · subst hnil
    exact Nat.le_refl _
  have hpositive := List.length_pos_iff.mpr hnil
  have hposition : (values.length - 1) / 2 < (values.insertionSort (· ≤ ·)).length := by
    rw [List.length_insertionSort]
    omega
  have hcount := lt_countP_le (List.pairwise_insertionSort _ values) hposition
    (median_between values).1
  rw [(List.perm_insertionSort _ values).countP_eq] at hcount
  omega

/-- And half of it is not below. -/
theorem length_le_two_mul_countP_ge (values : List κ) :
    values.length ≤ 2 * values.countP fun value => median values ≤ value := by
  have hcount := sub_le_countP_ge (List.pairwise_insertionSort _ values) (values.length / 2)
    fun _ => (median_between values).2
  rw [(List.perm_insertionSort _ values).countP_eq, List.length_insertionSort] at hcount
  omega

theorem le_median (h : values ≠ []) {bound : κ} (hbound : ∀ value ∈ values, bound ≤ value) :
    bound ≤ median values := by
  have hcount := length_le_two_mul_countP_le values
  have hpositive := List.length_pos_iff.mpr h
  obtain ⟨value, hvalue, hle⟩ := List.countP_pos_iff.mp
    (show 0 < values.countP fun value => value ≤ median values by omega)
  exact (hbound value hvalue).trans (of_decide_eq_true hle)

theorem median_le (h : values ≠ []) {bound : κ} (hbound : ∀ value ∈ values, value ≤ bound) :
    median values ≤ bound := by
  have hcount := length_le_two_mul_countP_ge values
  have hpositive := List.length_pos_iff.mpr h
  obtain ⟨value, hvalue, hle⟩ := List.countP_pos_iff.mp
    (show 0 < values.countP fun value => median values ≤ value by omega)
  exact (of_decide_eq_true hle).trans (hbound value hvalue)

end Statistics

end Library
