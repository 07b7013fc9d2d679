import Mathlib.Logic.Function.Defs

/-!
The decimal texts of integers, which tell them apart.
-/

namespace Library

theorem nat_repr_injective : Function.Injective Nat.repr := by
  intro m n h
  have hdigits := congrArg String.toList h
  rw [Nat.toList_repr, Nat.toList_repr] at hdigits
  rw [← Nat.ofDigitChars_ten_toDigits (n := m), hdigits, Nat.ofDigitChars_ten_toDigits]

theorem isDigit_of_mem_repr {n : Nat} {c : Char} (h : c ∈ n.repr.toList) : c.isDigit = true := by
  rw [Nat.toList_repr] at h
  exact Nat.isDigit_of_mem_toDigits (by decide) (by decide) h

/-- A text of digits has no sign. -/
theorem sign_not_mem_repr (n : Nat) : '-' ∉ n.repr.toList := fun h => by
  cases isDigit_of_mem_repr h

theorem int_toString_injective : Function.Injective (toString : Int → String) := by
  intro a b h
  rw [Int.toString_eq_repr, Int.toString_eq_repr, Int.repr_eq_if, Int.repr_eq_if] at h
  split at h
  · split at h
    · have hnat := nat_repr_injective h
      omega
    · exact absurd (by rw [h]; simp) (sign_not_mem_repr a.toNat)
  · split at h
    · exact absurd (by rw [← h]; simp) (sign_not_mem_repr b.toNat)
    · have hnat := nat_repr_injective (String.append_right_inj _ |>.mp h)
      omega

/-- The text of an integer has no other characters than digits and its sign. -/
theorem isDigit_of_mem_int {a : Int} {c : Char} (h : c ∈ (toString a).toList) :
    c = '-' ∨ c.isDigit = true := by
  rw [Int.toString_eq_repr, Int.repr_eq_if] at h
  split at h
  · exact .inr (isDigit_of_mem_repr h)
  · rw [String.toList_append, List.mem_append] at h
    rcases h with h | h
    · exact .inl (List.mem_singleton.mp h)
    · exact .inr (isDigit_of_mem_repr h)

end Library
