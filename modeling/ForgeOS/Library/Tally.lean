import ForgeOS.Library.Dict
import Mathlib.Algebra.BigOperators.Group.List.Basic

/-!
Totals over dictionaries. Assigning under a key and popping a key change the
total by what stands under that key.
-/

namespace Library

namespace Dict

variable {κ α M : Type} [DecidableEq κ] [AddCommMonoid M]

/-- The dictionary without the entry of a key, which `pop` leaves behind. -/
def erase (d : Dict κ α) (key : κ) : Dict κ α :=
  match d with
  | [] => []
  | entry :: rest => if entry.1 = key then rest else entry :: erase rest key

/-- What the values of a dictionary amount to. -/
def total (measure : α → M) (d : Dict κ α) : M := (d.map fun entry => measure entry.2).sum

/-- What stands under a key, nothing for a key that is missing. -/
def amount (measure : α → M) (d : Dict κ α) (key : κ) : M := (d.get? key).elim 0 measure

omit [DecidableEq κ] in
@[simp]
theorem total_nil (measure : α → M) : total measure ([] : Dict κ α) = 0 := rfl

omit [DecidableEq κ] in
theorem total_cons (measure : α → M) (entry : κ × α) (rest : Dict κ α) :
    total measure (entry :: rest) = measure entry.2 + total measure rest := by
  unfold total
  rw [List.map_cons, List.sum_cons]

theorem amount_cons (measure : α → M) (entry : κ × α) (rest : Dict κ α) (key : κ) :
    amount measure (entry :: rest) key =
      if entry.1 = key then measure entry.2 else amount measure rest key := by
  unfold amount
  rw [get?_cons]
  split <;> rfl

theorem total_set (measure : α → M) (d : Dict κ α) (key : κ) (value : α) :
    total measure (d.set key value) + amount measure d key =
      total measure d + measure value := by
  induction d with
  | nil =>
      change measure value + 0 + 0 = 0 + measure value
      rw [add_zero, add_zero, zero_add]
  | cons entry rest ih =>
      rw [amount_cons, set]
      by_cases hkey : entry.1 = key
      · rw [if_pos hkey, if_pos hkey, total_cons, total_cons, add_assoc,
          add_comm (measure value), add_comm (measure entry.2)]
      · rw [if_neg hkey, if_neg hkey, total_cons, total_cons, add_assoc, ih, add_assoc]

theorem total_erase (measure : α → M) (d : Dict κ α) (key : κ) :
    total measure (d.erase key) + amount measure d key = total measure d := by
  induction d with
  | nil => exact add_zero 0
  | cons entry rest ih =>
      rw [amount_cons, erase, total_cons]
      by_cases hkey : entry.1 = key
      · rw [if_pos hkey, if_pos hkey, add_comm]
      · rw [if_neg hkey, if_neg hkey, total_cons, add_assoc, ih]

theorem erase_sublist (d : Dict κ α) (key : κ) : (d.erase key).Sublist d := by
  induction d with
  | nil => exact List.Sublist.slnil
  | cons entry rest ih =>
      rw [erase]
      split
      · exact List.sublist_cons_self entry rest
      · exact ih.cons_cons entry

theorem nodup_keys_erase {d : Dict κ α} (h : (d.map Prod.fst).Nodup) (key : κ) :
    ((d.erase key).map Prod.fst).Nodup :=
  ((erase_sublist d key).map Prod.fst).nodup h

theorem get?_erase {d : Dict κ α} (h : (d.map Prod.fst).Nodup) (key other : κ) :
    (d.erase key).get? other = if key = other then none else d.get? other := by
  induction d with
  | nil => exact (ite_self none).symm
  | cons entry rest ih =>
      rw [List.map_cons, List.nodup_cons] at h
      rw [erase, get?_cons]
      by_cases hkey : entry.1 = key
      · rw [if_pos hkey]
        by_cases hother : key = other
        · rw [if_pos hother]
          exact get?_eq_none (hother ▸ hkey ▸ h.1)
        · rw [if_neg hother, if_neg fun heq => hother (hkey.symm.trans heq)]
      · rw [if_neg hkey, get?_cons, ih h.2]
        by_cases hother : entry.1 = other
        · rw [if_pos hother, if_pos hother, if_neg fun heq => hkey (hother.trans heq.symm)]
        · rw [if_neg hother, if_neg hother]

theorem amount_erase {d : Dict κ α} (h : (d.map Prod.fst).Nodup) (measure : α → M)
    (key other : κ) :
    amount measure (d.erase key) other = if key = other then 0 else amount measure d other := by
  unfold amount
  rw [get?_erase h]
  split <;> rfl

/-! ### Popping several keys -/

/-- The dictionary after a `pop` of each of these keys. -/
def eraseAll (d : Dict κ α) (keys : List κ) : Dict κ α := keys.foldl erase d

theorem nodup_keys_eraseAll {d : Dict κ α} (h : (d.map Prod.fst).Nodup) (keys : List κ) :
    ((d.eraseAll keys).map Prod.fst).Nodup := by
  induction keys generalizing d with
  | nil => exact h
  | cons key rest ih => exact ih (nodup_keys_erase h key)

/-- Popping leaves the total as it is just if there is nothing under any of the
keys. -/
theorem total_eraseAll_iff {d : Dict κ α} (h : (d.map Prod.fst).Nodup) (measure : α → Nat)
    (keys : List κ) :
    total measure (d.eraseAll keys) ≤ total measure d ∧
      (total measure (d.eraseAll keys) = total measure d ↔
        ∀ key ∈ keys, amount measure d key = 0) := by
  induction keys generalizing d with
  | nil => exact ⟨Nat.le_refl _, iff_of_true rfl (by simp)⟩
  | cons key rest ih =>
      obtain ⟨hle, hrest⟩ := ih (nodup_keys_erase h key)
      have hpopped := total_erase measure d key
      change total measure (eraseAll (d.erase key) rest) ≤ _ ∧
        (total measure (eraseAll (d.erase key) rest) = _ ↔ _)
      refine ⟨by omega, ?_⟩
      rw [List.forall_mem_cons]
      constructor
      · intro hsame
        have hnone : amount measure d key = 0 := by omega
        refine ⟨hnone, fun other hother => ?_⟩
        have hothers := hrest.mp (by omega) other hother
        rw [amount_erase h] at hothers
        split at hothers
        · rename_i hkey
          rw [← hkey, hnone]
        · exact hothers
      · rintro ⟨hnone, hothers⟩
        have hkept : ∀ other ∈ rest, amount measure (d.erase key) other = 0 := by
          intro other hother
          rw [amount_erase h]
          split
          · rfl
          · exact hothers other hother
        have hsame := hrest.mpr hkept
        omega

end Dict

end Library
