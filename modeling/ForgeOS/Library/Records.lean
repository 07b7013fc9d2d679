import Mathlib.Data.List.Forall2
import Mathlib.Data.List.Nodup

/-!
Lists of records that are appended to and changed in place: each record of the
old list stands in the new one, at its place and in a form it may have.
-/

namespace Library

variable {ι : Type} {related : ι → ι → Prop} {records records' : List ι}

/-- Every record is kept, in a related form, and records may be added. -/
def Extends (related : ι → ι → Prop) (records records' : List ι) : Prop :=
  ∃ kept added, records' = kept ++ added ∧ List.Forall₂ related records kept

theorem Extends.refl (hrefl : ∀ record, related record record) (records : List ι) :
    Extends related records records :=
  ⟨records, [], (List.append_nil _).symm, List.forall₂_same.mpr fun record _ => hrefl record⟩

theorem Extends.append (hrefl : ∀ record, related record record) (records added : List ι) :
    Extends related records (records ++ added) :=
  ⟨records, added, rfl, List.forall₂_same.mpr fun record _ => hrefl record⟩

/-- Changing the record at one position. -/
theorem Extends.modify (hrefl : ∀ record, related record record) (records : List ι)
    (position : Nat) {f : ι → ι} (hf : ∀ record, records[position]? = some record →
      related record (f record)) : Extends related records (records.modify position f) := by
  refine ⟨records.modify position f, [], (List.append_nil _).symm, ?_⟩
  induction records generalizing position with
  | nil =>
      rw [List.modify_nil]
      exact .nil
  | cons record rest ih =>
      cases position with
      | zero => exact .cons (hf record rfl) (List.forall₂_same.mpr fun other _ => hrefl other)
      | succ position => exact .cons (hrefl record) (ih position hf)

/-- Changing the first record that meets a condition, where no other does. -/
theorem modify_findIdx {p : ι → Bool} (h : records.Pairwise fun a b => p a = true → p b = false)
    (f : ι → ι) :
    records.modify (records.findIdx p) f =
      records.map fun record => if p record then f record else record := by
  induction records with
  | nil => exact List.modify_nil _ _
  | cons record rest ih =>
      rw [List.pairwise_cons] at h
      rw [List.findIdx_cons, List.map_cons]
      cases hrecord : p record with
      | true =>
          have hrest : rest.map (fun other => if p other then f other else other) = rest := by
            nth_rewrite 2 [← List.map_id rest]
            refine List.map_congr_left fun other hother => ?_
            rw [h.1 other hother hrecord, if_neg Bool.false_ne_true, id]
          rw [hrest]
          rfl
      | false =>
          have hstep := ih h.2
          simp only [cond_false, List.modify_succ_cons, hstep, Bool.false_eq_true, if_false]

/-- Where the keys of records are distinct, one record has the key of a record. -/
theorem countP_key {κ : Type} [DecidableEq κ] {key : ι → κ} (h : (records.map key).Nodup)
    {record : ι} (hmem : record ∈ records) :
    records.countP (fun other => key other = key record) = 1 := by
  have hcount := List.count_eq_one_of_mem h (List.mem_map_of_mem hmem)
  rw [List.count_eq_countP, List.countP_map] at hcount
  rw [← hcount]
  refine List.countP_congr fun other _ => ?_
  simp

/-- Where the keys of records are distinct, a record is found by its key. -/
theorem find?_key {κ : Type} [DecidableEq κ] {key : ι → κ} (h : (records.map key).Nodup)
    {record : ι} (hmem : record ∈ records) :
    (records.find? fun other => key other = key record) = some record := by
  cases hfind : records.find? fun other => key other = key record with
  | none => exact absurd (decide_eq_true rfl) (List.find?_eq_none.mp hfind record hmem)
  | some found =>
      have hkey := List.find?_some hfind
      rw [List.inj_on_of_nodup_map h (List.mem_of_find?_eq_some hfind) hmem
        (of_decide_eq_true hkey)]

end Library
