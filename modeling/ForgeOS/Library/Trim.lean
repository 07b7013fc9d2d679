import Mathlib.Algebra.BigOperators.Group.List.Basic
import Mathlib.Algebra.GroupWithZero.Nat
import Mathlib.Data.List.Sort
import Mathlib.Order.Lattice

/-!
Trimming a list to a budget: while it weighs too much, its least entry goes,
the first one where several are least. What survives can be told from the
list: an entry does if it fits together with all that would go after it.
-/

namespace Library

section Trim

variable {α κ : Type} [LinearOrder κ] (key : α → κ) (weight : α → ℕ)

/-- `min(entries, key=key)`: the first of the least entries. -/
def firstLeast : List α → Option α
  | [] => none
  | entry :: rest =>
      match firstLeast rest with
      | none => some entry
      | some least => if key least < key entry then some least else some entry

def totalWeight (entries : List α) : ℕ := (entries.map weight).sum

def weightFrom (before : List α) (entry : α) (after : List α) : ℕ :=
  totalWeight weight (before.filter fun other => key entry < key other) + weight entry +
    totalWeight weight (after.filter fun other => key entry ≤ key other)

/-- The first least entry stands between greater ones and ones that are not
smaller. -/
structure LeastAt (before : List α) (entry : α) (after : List α) : Prop where
  before : ∀ other ∈ before, key entry < key other
  after : ∀ other ∈ after, key entry ≤ key other

variable {key}

theorem firstLeast_eq_none {entries : List α} : firstLeast key entries = none ↔ entries = [] := by
  cases entries with
  | nil => exact iff_of_true rfl rfl
  | cons entry rest =>
      refine iff_of_false ?_ (List.cons_ne_nil _ _)
      rw [firstLeast]
      split
      · simp
      · split <;> simp

theorem leastAt_of_firstLeast {entries : List α} {least : α}
    (h : firstLeast key entries = some least) :
    ∃ before after, entries = before ++ least :: after ∧ LeastAt key before least after := by
  induction entries generalizing least with
  | nil => cases h
  | cons entry rest ih =>
      rw [firstLeast] at h
      split at h
      · rename_i hnone
        obtain rfl := Option.some.inj h
        rw [firstLeast_eq_none] at hnone
        exact ⟨[], [], by rw [hnone]; rfl, by simp, by simp⟩
      · rename_i other hother
        obtain ⟨before, after, hrest, hbefore, hafter⟩ := ih hother
        split at h
        · rename_i hlt
          obtain rfl := Option.some.inj h
          refine ⟨entry :: before, after, by rw [hrest, List.cons_append], ?_, hafter⟩
          intro member hmember
          rcases List.mem_cons.mp hmember with rfl | hlater
          · exact hlt
          · exact hbefore member hlater
        · rename_i hle
          obtain rfl := Option.some.inj h
          rw [not_lt] at hle
          refine ⟨[], rest, rfl, by simp, ?_⟩
          intro member hmember
          rw [hrest, List.mem_append, List.mem_cons] at hmember
          rcases hmember with hearlier | rfl | hlater
          · exact hle.trans (hbefore member hearlier).le
          · exact hle
          · exact hle.trans (hafter member hlater)

/-- The first least entry is the first of the sorted list. -/
theorem insertionSort_of_leastAt {before after : List α} {least : α}
    (h : LeastAt key before least after) :
    (before ++ least :: after).insertionSort (fun a b => key a ≤ key b) =
      least :: (before ++ after).insertionSort fun a b => key a ≤ key b := by
  obtain ⟨hbefore, hafter⟩ := h
  induction before with
  | nil =>
      have hleast : ∀ other ∈ after.insertionSort (fun a b => key a ≤ key b),
          key least ≤ key other := fun other hother =>
        hafter other ((List.perm_insertionSort _ _).mem_iff.mp hother)
      rw [List.nil_append, List.nil_append, List.insertionSort_cons]
      cases hsorted : after.insertionSort (fun a b => key a ≤ key b) with
      | nil => rfl
      | cons first rest =>
          rw [hsorted] at hleast
          rw [List.orderedInsert_cons, if_pos (hleast first List.mem_cons_self)]
  | cons first rest ih =>
      rw [List.forall_mem_cons] at hbefore
      rw [List.cons_append, List.insertionSort_cons, ih hbefore.2, List.orderedInsert_cons,
        if_neg (not_le.mpr hbefore.1)]
      rfl

/-- Where keys are distinct, how the entries stood does not matter. -/
theorem insertionSort_perm {entries entries' : List α} (hkeys : (entries.map key).Nodup)
    (h : entries.Perm entries') :
    entries.insertionSort (fun a b => key a ≤ key b) =
      entries'.insertionSort fun a b => key a ≤ key b := by
  have : Std.Total fun a b : α => key a ≤ key b := ⟨fun a b => le_total (key a) (key b)⟩
  have : IsTrans α fun a b => key a ≤ key b := ⟨fun _ _ _ => le_trans⟩
  refine List.Perm.eq_of_pairwise ?_ (List.pairwise_insertionSort _ _)
    (List.pairwise_insertionSort _ _) ?_
  · intro a b ha hb hab hba
    rw [List.mem_insertionSort] at ha hb
    exact List.inj_on_of_nodup_map hkeys ha (h.mem_iff.mpr hb) (le_antisymm hab hba)
  · exact (List.perm_insertionSort _ _).trans (h.trans (List.perm_insertionSort _ _).symm)

theorem totalWeight_perm {entries entries' : List α} (h : entries.Perm entries') :
    totalWeight weight entries = totalWeight weight entries' :=
  (h.map weight).sum_eq

theorem totalWeight_append (entries entries' : List α) :
    totalWeight weight (entries ++ entries') =
      totalWeight weight entries + totalWeight weight entries' := by
  rw [totalWeight, List.map_append, List.sum_append]
  rfl

theorem totalWeight_cons (entry : α) (entries : List α) :
    totalWeight weight (entry :: entries) = weight entry + totalWeight weight entries := by
  rw [totalWeight, List.map_cons, List.sum_cons]
  rfl

theorem totalWeight_sublist {entries entries' : List α} (h : entries.Sublist entries') :
    totalWeight weight entries ≤ totalWeight weight entries' := by
  induction h with
  | slnil => exact Nat.le_refl _
  | cons entry _ ih =>
      rw [totalWeight_cons]
      omega
  | cons_cons entry _ ih =>
      rw [totalWeight_cons, totalWeight_cons]
      omega

theorem totalWeight_filter_le (p : α → Bool) (entries : List α) :
    totalWeight weight (entries.filter p) ≤ totalWeight weight entries :=
  totalWeight_sublist weight List.filter_sublist

theorem weightFrom_map {β : Type} (f : β → α) (before : List β) (entry : β) (after : List β) :
    weightFrom key weight (before.map f) (f entry) (after.map f) =
      weightFrom (fun other => key (f other)) (fun other => weight (f other)) before entry
        after := by
  simp only [weightFrom, totalWeight, List.filter_map, List.map_map]
  rfl

variable (key) in
/-- Nothing weighs more than the whole. -/
theorem weightFrom_le (before : List α) (entry : α) (after : List α) :
    weightFrom key weight before entry after ≤ totalWeight weight (before ++ entry :: after) := by
  rw [weightFrom, totalWeight_append, totalWeight_cons]
  have hbefore := totalWeight_filter_le weight (fun other => key entry < key other) before
  have hafter := totalWeight_filter_le weight (fun other => key entry ≤ key other) after
  omega

/-- The first least entry goes first, and the whole goes with it or later. -/
theorem weightFrom_of_leastAt {before after : List α} {least : α}
    (h : LeastAt key before least after) :
    weightFrom key weight before least after = totalWeight weight (before ++ least :: after) := by
  rw [weightFrom, totalWeight_append, totalWeight_cons,
    List.filter_eq_self.mpr fun other hother => decide_eq_true (h.before other hother),
    List.filter_eq_self.mpr fun other hother => decide_eq_true (h.after other hother)]
  omega

/-- What goes after another entry is unchanged when the first least one goes. -/
theorem weightFrom_remove {before after : List α} {least : α}
    (h : LeastAt key before least after) :
    (∀ left entry right, before = left ++ entry :: right →
      weightFrom key weight left entry (right ++ least :: after) =
        weightFrom key weight left entry (right ++ after)) ∧
    ∀ left entry right, after = left ++ entry :: right →
      weightFrom key weight (before ++ least :: left) entry right =
        weightFrom key weight (before ++ left) entry right := by
  constructor
  · intro left entry right hbefore
    have hgreater : ¬ key entry ≤ key least :=
      not_le.mpr (h.before entry (by simp [hbefore]))
    simp only [weightFrom, List.filter_append, List.filter_cons, decide_eq_true_eq, hgreater,
      if_false]
  · intro left entry right hafter
    have hsmaller : ¬ key entry < key least :=
      not_lt.mpr (h.after entry (by simp [hafter]))
    simp only [weightFrom, List.filter_append, List.filter_cons, decide_eq_true_eq, hsmaller,
      if_false]

variable (key)

/-- The loop: while the entries weigh more than the budget leaves after `base`,
the first least one is removed. -/
def trim (base budget : ℕ) (remove : List α → α → List α) : ℕ → List α → List α
  | 0, entries => entries
  | fuel + 1, entries =>
      if budget < base + totalWeight weight entries then
        match firstLeast key entries with
        | some least => trim base budget remove fuel (remove entries least)
        | none => entries
      else entries

variable {key weight}

/-- While the list weighs too much, removing its first least entry does not
change which entries fit together with those that go after them. -/
private theorem fits_remove_iff {base budget : ℕ} {before after : List α} {least : α}
    (hat : LeastAt key before least after)
    (hover : budget < base + totalWeight weight (before ++ least :: after)) (entry : α) :
    (∃ left right, before ++ after = left ++ entry :: right ∧
        base + weightFrom key weight left entry right ≤ budget) ↔
      ∃ left right, before ++ least :: after = left ++ entry :: right ∧
        base + weightFrom key weight left entry right ≤ budget := by
  obtain ⟨hbefore, hafter⟩ := weightFrom_remove weight hat
  have hwhole := weightFrom_of_leastAt weight hat
  constructor
  · rintro ⟨left, right, hsplit, hfits⟩
    rcases List.append_eq_append_iff.mp hsplit with
      ⟨middle, rfl, rfl⟩ | ⟨middle, rfl, hmiddle⟩
    · exact ⟨before ++ least :: middle, right, by simp,
        by rwa [hafter middle entry right rfl]⟩
    · cases middle with
      | nil =>
          refine ⟨left ++ [least], right, by simp [hmiddle], ?_⟩
          have hsame := hafter [] entry right hmiddle.symm
          rw [List.append_nil, List.append_nil] at hsame
          rwa [hsame]
      | cons first middle =>
          obtain ⟨rfl, rfl⟩ := List.cons.inj hmiddle
          exact ⟨left, middle ++ least :: after, by simp,
            by rwa [hbefore left entry middle rfl]⟩
  · rintro ⟨left, right, hsplit, hfits⟩
    rcases List.append_eq_append_iff.mp hsplit with
      ⟨middle, rfl, hmiddle⟩ | ⟨middle, rfl, hmiddle⟩
    · cases middle with
      | nil =>
          obtain ⟨rfl, rfl⟩ := List.cons.inj hmiddle
          rw [List.append_nil, hwhole] at hfits
          omega
      | cons first middle =>
          obtain ⟨rfl, rfl⟩ := List.cons.inj hmiddle
          rw [hafter middle entry right rfl] at hfits
          exact ⟨before ++ middle, right, by simp, hfits⟩
    · cases middle with
      | nil =>
          obtain ⟨rfl, rfl⟩ := List.cons.inj hmiddle
          rw [List.append_nil] at hwhole hover
          omega
      | cons first middle =>
          obtain ⟨rfl, hright⟩ := List.cons.inj hmiddle
          change right = middle ++ least :: after at hright
          subst hright
          rw [hbefore left entry middle rfl] at hfits
          exact ⟨left, middle ++ after, by simp, hfits⟩

/-- An entry survives exactly when it fits together with all that go after
it. -/
theorem mem_trim_iff {base budget : ℕ} {remove : List α → α → List α}
    (hremove : ∀ before least after, LeastAt key before least after →
      remove (before ++ least :: after) least = before ++ after)
    {fuel : ℕ} {entries : List α} (hfuel : entries.length ≤ fuel) (entry : α) :
    entry ∈ trim key weight base budget remove fuel entries ↔
      ∃ before after, entries = before ++ entry :: after ∧
        base + weightFrom key weight before entry after ≤ budget := by
  induction fuel generalizing entries with
  | zero =>
      obtain rfl := List.length_eq_zero_iff.mp (Nat.le_zero.mp hfuel)
      simp [trim]
  | succ fuel ih =>
      rw [trim]
      split
      · rename_i hover
        cases hleast : firstLeast key entries with
        | none =>
            rw [firstLeast_eq_none] at hleast
            simp [hleast]
        | some least =>
            obtain ⟨before, after, rfl, hat⟩ := leastAt_of_firstLeast hleast
            dsimp only
            rw [hremove before least after hat, ih (by simp at hfuel ⊢; omega)]
            exact fits_remove_iff hat hover entry
      · rename_i hfits
        rw [List.mem_iff_append]
        constructor
        · rintro ⟨left, right, rfl⟩
          have hle := weightFrom_le key weight left entry right
          exact ⟨left, right, rfl, by omega⟩
        · rintro ⟨left, right, hsplit, -⟩
          exact ⟨left, right, hsplit⟩

end Trim

end Library
