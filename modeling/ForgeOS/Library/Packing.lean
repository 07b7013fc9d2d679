import ForgeOS.Library.Trim

/-!
Greedy packing: the items are taken in their order, each that is eligible and
still fits. What is left out and eligible does not fit in the end either.
-/

namespace Library

section Packing

variable {α : Type} (eligible : α → Prop) [DecidablePred eligible] (weight : α → ℕ) (capacity : ℤ)

/-- The items taken and those left out, with so much used already. -/
def pack : ℕ → List α → List α × List α
  | _, [] => ([], [])
  | used, item :: rest =>
      if eligible item ∧ (used + weight item : ℤ) ≤ capacity then
        let packed := pack (used + weight item) rest
        (item :: packed.1, packed.2)
      else
        let packed := pack used rest
        (packed.1, item :: packed.2)

variable {eligible weight capacity}

theorem pack_take {used : ℕ} {item : α} (heligible : eligible item)
    (hfits : (used + weight item : ℤ) ≤ capacity) (rest : List α) :
    pack eligible weight capacity used (item :: rest) =
      (item :: (pack eligible weight capacity (used + weight item) rest).1,
        (pack eligible weight capacity (used + weight item) rest).2) :=
  if_pos ⟨heligible, hfits⟩

theorem pack_leave {used : ℕ} {item : α}
    (h : ¬(eligible item ∧ (used + weight item : ℤ) ≤ capacity)) (rest : List α) :
    pack eligible weight capacity used (item :: rest) =
      ((pack eligible weight capacity used rest).1,
        item :: (pack eligible weight capacity used rest).2) :=
  if_neg h

/-- What is proved of a packing: it divides the items, takes eligible ones in
their order and within the capacity, and could not take more. -/
structure Packed (eligible : α → Prop) (weight : α → ℕ) (capacity : ℤ) (used : ℕ)
    (items taken left : List α) : Prop where
  perm : (taken ++ left).Perm items
  sublist : taken.Sublist items
  admitted : ∀ item ∈ taken, eligible item
  bounded : (used + totalWeight weight taken : ℤ) ≤ capacity
  maximal : ∀ item ∈ left, eligible item →
    capacity < used + totalWeight weight taken + weight item

theorem packed_pack {used : ℕ} (hused : (used : ℤ) ≤ capacity) (items : List α) :
    Packed eligible weight capacity used items (pack eligible weight capacity used items).1
      (pack eligible weight capacity used items).2 := by
  induction items generalizing used with
  | nil =>
      refine ⟨.refl [], .slnil, List.forall_mem_nil _, ?_, List.forall_mem_nil _⟩
      simpa [pack, totalWeight] using hused
  | cons item rest ih =>
      by_cases htaken : eligible item ∧ (used + weight item : ℤ) ≤ capacity
      · have hmore : ((used + weight item : ℕ) : ℤ) ≤ capacity := by exact_mod_cast htaken.2
        obtain ⟨hperm, hsublist, heligible, hbounded, hmaximal⟩ := ih hmore
        rw [pack_take htaken.1 htaken.2]
        refine ⟨hperm.cons item, hsublist.cons_cons item, ?_, ?_, ?_⟩
        · exact List.forall_mem_cons.mpr ⟨htaken.1, heligible⟩
        · rw [totalWeight_cons]
          push_cast at hbounded ⊢
          omega
        · intro other hother hfresh
          have hlater := hmaximal other hother hfresh
          rw [totalWeight_cons]
          push_cast at hlater ⊢
          omega
      · obtain ⟨hperm, hsublist, heligible, hbounded, hmaximal⟩ := ih hused
        rw [pack_leave htaken]
        refine ⟨List.perm_middle.trans (hperm.cons item), hsublist.cons item, heligible,
          hbounded, ?_⟩
        rw [List.forall_mem_cons]
        refine ⟨?_, hmaximal⟩
        intro hitem
        have hover : capacity < used + weight item := by
          by_contra hfits
          exact htaken ⟨hitem, by omega⟩
        omega

end Packing

end Library
