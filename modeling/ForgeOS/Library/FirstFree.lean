import Mathlib.Data.List.Nodup
import Mathlib.Data.List.Perm.Subperm
import Mathlib.Data.Nat.Find

/-!
The first free one of a row of candidates. The search takes a turn for each
candidate that is taken; where the candidates differ and finitely many things
are taken, it comes to an end.
-/

namespace Library

section FirstFree

variable {α : Type} (taken : α → Bool) (candidate : Nat → α)

/-- `while taken(candidate): …`, from the `n`-th candidate on, for as many turns
as there is fuel. -/
def firstFree : Nat → Nat → Option Nat
  | 0, _ => none
  | fuel + 1, n => if taken (candidate n) then firstFree fuel (n + 1) else some n

variable {taken candidate}

/-- What is found is free, and nothing before it is. -/
theorem firstFree_eq_some_iff {fuel n found : Nat} :
    firstFree taken candidate fuel n = some found ↔
      n ≤ found ∧ found < n + fuel ∧ taken (candidate found) = false ∧
        ∀ k, n ≤ k → k < found → taken (candidate k) = true := by
  induction fuel generalizing n with
  | zero =>
      refine iff_of_false (fun h => by cases h) ?_
      rintro ⟨hle, hlt, -, -⟩
      omega
  | succ fuel ih =>
      rw [firstFree]
      split
      · rename_i htaken
        rw [ih]
        constructor
        · rintro ⟨hle, hlt, hfree, hbefore⟩
          refine ⟨by omega, by omega, hfree, fun k hk hkfound => ?_⟩
          rcases Nat.eq_or_lt_of_le hk with rfl | hk
          · exact htaken
          · exact hbefore k hk hkfound
        · rintro ⟨hle, hlt, hfree, hbefore⟩
          have hne : n ≠ found := by
            rintro rfl
            exact Bool.false_ne_true (hfree.symm.trans htaken)
          exact ⟨by omega, by omega, hfree, fun k hk hkfound => hbefore k (by omega) hkfound⟩
      · rename_i hfree
        rw [Option.some_inj]
        constructor
        · rintro rfl
          exact ⟨Nat.le_refl n, by omega, Bool.eq_false_iff.mpr hfree, fun k hk hkn => by omega⟩
        · rintro ⟨hle, -, -, hbefore⟩
          rcases Nat.eq_or_lt_of_le hle with rfl | hlt
          · rfl
          · exact absurd (hbefore n (Nat.le_refl n) hlt) hfree

/-- More fuel finds the same. -/
theorem firstFree_of_le {fuel more n found : Nat}
    (h : firstFree taken candidate fuel n = some found) (hmore : fuel ≤ more) :
    firstFree taken candidate more n = some found := by
  obtain ⟨hle, hlt, hrest⟩ := firstFree_eq_some_iff.mp h
  exact firstFree_eq_some_iff.mpr ⟨hle, by omega, hrest⟩

/-- One candidate more than there are things taken: one of them is free. -/
theorem exists_free (hcandidate : Function.Injective candidate) {names : List α}
    (hnames : ∀ name, taken name = true → name ∈ names) (n : Nat) :
    ∃ k, k ≤ names.length ∧ taken (candidate (n + k)) = false := by
  by_contra hnone
  have htaken : ∀ k ≤ names.length, taken (candidate (n + k)) = true := by
    intro k hk
    rw [← Bool.not_eq_false]
    exact fun hfree => hnone ⟨k, hk, hfree⟩
  let tried := (List.range (names.length + 1)).map fun k => candidate (n + k)
  have hnodup : tried.Nodup :=
    List.nodup_range.map fun i j hij => Nat.add_left_cancel (hcandidate hij)
  have hsubset : tried ⊆ names := by
    intro name hname
    obtain ⟨k, hk, rfl⟩ := List.mem_map.mp hname
    exact hnames _ (htaken k (Nat.lt_succ_iff.mp (List.mem_range.mp hk)))
  have hlength : tried.length ≤ names.length := (hnodup.subperm hsubset).length_le
  rw [List.length_map, List.length_range] at hlength
  omega

/-- With enough fuel for the things that are taken, the search finds a free
candidate. -/
theorem exists_firstFree (hcandidate : Function.Injective candidate) {names : List α}
    (hnames : ∀ name, taken name = true → name ∈ names) {fuel : Nat}
    (hfuel : names.length < fuel) (n : Nat) :
    ∃ found, firstFree taken candidate fuel n = some found := by
  obtain ⟨bound, hbound, hboundFree⟩ := exists_free hcandidate hnames n
  have hfree : ∃ k, taken (candidate (n + k)) = false := ⟨bound, hboundFree⟩
  have hleast : Nat.find hfree ≤ bound := Nat.find_min' hfree hboundFree
  have hbefore : ∀ k, n ≤ k → k < n + Nat.find hfree → taken (candidate k) = true := by
    intro k hk hkfound
    obtain ⟨offset, rfl⟩ := Nat.exists_eq_add_of_le hk
    rw [← Bool.not_eq_false]
    exact Nat.find_min hfree (by omega)
  exact ⟨n + Nat.find hfree, firstFree_eq_some_iff.mpr
    ⟨by omega, by omega, Nat.find_spec hfree, hbefore⟩⟩

end FirstFree

end Library
