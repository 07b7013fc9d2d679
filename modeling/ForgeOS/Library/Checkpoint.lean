import Mathlib.Data.List.Basic
import Mathlib.Data.List.Sort

/-!
Resuming a fold from a checkpoint. When a list is ordered so that the entries
a checkpoint covers come first, folding the whole list is the same as starting
from the checkpoint and skipping what it covers. The fold may fail.
-/

namespace Library

variable {α σ : Type} {m : Type → Type} [Monad m] [LawfulMonad m]

/-- Fold, leaving out the entries for which `covered` holds. -/
def foldSkipping (covered : α → Bool) (f : σ → α → m σ) (s : σ) (l : List α) : m σ :=
  l.foldlM (fun s a => if covered a then pure s else f s a) s

theorem foldSkipping_eq_filter (covered : α → Bool) (f : σ → α → m σ) (s : σ) (l : List α) :
    foldSkipping covered f s l = (l.filter fun a => !covered a).foldlM f s := by
  induction l generalizing s with
  | nil => rfl
  | cons a rest ih =>
      unfold foldSkipping at ih ⊢
      cases hcov : covered a with
      | true => simp only [List.foldlM_cons, hcov, if_true, pure_bind, ih,
          List.filter_cons, Bool.not_true, Bool.false_eq_true, if_false]
      | false => simp only [List.foldlM_cons, hcov, Bool.false_eq_true, if_false, ih,
          List.filter_cons, Bool.not_false, if_true]

/-- A list in which every covered entry comes before every other one splits
at the checkpoint. -/
theorem filter_append_filter_not {covered : α → Bool} {l : List α}
    (h : l.Pairwise fun a b => covered b = true → covered a = true) :
    l.filter covered ++ l.filter (fun a => !covered a) = l := by
  induction l with
  | nil => rfl
  | cons a rest ih =>
      obtain ⟨hhead, htail⟩ := List.pairwise_cons.mp h
      cases hcov : covered a with
      | true =>
          simp only [List.filter_cons, hcov, if_true, Bool.not_true, Bool.false_eq_true, if_false,
            List.cons_append, ih htail]
      | false =>
          have hnone : rest.filter covered = [] := by
            rw [List.filter_eq_nil_iff]
            intro b hb hcovb
            exact absurd (hhead b hb hcovb) (by simp [hcov])
          have hall : rest.filter (fun b => !covered b) = rest := by
            simpa [hnone] using ih htail
          simp only [List.filter_cons, hcov, Bool.false_eq_true, if_false, Bool.not_false, if_true,
            hnone, hall, List.nil_append]

/-- If the checkpoint holds the fold of what it covers, resuming from it gives
the fold of the whole list. -/
theorem foldSkipping_of_checkpoint {covered : α → Bool} {f : σ → α → m σ} {start saved : σ}
    {l : List α} (hsorted : l.Pairwise fun a b => covered b = true → covered a = true)
    (hsaved : (l.filter covered).foldlM f start = pure saved) :
    foldSkipping covered f saved l = l.foldlM f start := by
  calc
    foldSkipping covered f saved l
        = (l.filter fun a => !covered a).foldlM f saved := foldSkipping_eq_filter _ _ _ _
    _ = (l.filter covered).foldlM f start >>=
          (l.filter fun a => !covered a).foldlM f := by rw [hsaved, pure_bind]
    _ = (l.filter covered ++ l.filter fun a => !covered a).foldlM f start := by
          rw [List.foldlM_append]
    _ = l.foldlM f start := by rw [filter_append_filter_not hsorted]

end Library
