import Mathlib.Data.List.Pairwise
import Mathlib.Data.List.Count

/-!
Histories that are admitted one element at a time: an element is admitted if
fewer than a limit of those before are near to it. Nearness is any relation, so
that it may put elements into classes which are limited each by itself.
-/

namespace Library

variable {α : Type}

/-- Every element of the history found fewer than the limit before it that were
near. -/
inductive Admitted (near : α → α → Bool) (limit : Nat) : List α → Prop
  | nil : Admitted near limit []
  | snoc {history : List α} {x : α} (h : Admitted near limit history)
      (hfew : history.countP (near · x) < limit) : Admitted near limit (history ++ [x])

/-- Elements that are near to one another are no more than the limit. -/
theorem Admitted.countP_le {near : α → α → Bool} {limit : Nat} {history : List α}
    (h : Admitted near limit history) {chosen : α → Bool}
    (hchosen : history.Pairwise fun x y => chosen x = true → chosen y = true → near x y = true) :
    history.countP chosen ≤ limit := by
  induction h with
  | nil => exact Nat.zero_le _
  | @snoc history x h hfew ih =>
      obtain ⟨hbefore, -, hlast⟩ := List.pairwise_append.mp hchosen
      rw [List.countP_append, List.countP_singleton]
      split
      · rename_i hx
        have hnear : history.countP chosen ≤ history.countP (near · x) :=
          List.countP_mono_left fun y hy hchosen =>
            hlast y hy x (List.mem_singleton_self x) hchosen hx
        omega
      · exact ih hbefore

end Library
