import Mathlib.Data.Finset.Card
import Mathlib.Logic.Relation

/-!
Depth-first search with a set of visited nodes. The recursion is bounded by
fuel; with as much fuel as there are nodes left to visit, the search visits
exactly what is reachable from its root.
-/

namespace Library

section Reach

variable {κ : Type} [DecidableEq κ] (succ : κ → List κ)

/-- Visit a node and everything behind it, unless it has been visited. -/
def visit : Nat → κ → List κ → List κ
  | 0, _, visited => visited
  | fuel + 1, node, visited =>
      if node ∈ visited then visited
      else (succ node).foldl (fun seen next => visit fuel next seen) (node :: visited)

/-- The edges the search follows. -/
def Edge (a b : κ) : Prop := b ∈ succ a

variable {succ}

private theorem foldl_visit_subset {fuel : Nat}
    (h : ∀ node visited, visited ⊆ visit succ fuel node visited) (nodes visited : List κ) :
    visited ⊆ nodes.foldl (fun seen next => visit succ fuel next seen) visited := by
  induction nodes generalizing visited with
  | nil => exact fun _ hmember => hmember
  | cons node rest ih => exact fun _ hmember => ih _ (h node visited hmember)

variable (succ) in
/-- A visit forgets nothing. -/
theorem subset_visit (fuel : Nat) (node : κ) (visited : List κ) :
    visited ⊆ visit succ fuel node visited := by
  induction fuel generalizing node visited with
  | zero => exact fun _ hmember => hmember
  | succ fuel ih =>
      unfold visit
      split
      · exact fun _ hmember => hmember
      · intro seen hseen
        exact foldl_visit_subset (fun node visited => ih node visited) _ _
          (List.mem_cons_of_mem _ hseen)

/-- What a visit adds is reachable from its node. -/
theorem visit_sound (fuel : Nat) (node : κ) (visited : List κ) :
    ∀ seen ∈ visit succ fuel node visited, seen ∈ visited ∨
      Relation.ReflTransGen (Edge succ) node seen := by
  induction fuel generalizing node visited with
  | zero => exact fun seen hseen => Or.inl hseen
  | succ fuel ih =>
      unfold visit
      split
      · exact fun seen hseen => Or.inl hseen
      · have hloop (nodes : List κ) (hnodes : ∀ next ∈ nodes, next ∈ succ node)
            (start : List κ) : ∀ seen ∈ nodes.foldl
              (fun seen next => visit succ fuel next seen) start,
            seen ∈ start ∨ Relation.ReflTransGen (Edge succ) node seen := by
          induction nodes generalizing start with
          | nil => exact fun seen hseen => Or.inl hseen
          | cons next rest ihNodes =>
              intro seen hseen
              rcases ihNodes (fun other hother => hnodes other (by simp [hother])) _ seen hseen with
                hnext | hreach
              · rcases ih next start seen hnext with hstart | hreach
                · exact Or.inl hstart
                · exact Or.inr (.head (hnodes next (by simp)) hreach)
              · exact Or.inr hreach
        intro seen hseen
        rcases hloop (succ node) (fun next hnext => hnext) _ seen hseen with hstart | hreach
        · rcases List.mem_cons.mp hstart with rfl | hold
          · exact Or.inr .refl
          · exact Or.inl hold
        · exact Or.inr hreach

/-! ### Enough fuel -/

/-- The nodes of a space that have not been visited. -/
def unvisited (space visited : List κ) : Nat :=
  (space.toFinset \ visited.toFinset).card

theorem unvisited_mono (space : List κ) {visited seen : List κ} (h : visited ⊆ seen) :
    unvisited space seen ≤ unvisited space visited := by
  apply Finset.card_le_card
  apply Finset.sdiff_subset_sdiff (Finset.Subset.refl _)
  intro node hnode
  rw [List.mem_toFinset] at hnode ⊢
  exact h hnode

theorem unvisited_cons_lt {space visited : List κ} {node : κ} (hnode : node ∈ space)
    (hnew : node ∉ visited) :
    unvisited space (node :: visited) < unvisited space visited := by
  apply Finset.card_lt_card
  rw [Finset.ssubset_iff_of_subset]
  · exact ⟨node, by simp [hnode, hnew], by simp⟩
  · apply Finset.sdiff_subset_sdiff (Finset.Subset.refl _)
    intro other hother
    rw [List.mem_toFinset] at hother ⊢
    exact List.mem_cons_of_mem _ hother

/-- The nodes added since a visit began have all their successors visited. -/
private def ClosedSince (succ : κ → List κ) (visited after : List κ) : Prop :=
  ∀ seen ∈ after, seen ∉ visited → ∀ next ∈ succ seen, next ∈ after

/-- The loop over some successors, given what the recursive calls do. -/
private theorem foldl_visit_complete {space : List κ} {fuel : Nat}
    (ih : ∀ node visited, node ∈ space → unvisited space visited ≤ fuel →
      node ∈ visit succ fuel node visited ∧
        ClosedSince succ visited (visit succ fuel node visited))
    (nodes start : List κ) (hnodes : ∀ node ∈ nodes, node ∈ space)
    (hstart : unvisited space start ≤ fuel) :
    (∀ node ∈ nodes, node ∈ nodes.foldl (fun seen next => visit succ fuel next seen) start) ∧
      ClosedSince succ start (nodes.foldl (fun seen next => visit succ fuel next seen) start) := by
  induction nodes generalizing start with
  | nil => exact ⟨by simp, fun seen hseen hnew => absurd hseen hnew⟩
  | cons first rest ihNodes =>
      obtain ⟨hfirst, hfirstClosed⟩ := ih first start (hnodes first (by simp)) hstart
      have hgrown := unvisited_mono space (subset_visit succ fuel first start)
      obtain ⟨hrest, hrestClosed⟩ := ihNodes (visit succ fuel first start)
        (fun other hother => hnodes other (by simp [hother])) (by omega)
      have hkept := foldl_visit_subset (subset_visit succ fuel) rest (visit succ fuel first start)
      refine ⟨?_, ?_⟩
      · intro node hnode
        rcases List.mem_cons.mp hnode with rfl | hother
        · exact hkept hfirst
        · exact hrest node hother
      · intro seen hseen hfresh next hnext
        by_cases hearly : seen ∈ visit succ fuel first start
        · exact hkept (hfirstClosed seen hearly hfresh next hnext)
        · exact hrestClosed seen hseen hearly next hnext

/-- With enough fuel a visit reaches its node, and everything it adds has all
its successors visited. -/
private theorem visit_complete {space : List κ}
    (hclosed : ∀ node ∈ space, ∀ next ∈ succ node, next ∈ space) (fuel : Nat) (node : κ)
    (visited : List κ) (hnode : node ∈ space) (hfuel : unvisited space visited ≤ fuel) :
    node ∈ visit succ fuel node visited ∧
      ClosedSince succ visited (visit succ fuel node visited) := by
  induction fuel generalizing node visited with
  | zero =>
      refine ⟨?_, fun seen hseen hnew => absurd hseen hnew⟩
      by_contra hnew
      have hlt : unvisited space (node :: visited) < unvisited space visited :=
        unvisited_cons_lt hnode hnew
      omega
  | succ fuel ih =>
      unfold visit
      split
      · rename_i hseen
        exact ⟨hseen, fun seen hseen hnew => absurd hseen hnew⟩
      · rename_i hnew
        have hlt := unvisited_cons_lt hnode hnew
        obtain ⟨hsuccessors, hadded⟩ := foldl_visit_complete ih (succ node) (node :: visited)
          (hclosed node hnode) (by omega)
        have hkept := foldl_visit_subset (subset_visit succ fuel) (succ node) (node :: visited)
        refine ⟨hkept (by simp), ?_⟩
        intro seen hseen hfresh next hnext
        by_cases hself : seen = node
        · rw [hself] at hnext
          exact hsuccessors next hnext
        · exact hadded seen hseen (by simp [hself, hfresh]) next hnext

/-- From an empty set, with a node of fuel for each node there is, the search
visits exactly the nodes reachable from its root. -/
theorem mem_visit_iff {space : List κ}
    (hclosed : ∀ node ∈ space, ∀ next ∈ succ node, next ∈ space) {root : κ}
    (hroot : root ∈ space) {fuel : Nat} (hfuel : space.length ≤ fuel) (node : κ) :
    node ∈ visit succ fuel root [] ↔ Relation.ReflTransGen (Edge succ) root node := by
  have henough : unvisited space [] ≤ fuel := by
    have hcard := List.toFinset_card_le space
    simp only [unvisited, List.toFinset_nil, Finset.sdiff_empty]
    omega
  obtain ⟨hmember, hadded⟩ := visit_complete hclosed fuel root [] hroot henough
  constructor
  · intro hvisited
    exact (visit_sound fuel root [] node hvisited).resolve_left (by simp)
  · intro hreach
    induction hreach with
    | refl => exact hmember
    | tail _ hedge ih => exact hadded _ ih (by simp) _ hedge

end Reach

/-! ### Cycles -/

section Cycles

open Relation

variable {α : Type} {old new : α → α → Prop} {node : α} {sources : α → Prop}

/-- What is reached with the new edges into a node was reached from that node
before. -/
private theorem reaches_of_replaced
    (hreplaced : ∀ a b, new a b ↔ b = node ∧ sources a ∨ b ≠ node ∧ old a b) {b : α}
    (h : ReflTransGen new node b) : ReflTransGen old node b := by
  induction h with
  | refl => exact .refl
  | tail _ hedge ih =>
      rcases (hreplaced _ _).mp hedge with ⟨rfl, -⟩ | ⟨-, hold⟩
      · exact .refl
      · exact ih.tail hold

/-- And the other way around: after its last visit to the node, a path uses no
edge into it. -/
private theorem reached_by_replaced
    (hreplaced : ∀ a b, new a b ↔ b = node ∧ sources a ∨ b ≠ node ∧ old a b) {b : α}
    (h : ReflTransGen old node b) : ReflTransGen new node b := by
  induction h with
  | refl => exact .refl
  | @tail middle last _ hedge ih =>
      by_cases hlast : last = node
      · rw [hlast]
      · exact ih.tail ((hreplaced middle last).mpr (Or.inr ⟨hlast, hedge⟩))

/-- A new path is an old one, or it enters the node by a new edge. -/
private theorem path_of_replaced
    (hreplaced : ∀ a b, new a b ↔ b = node ∧ sources a ∨ b ≠ node ∧ old a b) {a b : α}
    (h : TransGen new a b) : TransGen old a b ∨
      ∃ source, sources source ∧ ReflTransGen new a source ∧ ReflTransGen new node b := by
  induction h with
  | single hedge =>
      rcases (hreplaced _ _).mp hedge with ⟨rfl, hsource⟩ | ⟨-, hold⟩
      · exact Or.inr ⟨_, hsource, .refl, .refl⟩
      · exact Or.inl (.single hold)
  | tail hpath hedge ih =>
      rcases (hreplaced _ _).mp hedge with ⟨rfl, hsource⟩ | ⟨-, hold⟩
      · exact Or.inr ⟨_, hsource, hpath.to_reflTransGen, .refl⟩
      · rcases ih with hbefore | ⟨source, hsource, hbefore, hafter⟩
        · exact Or.inl (hbefore.tail hold)
        · exact Or.inr ⟨source, hsource, hbefore, hafter.tail hedge⟩

/-- Replacing the edges into one node of a relation without cycles makes a
cycle exactly when a new source was reached from the node. -/
theorem acyclic_replace_iff
    (hreplaced : ∀ a b, new a b ↔ b = node ∧ sources a ∨ b ≠ node ∧ old a b)
    (hacyclic : ∀ a, ¬TransGen old a a) :
    (∀ a, ¬TransGen new a a) ↔ ∀ source, sources source → ¬ReflTransGen old node source := by
  constructor
  · intro hnew source hsource hreach
    have hkept := reached_by_replaced hreplaced hreach
    exact hnew node (TransGen.tail' hkept ((hreplaced _ _).mpr (Or.inl ⟨rfl, hsource⟩)))
  · intro hsources a hcycle
    rcases path_of_replaced hreplaced hcycle with hold | ⟨source, hsource, hbefore, hafter⟩
    · exact hacyclic a hold
    · exact hsources source hsource (reaches_of_replaced hreplaced (hafter.trans hbefore))

end Cycles

end Library
