import ForgeOS.Library.Reach

/-!
Breadth-first search with a queue of nodes to look at. Each node enters the
queue once after the start, so a bounded number of rounds empties it, and what
has been seen then is what is reachable from the start.
-/

namespace Library

section Worklist

variable {κ : Type} [DecidableEq κ] (succ : κ → List κ)

/-- Put a node into the queue, unless it has been seen. -/
def enqueue (state : List κ × List κ) (node : κ) : List κ × List κ :=
  if node ∈ state.1 then state else (state.1 ++ [node], state.2 ++ [node])

/-- Rounds of the search: the nodes seen, given those seen so far and the
queue. -/
def sweep : Nat → List κ → List κ → List κ
  | 0, seen, _ => seen
  | _ + 1, seen, [] => seen
  | rounds + 1, seen, node :: queue =>
      let next := (succ node).foldl enqueue (seen, queue)
      sweep rounds next.1 next.2

/-- The search as a loop that ends when the queue is empty: the nodes seen then,
given those seen so far and the queue. -/
inductive Sweeps : List κ → List κ → List κ → Prop
  | empty (seen : List κ) : Sweeps seen [] seen
  | look {seen queue : List κ} {node : κ} {result : List κ}
      (rest : Sweeps ((succ node).foldl enqueue (seen, queue)).1
        ((succ node).foldl enqueue (seen, queue)).2 result) :
      Sweeps seen (node :: queue) result

/-- The nodes that have not been seen. -/
def unseen (space seen : List κ) : Nat := (space.toFinset \ seen.toFinset).card

variable {succ}

/-- What the loop over the successors of one node does. -/
private theorem foldl_enqueue (nodes : List κ) (seen queue : List κ) :
    ∃ added : List κ, nodes.foldl enqueue (seen, queue) = (seen ++ added, queue ++ added) ∧
      added.Nodup ∧ (∀ node ∈ added, node ∉ seen ∧ node ∈ nodes) ∧
      ∀ node ∈ nodes, node ∈ seen ++ added := by
  induction nodes generalizing seen queue with
  | nil => exact ⟨[], by simp, List.nodup_nil, by simp, by simp⟩
  | cons first rest ih =>
      by_cases hseen : first ∈ seen
      · obtain ⟨added, hfold, hnodup, hadded, hall⟩ := ih seen queue
        refine ⟨added, ?_, hnodup, ?_, ?_⟩
        · rw [List.foldl_cons, enqueue, if_pos hseen, hfold]
        · intro node hnode
          exact ⟨(hadded node hnode).1, List.mem_cons_of_mem _ (hadded node hnode).2⟩
        · intro node hnode
          rcases List.mem_cons.mp hnode with rfl | hrest
          · exact List.mem_append_left _ hseen
          · exact hall node hrest
      · obtain ⟨added, hfold, hnodup, hadded, hall⟩ := ih (seen ++ [first]) (queue ++ [first])
        refine ⟨first :: added, ?_, ?_, ?_, ?_⟩
        · rw [List.foldl_cons, enqueue, if_neg hseen, hfold]
          simp
        · rw [List.nodup_cons]
          exact ⟨fun h => (hadded first h).1 (by simp), hnodup⟩
        · intro node hnode
          rcases List.mem_cons.mp hnode with rfl | hlater
          · exact ⟨hseen, by simp⟩
          · obtain ⟨hnew, hmember⟩ := hadded node hlater
            exact ⟨fun h => hnew (List.mem_append_left _ h), List.mem_cons_of_mem _ hmember⟩
        · intro node hnode
          rcases List.mem_cons.mp hnode with rfl | hlater
          · simp
          · simpa using hall node hlater

/-- The search keeps what it has seen and adds only what is reachable. -/
private theorem sweep_sound (rounds : Nat) (seen queue : List κ)
    (hqueue : ∀ node ∈ queue, node ∈ seen) (node : κ) (h : node ∈ sweep succ rounds seen queue) :
    ∃ start ∈ seen, Relation.ReflTransGen (Edge succ) start node := by
  induction rounds generalizing seen queue with
  | zero => exact ⟨node, h, .refl⟩
  | succ rounds ih =>
      cases queue with
      | nil => exact ⟨node, h, .refl⟩
      | cons first queue =>
          obtain ⟨added, hfold, -, hadded, -⟩ := foldl_enqueue (succ first) seen queue
          rw [sweep, hfold] at h
          have hnext : ∀ node ∈ queue ++ added, node ∈ seen ++ added := by
            intro other hother
            rcases List.mem_append.mp hother with hold | hnew
            · exact List.mem_append_left _ (hqueue other (List.mem_cons_of_mem _ hold))
            · exact List.mem_append_right _ hnew
          obtain ⟨start, hstart, hreach⟩ := ih (seen ++ added) (queue ++ added) hnext h
          rcases List.mem_append.mp hstart with hold | hnew
          · exact ⟨start, hold, hreach⟩
          · exact ⟨first, hqueue first (by simp), .head (hadded start hnew).2 hreach⟩

private theorem subset_sweep (rounds : Nat) (seen queue : List κ) :
    seen ⊆ sweep succ rounds seen queue := by
  induction rounds generalizing seen queue with
  | zero => exact fun _ h => h
  | succ rounds ih =>
      cases queue with
      | nil => exact fun _ h => h
      | cons first queue =>
          obtain ⟨added, hfold, -⟩ := foldl_enqueue (succ first) seen queue
          rw [sweep, hfold]
          exact fun _ h => ih _ _ (List.mem_append_left _ h)

/-- Each node seen for the first time leaves one fewer unseen. -/
private theorem unseen_append (space : List κ) {seen added : List κ} (hnodup : added.Nodup)
    (hnew : ∀ node ∈ added, node ∉ seen) (hspace : ∀ node ∈ added, node ∈ space) :
    unseen space (seen ++ added) + added.length ≤ unseen space seen := by
  have hdisjoint : Disjoint (space.toFinset \ (seen ++ added).toFinset) added.toFinset := by
    rw [Finset.disjoint_left]
    intro node hnode hadded
    simp only [Finset.mem_sdiff, List.mem_toFinset, List.mem_append, not_or] at hnode hadded
    exact hnode.2.2 hadded
  have hsubset : (space.toFinset \ (seen ++ added).toFinset) ∪ added.toFinset ⊆
      space.toFinset \ seen.toFinset := by
    intro node hnode
    simp only [Finset.mem_union, Finset.mem_sdiff, List.mem_toFinset, List.mem_append,
      not_or] at hnode ⊢
    rcases hnode with ⟨hmember, hunseen, -⟩ | hadded
    · exact ⟨hmember, hunseen⟩
    · exact ⟨hspace node hadded, hnew node hadded⟩
  rw [unseen, unseen, ← List.toFinset_card_of_nodup hnodup,
    ← Finset.card_union_of_disjoint hdisjoint]
  exact Finset.card_le_card hsubset

/-- A search that sees each node once at the start does so in the end. -/
theorem nodup_sweep (rounds : Nat) (seen queue : List κ) (hseen : seen.Nodup) :
    (sweep succ rounds seen queue).Nodup := by
  induction rounds generalizing seen queue with
  | zero => exact hseen
  | succ rounds ih =>
      cases queue with
      | nil => exact hseen
      | cons first queue =>
          obtain ⟨added, hfold, hnodup, hadded, -⟩ := foldl_enqueue (succ first) seen queue
          rw [sweep, hfold]
          apply ih
          have hdisjoint : seen.Disjoint added := fun node hold hnew =>
            (hadded node hnew).1 hold
          exact hseen.append hnodup hdisjoint

/-- With a round for each node in the queue and each unseen one, the loop ends,
and the rounds end where it does. -/
theorem sweeps_sweep {space : List κ} (hspace : ∀ node, ∀ next ∈ succ node, next ∈ space)
    (rounds : Nat) (seen queue : List κ) (hrounds : queue.length + unseen space seen ≤ rounds) :
    Sweeps succ seen queue (sweep succ rounds seen queue) := by
  induction rounds generalizing seen queue with
  | zero =>
      have hempty : queue = [] := List.length_eq_zero_iff.mp (by omega)
      rw [hempty]
      exact .empty seen
  | succ rounds ih =>
      cases queue with
      | nil => exact .empty seen
      | cons first queue =>
          obtain ⟨added, hfold, hnodup, hadded, -⟩ := foldl_enqueue (succ first) seen queue
          rw [sweep]
          apply Sweeps.look
          rw [hfold]
          have hcount := unseen_append space hnodup
            (fun node hnode => (hadded node hnode).1)
            (fun node hnode => hspace first node (hadded node hnode).2)
          have hnext : (queue ++ added).length + unseen space (seen ++ added) ≤ rounds := by
            rw [List.length_cons] at hrounds
            rw [List.length_append]
            omega
          exact ih _ _ hnext

theorem unseen_le (space seen : List κ) : unseen space seen ≤ space.length :=
  (Finset.card_le_card Finset.sdiff_subset).trans (List.toFinset_card_le space)

/-- Every node seen has its successors seen, those in the queue excepted. -/
private theorem sweep_closed {space : List κ}
    (hspace : ∀ node, ∀ next ∈ succ node, next ∈ space) (rounds : Nat) (seen queue : List κ)
    (hrounds : queue.length + unseen space seen ≤ rounds)
    (hclosed : ∀ node ∈ seen, node ∉ queue → ∀ next ∈ succ node, next ∈ seen) :
    ∀ node ∈ sweep succ rounds seen queue, ∀ next ∈ succ node,
      next ∈ sweep succ rounds seen queue := by
  induction rounds generalizing seen queue with
  | zero =>
      have hempty : queue = [] := List.length_eq_zero_iff.mp (by omega)
      intro node hnode next hnext
      exact hclosed node hnode (by simp [hempty]) next hnext
  | succ rounds ih =>
      cases queue with
      | nil =>
          intro node hnode next hnext
          exact hclosed node hnode (by simp) next hnext
      | cons first queue =>
          obtain ⟨added, hfold, hnodup, hadded, hall⟩ := foldl_enqueue (succ first) seen queue
          rw [sweep, hfold]
          apply ih (seen ++ added) (queue ++ added)
          · have hcount := unseen_append space hnodup
              (fun node hnode => (hadded node hnode).1)
              (fun node hnode => hspace first node (hadded node hnode).2)
            rw [List.length_cons] at hrounds
            rw [List.length_append]
            omega
          · intro node hnode hqueue next hnext
            rw [List.mem_append, not_or] at hqueue
            have hold : node ∈ seen := (List.mem_append.mp hnode).resolve_right hqueue.2
            by_cases hfirst : node = first
            · rw [hfirst] at hnext
              exact hall next hnext
            · exact List.mem_append_left _
                (hclosed node hold (by simp [hfirst, hqueue.1]) next hnext)

/-- With a round for each node of the start and each successor there is, the
search sees exactly what is reachable from the start. -/
theorem mem_sweep_iff {space : List κ} (hspace : ∀ node, ∀ next ∈ succ node, next ∈ space)
    {rounds : Nat} {seeds seen : List κ} (hseen : ∀ node, node ∈ seen ↔ node ∈ seeds)
    (hrounds : seeds.length + space.length ≤ rounds) (node : κ) :
    node ∈ sweep succ rounds seen seeds ↔
      ∃ seed ∈ seeds, Relation.ReflTransGen (Edge succ) seed node := by
  constructor
  · intro h
    obtain ⟨start, hstart, hreach⟩ := sweep_sound rounds seen seeds
      (fun node hnode => (hseen node).mpr hnode) node h
    exact ⟨start, (hseen start).mp hstart, hreach⟩
  · rintro ⟨seed, hseed, hreach⟩
    have hcard := unseen_le space seen
    have henough : seeds.length + unseen space seen ≤ rounds := by omega
    have hclosed := sweep_closed hspace rounds seen seeds henough
      (fun node hnode hqueue => absurd ((hseen node).mp hnode) hqueue)
    induction hreach with
    | refl => exact subset_sweep rounds seen seeds ((hseen seed).mpr hseed)
    | tail _ hedge ih => exact hclosed _ ih _ hedge

end Worklist

end Library
