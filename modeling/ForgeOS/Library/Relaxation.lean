import ForgeOS.Library.Dict
import ForgeOS.Library.Reach
import Mathlib.Order.Bounds.Basic

/-!
Shortest distances by depth-first search. A node may be entered several times,
each time with a smaller depth than before. The recursion ends on every graph,
and the depth a node is left with is the least number of steps from a seed.
-/

namespace Library

/-- A path of so many steps of a relation. -/
inductive Hops {α : Type} (r : α → α → Prop) (start : α) : ℕ → α → Prop
  | zero : Hops r start 0 start
  | step {count : ℕ} {last next : α} (path : Hops r start count last) (edge : r last next) :
      Hops r start (count + 1) next

theorem reflTransGen_iff_hops {α : Type} {r : α → α → Prop} {start last : α} :
    Relation.ReflTransGen r start last ↔ ∃ count, Hops r start count last := by
  constructor
  · intro hreach
    induction hreach with
    | refl => exact ⟨0, .zero⟩
    | tail _ hedge ih =>
        obtain ⟨count, hpath⟩ := ih
        exact ⟨count + 1, hpath.step hedge⟩
  · rintro ⟨count, hpath⟩
    induction hpath with
    | zero => exact .refl
    | step _ hedge ih => exact ih.tail hedge

section Relaxation

variable {κ : Type} [DecidableEq κ]

/-- The node has been entered, no deeper than this. -/
def Settled (depths : Dict κ ℕ) (node : κ) (depth : ℕ) : Prop :=
  ∃ existing ∈ depths.get? node, existing ≤ depth

instance (depths : Dict κ ℕ) (node : κ) (depth : ℕ) : Decidable (Settled depths node depth) :=
  inferInstanceAs (Decidable (∃ existing ∈ depths.get? node, existing ≤ depth))

variable (succ : κ → List κ)

/-- Enter a node, and everything behind it one step deeper, unless it has been
entered no deeper than this. -/
def relax : ℕ → κ → ℕ → Dict κ ℕ → Dict κ ℕ
  | 0, _, _, depths => depths
  | fuel + 1, node, depth, depths =>
      if Settled depths node depth then depths
      else (succ node).foldl (fun depths next => relax fuel next (depth + 1) depths)
        (depths.set node depth)

/-- The recursion as it runs: the calls to make, one after the other, and the
depths before and after. -/
inductive Relaxes : List (κ × ℕ) → Dict κ ℕ → Dict κ ℕ → Prop
  | done (depths : Dict κ ℕ) : Relaxes [] depths depths
  | settled {node : κ} {depth : ℕ} {calls : List (κ × ℕ)} {depths after : Dict κ ℕ}
      (known : Settled depths node depth) (rest : Relaxes calls depths after) :
      Relaxes ((node, depth) :: calls) depths after
  | enter {node : κ} {depth : ℕ} {calls : List (κ × ℕ)} {depths within after : Dict κ ℕ}
      (new : ¬Settled depths node depth)
      (behind : Relaxes ((succ node).map fun next => (next, depth + 1)) (depths.set node depth)
        within)
      (rest : Relaxes calls within after) :
      Relaxes ((node, depth) :: calls) depths after

/-- Enter all seeds. -/
def relaxAll (fuel : ℕ) (seeds : List κ) : Dict κ ℕ :=
  seeds.foldl (fun depths seed => relax succ fuel seed 0 depths) []

variable {succ} {depths after later : Dict κ ℕ} {node : κ} {depth : ℕ}

theorem Settled.mono {deeper : ℕ} (h : Settled depths node depth) (hle : depth ≤ deeper) :
    Settled depths node deeper := by
  obtain ⟨existing, hget, hexisting⟩ := h
  exact ⟨existing, hget, hexisting.trans hle⟩

theorem settled_of_get? (h : depths.get? node = some depth) : Settled depths node depth :=
  ⟨depth, h, le_rfl⟩

theorem settled_set (depths : Dict κ ℕ) (node : κ) (depth : ℕ) :
    Settled (depths.set node depth) node depth := by
  apply settled_of_get?
  rw [Dict.get?_set, if_pos rfl]

/-! ### What is entered is on a path -/

/-- A property of nodes at depths that goes over to the nodes behind holds of
all that is entered from a node that has it. -/
theorem relax_sound {P : κ → ℕ → Prop}
    (hstep : ∀ node depth, P node depth → ∀ next ∈ succ node, P next (depth + 1)) (fuel : ℕ)
    (node : κ) (depth : ℕ) (depths : Dict κ ℕ) (hnode : P node depth)
    (hdepths : ∀ other existing, depths.get? other = some existing → P other existing) :
    ∀ other existing, (relax succ fuel node depth depths).get? other = some existing →
      P other existing := by
  induction fuel generalizing node depth depths with
  | zero => exact hdepths
  | succ fuel ih =>
      unfold relax
      split
      · exact hdepths
      · have hset : ∀ other existing, (depths.set node depth).get? other = some existing →
            P other existing := by
          intro other existing hget
          rw [Dict.get?_set] at hget
          split at hget
          · rename_i hother
            cases hget
            exact hother ▸ hnode
          · exact hdepths other existing hget
        have hloop (nodes : List κ) (hnodes : ∀ next ∈ nodes, next ∈ succ node)
            (start : Dict κ ℕ)
            (hstart : ∀ other existing, start.get? other = some existing → P other existing) :
            ∀ other existing, (nodes.foldl (fun depths next =>
              relax succ fuel next (depth + 1) depths) start).get? other = some existing →
                P other existing := by
          induction nodes generalizing start with
          | nil => exact hstart
          | cons next rest ihNodes =>
              rw [List.forall_mem_cons] at hnodes
              have hnext := ih next (depth + 1) start (hstep node depth hnode next hnodes.1) hstart
              exact ihNodes hnodes.2 _ hnext
        exact hloop (succ node) (fun _ hnext => hnext) _ hset

/-! ### Enough fuel -/

/-- Depths only get smaller. -/
def Improves (depths after : Dict κ ℕ) : Prop :=
  ∀ node depth, Settled depths node depth → Settled after node depth

theorem Improves.refl (depths : Dict κ ℕ) : Improves depths depths := fun _ _ h => h

theorem Improves.trans (h : Improves depths after) (h' : Improves after later) :
    Improves depths later := fun node depth hsettled => h' node depth (h node depth hsettled)

theorem improves_set (hnew : ¬Settled depths node depth) :
    Improves depths (depths.set node depth) := by
  rintro other deeper ⟨existing, hget, hle⟩
  unfold Settled
  rw [Dict.get?_set]
  by_cases hother : node = other
  · refine ⟨depth, by rw [if_pos hother]; rfl, ?_⟩
    by_contra hdeeper
    exact hnew ⟨existing, hother ▸ hget, by omega⟩
  · exact ⟨existing, by rwa [if_neg hother], hle⟩

/-- The nodes of a space that would be entered at a depth. -/
def unsettled (space : List κ) (depths : Dict κ ℕ) (depth : ℕ) : ℕ :=
  (space.toFinset.filter fun node => ¬Settled depths node depth).card

theorem unsettled_mono (space : List κ) (h : Improves depths after) (depth : ℕ) :
    unsettled space after depth ≤ unsettled space depths depth := by
  apply Finset.card_le_card
  intro other hother
  rw [Finset.mem_filter] at hother ⊢
  exact ⟨hother.1, fun hsettled => hother.2 (h other depth hsettled)⟩

/-- Entering a node leaves fewer to be entered one step deeper. -/
theorem unsettled_set_lt {space : List κ} (hnode : node ∈ space)
    (hnew : ¬Settled depths node depth) :
    unsettled space (depths.set node depth) (depth + 1) < unsettled space depths depth := by
  apply Finset.card_lt_card
  rw [Finset.ssubset_iff_of_subset]
  · refine ⟨node, by simp [hnode, hnew], ?_⟩
    rw [Finset.mem_filter, not_and, not_not]
    intro _
    exact (settled_set depths node depth).mono (Nat.le_succ depth)
  · intro other hother
    rw [Finset.mem_filter] at hother ⊢
    refine ⟨hother.1, fun hsettled => hother.2 ?_⟩
    exact (improves_set hnew other depth hsettled).mono (Nat.le_succ depth)

theorem unsettled_le (space : List κ) (depths : Dict κ ℕ) (depth : ℕ) :
    unsettled space depths depth ≤ space.length :=
  (Finset.card_filter_le _ _).trans (List.toFinset_card_le space)

variable (succ) in
/-- What has been entered since has all behind it entered one step deeper. -/
def RelaxedSince (depths after : Dict κ ℕ) : Prop :=
  ∀ node depth, after.get? node = some depth → depths.get? node = some depth ∨
    ∀ next ∈ succ node, Settled after next (depth + 1)

theorem RelaxedSince.refl (succ : κ → List κ) (depths : Dict κ ℕ) :
    RelaxedSince succ depths depths := fun _ _ h => .inl h

theorem RelaxedSince.trans (h : RelaxedSince succ depths after)
    (h' : RelaxedSince succ after later) (himproves : Improves after later) :
    RelaxedSince succ depths later := by
  intro node depth hget
  rcases h' node depth hget with hafter | hbehind
  · exact (h node depth hafter).imp_right fun hbehind next hnext =>
      himproves next _ (hbehind next hnext)
  · exact .inr hbehind

/-- What a call does that runs to its end. -/
structure Relaxed (succ : κ → List κ) (calls : List (κ × ℕ)) (depths after : Dict κ ℕ) : Prop where
  runs : Relaxes succ calls depths after
  improves : Improves depths after
  settles : ∀ call ∈ calls, Settled after call.1 call.2
  since : RelaxedSince succ depths after

/-- A call before the others. -/
theorem relaxes_cons {calls : List (κ × ℕ)} (h : Relaxes succ [(node, depth)] depths after)
    (h' : Relaxes succ calls after later) : Relaxes succ ((node, depth) :: calls) depths later := by
  cases h with
  | settled hknown hrest =>
      cases hrest
      exact .settled hknown h'
  | enter hnew hbehind hrest =>
      cases hrest
      exact .enter hnew hbehind h'

theorem Relaxed.nil (succ : κ → List κ) (depths : Dict κ ℕ) : Relaxed succ [] depths depths where
  runs := .done depths
  improves := .refl depths
  settles := List.forall_mem_nil _
  since := .refl succ depths

theorem Relaxed.cons {calls : List (κ × ℕ)} (h : Relaxed succ [(node, depth)] depths after)
    (h' : Relaxed succ calls after later) :
    Relaxed succ ((node, depth) :: calls) depths later where
  runs := relaxes_cons h.runs h'.runs
  improves := h.improves.trans h'.improves
  settles := by
    rw [List.forall_mem_cons]
    exact ⟨h'.improves _ _ (h.settles _ List.mem_cons_self), h'.settles⟩
  since := h.since.trans h'.since h'.improves

/-- A call whose node is settled does nothing. -/
theorem relaxed_of_settled (h : Settled depths node depth) :
    Relaxed succ [(node, depth)] depths depths where
  runs := .settled h (.done depths)
  improves := .refl depths
  settles := by simpa using h
  since := .refl succ depths

/-- One that enters its node does what the calls behind it do. -/
theorem relaxed_of_behind (hnew : ¬Settled depths node depth)
    (h : Relaxed succ ((succ node).map fun next => (next, depth + 1)) (depths.set node depth)
      after) : Relaxed succ [(node, depth)] depths after where
  runs := .enter hnew h.runs (.done after)
  improves := (improves_set hnew).trans h.improves
  settles := by
    rw [List.forall_mem_singleton]
    exact h.improves node depth (settled_set depths node depth)
  since := by
    intro other existing hget
    rcases h.since other existing hget with hset | hbehind
    · rw [Dict.get?_set] at hset
      split at hset
      · rename_i hother
        cases hset
        refine .inr fun next hnext => h.settles (next, depth + 1) ?_
        rw [List.mem_map]
        exact ⟨next, hother ▸ hnext, rfl⟩
      · exact .inl hset
    · exact .inr hbehind

/-- With more fuel than there are nodes to enter, a call runs to its end. -/
theorem relaxed_relax {space : List κ}
    (hspace : ∀ node, ∀ next ∈ succ node, next ∈ space) (fuel : ℕ) (node : κ) (depth : ℕ)
    (depths : Dict κ ℕ) (hnode : node ∈ space) (hfuel : unsettled space depths depth < fuel) :
    Relaxed succ [(node, depth)] depths (relax succ fuel node depth depths) := by
  induction fuel generalizing node depth depths with
  | zero => omega
  | succ fuel ih =>
      unfold relax
      split
      · rename_i hknown
        exact relaxed_of_settled hknown
      · rename_i hnew
        have hloop (nodes : List κ) (hnodes : ∀ next ∈ nodes, next ∈ space) (start : Dict κ ℕ)
            (hstart : unsettled space start (depth + 1) < fuel) :
            Relaxed succ (nodes.map fun next => (next, depth + 1)) start
              (nodes.foldl (fun depths next => relax succ fuel next (depth + 1) depths)
                start) := by
          induction nodes generalizing start with
          | nil => exact .nil succ start
          | cons next rest ihNodes =>
              rw [List.forall_mem_cons] at hnodes
              have hnext := ih next (depth + 1) start hnodes.1 hstart
              have hfewer := unsettled_mono space hnext.improves (depth + 1)
              exact hnext.cons (ihNodes hnodes.2 _ (by omega))
        have hfewer := unsettled_set_lt hnode hnew
        exact relaxed_of_behind hnew (hloop (succ node) (hspace node) _ (by omega))

theorem relaxed_relaxAll {space : List κ}
    (hspace : ∀ node, ∀ next ∈ succ node, next ∈ space) {seeds : List κ}
    (hseeds : ∀ seed ∈ seeds, seed ∈ space) {fuel : ℕ} (hfuel : space.length < fuel) :
    Relaxed succ (seeds.map fun seed => (seed, 0)) [] (relaxAll succ fuel seeds) := by
  have hloop (depths : Dict κ ℕ) : Relaxed succ (seeds.map fun seed => (seed, 0)) depths
      (seeds.foldl (fun depths seed => relax succ fuel seed 0 depths) depths) := by
    induction seeds generalizing depths with
    | nil => exact .nil succ depths
    | cons seed rest ih =>
        rw [List.forall_mem_cons] at hseeds
        have hfewer := unsettled_le space depths 0
        have hfirst := relaxed_relax hspace fuel seed 0 depths hseeds.1 (by omega)
        exact hfirst.cons (ih hseeds.2 _)
  exact hloop []

/-! ### Distances -/

theorem relaxAll_sound (fuel : ℕ) {seeds : List κ} {count : ℕ}
    (h : (relaxAll succ fuel seeds).get? node = some count) :
    ∃ seed ∈ seeds, Hops (Edge succ) seed count node := by
  have hstep (node : κ) (depth : ℕ) (hpath : ∃ seed ∈ seeds, Hops (Edge succ) seed depth node) :
      ∀ next ∈ succ node, ∃ seed ∈ seeds, Hops (Edge succ) seed (depth + 1) next := by
    obtain ⟨seed, hseed, hhops⟩ := hpath
    exact fun next hnext => ⟨seed, hseed, hhops.step hnext⟩
  have hloop (rest : List κ) (hrest : ∀ seed ∈ rest, seed ∈ seeds) (start : Dict κ ℕ)
      (hstart : ∀ other existing, start.get? other = some existing →
        ∃ seed ∈ seeds, Hops (Edge succ) seed existing other) :
      ∀ other existing, (rest.foldl (fun depths seed => relax succ fuel seed 0 depths)
        start).get? other = some existing →
          ∃ seed ∈ seeds, Hops (Edge succ) seed existing other := by
    induction rest generalizing start with
    | nil => exact hstart
    | cons seed rest ih =>
        rw [List.forall_mem_cons] at hrest
        have hseed := relax_sound hstep fuel seed 0 start ⟨seed, hrest.1, .zero⟩ hstart
        exact ih hrest.2 _ hseed
  exact hloop seeds (fun _ hseed => hseed) [] nofun node count h

/-- After a run from nothing, what is so many steps from a seed has been
entered no deeper than that. -/
theorem Relaxed.settled_of_hops {seeds : List κ}
    (h : Relaxed succ (seeds.map fun seed => (seed, 0)) [] after) {seed : κ}
    (hseed : seed ∈ seeds) {count : ℕ} (hpath : Hops (Edge succ) seed count node) :
    Settled after node count := by
  induction hpath with
  | zero => exact h.settles (seed, 0) (List.mem_map_of_mem hseed)
  | @step count last next _ hedge ih =>
      obtain ⟨existing, hget, hle⟩ := ih
      rcases h.since last existing hget with hnothing | hbehind
      · cases hnothing
      · exact (hbehind next hedge).mono (by omega)

/-- With enough fuel, a node is left with the least number of steps from a
seed, if it is reached at all. -/
theorem relaxAll_eq_some_iff {space : List κ}
    (hspace : ∀ node, ∀ next ∈ succ node, next ∈ space) {seeds : List κ}
    (hseeds : ∀ seed ∈ seeds, seed ∈ space) {fuel : ℕ} (hfuel : space.length < fuel) (node : κ)
    (count : ℕ) :
    (relaxAll succ fuel seeds).get? node = some count ↔
      IsLeast {steps | ∃ seed ∈ seeds, Hops (Edge succ) seed steps node} count := by
  have hrelaxed := relaxed_relaxAll hspace hseeds hfuel
  constructor
  · intro hget
    refine ⟨relaxAll_sound fuel hget, ?_⟩
    rintro steps ⟨seed, hseed, hpath⟩
    obtain ⟨existing, hexisting, hle⟩ := hrelaxed.settled_of_hops hseed hpath
    cases hget.symm.trans hexisting
    exact hle
  · rintro ⟨⟨seed, hseed, hpath⟩, hleast⟩
    obtain ⟨existing, hexisting, hle⟩ := hrelaxed.settled_of_hops hseed hpath
    have hother := hleast (relaxAll_sound fuel hexisting)
    rw [le_antisymm hle hother] at hexisting
    exact hexisting

/-- The nodes that are left with a depth are those reached from a seed. -/
theorem relaxAll_isSome_iff {space : List κ}
    (hspace : ∀ node, ∀ next ∈ succ node, next ∈ space) {seeds : List κ}
    (hseeds : ∀ seed ∈ seeds, seed ∈ space) {fuel : ℕ} (hfuel : space.length < fuel)
    (node : κ) :
    ((relaxAll succ fuel seeds).get? node).isSome ↔
      ∃ seed ∈ seeds, Relation.ReflTransGen (Edge succ) seed node := by
  rw [Option.isSome_iff_exists]
  constructor
  · rintro ⟨count, hget⟩
    obtain ⟨seed, hseed, hpath⟩ := relaxAll_sound fuel hget
    exact ⟨seed, hseed, reflTransGen_iff_hops.mpr ⟨count, hpath⟩⟩
  · rintro ⟨seed, hseed, hreach⟩
    obtain ⟨count, hpath⟩ := reflTransGen_iff_hops.mp hreach
    obtain ⟨existing, hget, -⟩ :=
      (relaxed_relaxAll hspace hseeds hfuel).settled_of_hops hseed hpath
    exact ⟨existing, hget⟩

end Relaxation

end Library
