import ForgeOS.Context.Registry
import ForgeOS.Library.Reach

/-!
What the traversals of a refresh amount to. A traversal visits what is
reachable from its path along the dependents, and marks exactly the entries
that depend on something it visited; from that follows the status every entry
ends a refresh with.
-/

namespace ForgeOS

open Library

/-- What the traversals read of an entry and never write. -/
def Artifact.edge (artifact : Artifact) : String × List String :=
  (artifact.path, artifact.dependencies)

/-- Two documents with the same paths and dependencies, entry by entry. -/
def SameEdges (document document' : ArtifactDocument) : Prop :=
  document'.map Artifact.edge = document.map Artifact.edge

/-- The paths of the entries that depend on a path. -/
def dependentPaths (document : ArtifactDocument) (current : String) : List String :=
  (document.filter fun artifact => current ∈ artifact.dependencies).map Artifact.path

/-- An entry depends on a path, directly or through other entries. -/
def Downstream (document : ArtifactDocument) (path : String) (artifact : Artifact) : Prop :=
  ∃ dependency ∈ artifact.dependencies,
    Relation.ReflTransGen (Edge (dependentPaths document)) path dependency

theorem edge_dependentPaths {document : ArtifactDocument} {source target : String} :
    Edge (dependentPaths document) source target ↔
      ∃ dependencies, (target, dependencies) ∈ document.map Artifact.edge ∧
        source ∈ dependencies := by
  rw [Edge, dependentPaths, List.mem_map]
  constructor
  · rintro ⟨artifact, hartifact, rfl⟩
    obtain ⟨hmember, hdependency⟩ := List.mem_filter.mp hartifact
    exact ⟨artifact.dependencies, List.mem_map_of_mem hmember, of_decide_eq_true hdependency⟩
  · rintro ⟨dependencies, hrow, hdependency⟩
    obtain ⟨artifact, hmember, hpair⟩ := List.mem_map.mp hrow
    obtain ⟨rfl, rfl⟩ := Prod.mk.inj hpair
    exact ⟨artifact, List.mem_filter.mpr ⟨hmember, decide_eq_true hdependency⟩, rfl⟩

/-! ### Documents that agree on their edges -/

namespace SameEdges

variable {document document' document'' : ArtifactDocument}

theorem trans (h : SameEdges document document') (h' : SameEdges document' document'') :
    SameEdges document document'' :=
  Eq.trans h' h

theorem length (h : SameEdges document document') : document'.length = document.length := by
  have hlength := congrArg List.length h
  simpa only [List.length_map] using hlength

theorem entry (h : SameEdges document document') {position : Nat} {artifact : Artifact}
    (hentry : document[position]? = some artifact) :
    ∃ artifact', document'[position]? = some artifact' ∧ artifact'.path = artifact.path ∧
      artifact'.dependencies = artifact.dependencies := by
  have hmap := congrArg (fun edges => edges[position]?) h
  simp only [List.getElem?_map, hentry, Option.map_some] at hmap
  obtain ⟨artifact', hentry', hedge⟩ := Option.map_eq_some_iff.mp hmap
  simp only [Artifact.edge, Prod.mk.injEq] at hedge
  exact ⟨artifact', hentry', hedge.1, hedge.2⟩

theorem paths (h : SameEdges document document') :
    document'.map Artifact.path = document.map Artifact.path := by
  have hfst := congrArg (List.map Prod.fst) h
  rw [List.map_map, List.map_map] at hfst
  exact hfst

theorem dependencies (h : SameEdges document document') :
    document'.map Artifact.dependencies = document.map Artifact.dependencies := by
  have hsnd := congrArg (List.map Prod.snd) h
  rw [List.map_map, List.map_map] at hsnd
  exact hsnd

theorem dependentPaths_eq (h : SameEdges document document') :
    dependentPaths document' = dependentPaths document := by
  have hedges (document : ArtifactDocument) (current : String) : dependentPaths document current =
      ((document.map Artifact.edge).filter fun edge => current ∈ edge.2).map Prod.fst := by
    simp only [dependentPaths, List.filter_map, List.map_map]
    rfl
  funext current
  rw [hedges, hedges, h]

theorem downstream (h : SameEdges document document') {path : String}
    {artifact artifact' : Artifact} (hdeps : artifact'.dependencies = artifact.dependencies) :
    Downstream document' path artifact' ↔ Downstream document path artifact := by
  rw [Downstream, Downstream, h.dependentPaths_eq, hdeps]

theorem byPath_eq (h : SameEdges document document') : byPath document' = byPath document := by
  have hpaths (document : ArtifactDocument) : byPath document =
      Dict.update [] (document.map Artifact.path).zipIdx := by
    rw [byPath, List.zipIdx_map]
    rfl
  rw [hpaths, hpaths, h.paths]

theorem modify (document : ArtifactDocument) (position : Nat) {f : Artifact → Artifact}
    (hf : ∀ artifact, (f artifact).edge = artifact.edge) :
    SameEdges document (document.modify position f) := by
  apply List.ext_getElem?
  intro other
  rw [List.getElem?_map, List.getElem?_map, List.getElem?_modify]
  cases document[other]? with
  | none => rfl
  | some artifact =>
      by_cases hother : position = other
      · simp [hother, hf]
      · simp [hother]

theorem set {position : Nat} {artifact artifact' : Artifact}
    (hentry : document[position]? = some artifact) (hedge : artifact'.edge = artifact.edge) :
    SameEdges document (document.set position artifact') := by
  apply List.ext_getElem?
  intro other
  rw [List.getElem?_map, List.getElem?_map, List.getElem?_set]
  by_cases hother : position = other
  · have hbound := (List.getElem?_eq_some_iff.mp hentry).1
    rw [← hother, if_pos rfl, if_pos hbound, hentry]
    simp [hedge]
  · rw [if_neg hother]

end SameEdges

/-! ### One traversal -/

/-- From one state of a traversal to a later one: the entries with a newly
visited dependency, and those marked directly, have become stale. -/
structure Marks (direct : Nat → Prop) (before after : Marking) : Prop where
  edges : SameEdges before.document after.document
  grows : before.visited ⊆ after.visited
  marked : ∀ position artifact, before.document[position]? = some artifact →
    direct position ∨ (∃ path ∈ after.visited, path ∉ before.visited ∧
      path ∈ artifact.dependencies) →
    after.document[position]? = some artifact.markStale
  kept : ∀ position artifact, before.document[position]? = some artifact →
    ¬(direct position ∨ ∃ path ∈ after.visited, path ∉ before.visited ∧
      path ∈ artifact.dependencies) →
    after.document[position]? = some artifact

namespace Marks

variable {direct direct' : Nat → Prop} {first second third : Marking}

theorem refl (marking : Marking) : Marks (fun _ => False) marking marking where
  edges := rfl
  grows := fun _ hmember => hmember
  marked := by
    intro position artifact hentry hmark
    rcases hmark with hdirect | ⟨path, hvisited, hnew, -⟩
    · exact hdirect.elim
    · exact absurd hvisited hnew
  kept := fun _ _ hentry _ => hentry

theorem trans (h : Marks direct first second) (h' : Marks direct' second third) :
    Marks (fun position => direct position ∨ direct' position) first third where
  edges := h.edges.trans h'.edges
  grows := fun _ hmember => h'.grows (h.grows hmember)
  marked := by
    intro position artifact hentry hmark
    by_cases hfirst : direct position ∨ ∃ path ∈ second.visited, path ∉ first.visited ∧
        path ∈ artifact.dependencies
    · have hsecond := h.marked position artifact hentry hfirst
      by_cases hagain : direct' position ∨ ∃ path ∈ third.visited, path ∉ second.visited ∧
          path ∈ artifact.markStale.dependencies
      · exact h'.marked position artifact.markStale hsecond hagain
      · exact h'.kept position artifact.markStale hsecond hagain
    · have hsecond := h.kept position artifact hentry hfirst
      apply h'.marked position artifact hsecond
      rw [not_or] at hfirst
      rcases hmark with (hdirect | hdirect) | ⟨path, hvisited, hnew, hdependency⟩
      · exact absurd hdirect hfirst.1
      · exact Or.inl hdirect
      · refine Or.inr ⟨path, hvisited, ?_, hdependency⟩
        intro hearly
        exact hfirst.2 ⟨path, hearly, hnew, hdependency⟩
  kept := by
    intro position artifact hentry hkept
    have hsecond := h.kept position artifact hentry (by
      intro hfirst
      apply hkept
      rcases hfirst with hdirect | ⟨path, hvisited, hnew, hdependency⟩
      · exact Or.inl (Or.inl hdirect)
      · exact Or.inr ⟨path, h'.grows hvisited, hnew, hdependency⟩)
    apply h'.kept position artifact hsecond
    intro hlater
    apply hkept
    rcases hlater with hdirect | ⟨path, hvisited, hnew, hdependency⟩
    · exact Or.inl (Or.inr hdirect)
    · exact Or.inr ⟨path, hvisited, fun hearly => hnew (h.grows hearly), hdependency⟩

theorem congr (h : Marks direct first second) (hdirect : ∀ position, direct position ↔
    direct' position) : Marks direct' first second := by
  have hsame : direct = direct' := funext fun position => propext (hdirect position)
  rwa [← hsame]

/-- Marking one entry. -/
theorem modify (marking : Marking) (position : Nat) :
    Marks (fun other => other = position) marking
      { marking with document := marking.document.modify position Artifact.markStale } where
  edges := SameEdges.modify _ _ fun _ => rfl
  grows := fun _ hmember => hmember
  marked := by
    intro other artifact hentry hmark
    rcases hmark with hdirect | ⟨path, hvisited, hnew, -⟩
    · simp [hdirect, hdirect ▸ hentry]
    · exact absurd hvisited hnew
  kept := by
    intro other artifact hentry hkept
    have hne : position ≠ other := fun heq => hkept (Or.inl heq.symm)
    simp [hne, hentry]

/-- A loop that marked every dependent of a newly visited path did what the
visit of that path is to do. -/
theorem ofRoot {marking : Marking} {current : String} {after : Marking}
    (h : Marks (fun position => ∃ entry ∈ marking.document.zipIdx, entry.2 = position ∧
        current ∈ entry.1.dependencies)
      { marking with visited := current :: marking.visited } after)
    (hnew : current ∉ marking.visited) : Marks (fun _ => False) marking after where
  edges := h.edges
  grows := fun _ hmember => h.grows (List.mem_cons_of_mem _ hmember)
  marked := by
    intro position artifact hentry hmark
    apply h.marked position artifact hentry
    obtain ⟨path, hvisited, hold, hdependency⟩ := hmark.resolve_left id
    by_cases hcurrent : path = current
    · refine Or.inl ⟨(artifact, position), ?_, rfl, hcurrent ▸ hdependency⟩
      exact List.mem_zipIdx_iff_getElem?.mpr hentry
    · exact Or.inr ⟨path, hvisited, by simp [hcurrent, hold], hdependency⟩
  kept := by
    intro position artifact hentry hkept
    apply h.kept position artifact hentry
    rintro (⟨entry, hmember, rfl, hdependency⟩ | ⟨path, hvisited, hold, hdependency⟩)
    · have hsame := List.mem_zipIdx_iff_getElem?.mp hmember
      rw [hentry, Option.some.injEq] at hsame
      refine hkept (Or.inr ⟨current, h.grows (by simp), hnew, hsame ▸ hdependency⟩)
    · rw [List.mem_cons, not_or] at hold
      exact hkept (Or.inr ⟨path, hvisited, hold.2, hdependency⟩)

end Marks

private theorem filter_zipIdx (document : ArtifactDocument) (current : String) :
    (document.zipIdx.filter fun entry => current ∈ entry.1.dependencies).map
        (fun entry => entry.1.path) =
      (document.filter fun artifact => current ∈ artifact.dependencies).map Artifact.path := by
  conv_rhs => rw [← List.zipIdx_map_fst 0 document, List.filter_map, List.map_map]
  rfl

/-- The loop over some of the entries, given what the recursive calls do. -/
private theorem foldl_markEntry_spec {fuel : Nat} {succ : String → List String}
    (ih : ∀ path marking, (mark fuel path marking).visited =
        visit (dependentPaths marking.document) fuel path marking.visited ∧
      Marks (fun _ => False) marking (mark fuel path marking))
    (current : String) (entries : List (Artifact × Nat)) (start : Marking)
    (hsucc : dependentPaths start.document = succ) :
    (entries.foldl (markEntry (mark fuel) current) start).visited =
      ((entries.filter fun entry => current ∈ entry.1.dependencies).map
        fun entry => entry.1.path).foldl (fun seen next => visit succ fuel next seen)
          start.visited ∧
    Marks (fun position => ∃ entry ∈ entries, entry.2 = position ∧
        current ∈ entry.1.dependencies) start
      (entries.foldl (markEntry (mark fuel) current) start) := by
  induction entries generalizing start with
  | nil => exact ⟨rfl, (Marks.refl start).congr (by simp)⟩
  | cons entry rest ihEntries =>
      by_cases hdependent : current ∈ entry.1.dependencies
      · have hmodify := Marks.modify start entry.2
        obtain ⟨hvisit, hmarks⟩ := ih entry.1.path { start with
          document := start.document.modify entry.2 Artifact.markStale }
        have hstep := hmodify.trans hmarks
        obtain ⟨hrestVisit, hrest⟩ := ihEntries _ (hstep.edges.dependentPaths_eq.trans hsucc)
        simp only [List.foldl_cons, List.filter_cons, markEntry, hdependent, decide_true, if_true,
          List.map_cons]
        refine ⟨?_, (hstep.trans hrest).congr ?_⟩
        · rw [hrestVisit, hvisit, hmodify.edges.dependentPaths_eq, hsucc]
        · intro position
          simp [hdependent, eq_comm]
      · obtain ⟨hrestVisit, hrest⟩ := ihEntries start hsucc
        simp only [List.foldl_cons, List.filter_cons, markEntry, hdependent, decide_false, if_false,
          Bool.false_eq_true]
        exact ⟨hrestVisit, hrest.congr (by simp [hdependent])⟩

/-- The traversal visits as the depth-first search over the dependents does,
and marks the entries that depend on what it visits. -/
theorem mark_spec (fuel : Nat) (current : String) (marking : Marking) :
    (mark fuel current marking).visited =
      visit (dependentPaths marking.document) fuel current marking.visited ∧
    Marks (fun _ => False) marking (mark fuel current marking) := by
  induction fuel generalizing current marking with
  | zero => exact ⟨rfl, Marks.refl marking⟩
  | succ fuel ih =>
      unfold mark visit
      split
      · exact ⟨rfl, Marks.refl marking⟩
      · rename_i hnew
        obtain ⟨hvisit, hmarks⟩ := foldl_markEntry_spec ih current
          marking.document.zipIdx { marking with visited := current :: marking.visited } rfl
        refine ⟨?_, ?_⟩
        · rw [hvisit, filter_zipIdx, dependentPaths]
        · exact hmarks.ofRoot hnew

/-- Started from a path, the traversal visits what is reachable from it, however
much deeper it may go than the document is long. -/
theorem mem_mark_visited_of_le {document : ArtifactDocument} {fuel : Nat}
    (hfuel : document.length + 1 ≤ fuel) (path other : String) :
    other ∈ (mark fuel path ⟨[], document⟩).visited ↔
      Relation.ReflTransGen (Edge (dependentPaths document)) path other := by
  rw [(mark_spec fuel path ⟨[], document⟩).1]
  have hclosed : ∀ node ∈ path :: document.map Artifact.path,
      ∀ next ∈ dependentPaths document node, next ∈ path :: document.map Artifact.path := by
    intro node _ next hnext
    obtain ⟨artifact, hartifact, rfl⟩ := List.mem_map.mp hnext
    exact List.mem_cons_of_mem _ (List.mem_map_of_mem (List.mem_of_mem_filter hartifact))
  exact mem_visit_iff hclosed (by simp) (by simpa using hfuel) other

theorem mem_mark_visited_iff (document : ArtifactDocument) (path other : String) :
    other ∈ (mark (document.length + 1) path ⟨[], document⟩).visited ↔
      Relation.ReflTransGen (Edge (dependentPaths document)) path other :=
  mem_mark_visited_of_le le_rfl path other

/-- The traversal marks what is downstream of its path and nothing else. -/
theorem mark_entry {document : ArtifactDocument} (path : String) {position : Nat}
    {artifact : Artifact} (hentry : document[position]? = some artifact) :
    (Downstream document path artifact →
      (mark (document.length + 1) path ⟨[], document⟩).document[position]? =
        some artifact.markStale) ∧
    (¬Downstream document path artifact →
      (mark (document.length + 1) path ⟨[], document⟩).document[position]? = some artifact) := by
  obtain ⟨-, hmarks⟩ := mark_spec (document.length + 1) path ⟨[], document⟩
  have hiff : (False ∨ ∃ other ∈ (mark (document.length + 1) path ⟨[], document⟩).visited,
      other ∉ [] ∧ other ∈ artifact.dependencies) ↔ Downstream document path artifact := by
    simp only [mem_mark_visited_iff, List.not_mem_nil, not_false_eq_true, true_and, false_or,
      Downstream]
    exact exists_congr fun other => and_comm
  refine ⟨fun hdownstream => ?_, fun hdownstream => ?_⟩
  · exact hmarks.marked position artifact hentry (hiff.mpr hdownstream)
  · exact hmarks.kept position artifact hentry (fun h => hdownstream (hiff.mp h))

/-- The entry `by_path` gives for a path has that path, and no later one does. -/
theorem byPath_spec {document : ArtifactDocument} {path : String} {position : Nat}
    (h : (byPath document).get? path = some position) :
    (document[position]?).map Artifact.path = some path ∧
      ∀ later > position, (document[later]?).map Artifact.path ≠ some path := by
  obtain ⟨before, rest, hsplit, hlast⟩ := Dict.split_of_get?_update h
  have hassignment (index : Nat) : (before ++ (path, position) :: rest)[index]? =
      (document[index]?).map fun artifact => (artifact.path, index) := by
    rw [← hsplit, List.getElem?_map, List.getElem?_zipIdx, Option.map_map]
    simp only [Nat.zero_add]
    rfl
  have hposition : (document[before.length]?).map (fun artifact =>
      (artifact.path, before.length)) = some (path, position) := by
    rw [← hassignment]
    simp
  obtain ⟨artifact, hartifact, hpair⟩ := Option.map_eq_some_iff.mp hposition
  obtain ⟨hpath, rfl⟩ := Prod.mk.inj hpair
  refine ⟨by rw [hartifact, Option.map_some, hpath], ?_⟩
  intro later hlater hsame
  obtain ⟨other, hother, hotherPath⟩ := Option.map_eq_some_iff.mp hsame
  have hrest := hassignment later
  rw [hother, List.getElem?_append_right (by omega), Option.map_some, hotherPath] at hrest
  obtain ⟨offset, hoffset⟩ : ∃ offset, later - before.length = offset + 1 :=
    ⟨later - before.length - 1, by omega⟩
  rw [hoffset, List.getElem?_cons_succ] at hrest
  exact hlast (List.mem_map.mpr ⟨_, List.mem_of_getElem? hrest, rfl⟩)

/-! ### One round of a refresh -/

open Classical in
/-- What the traversal from a path makes of the status of an entry. -/
noncomputable def markedStatus (document : ArtifactDocument) (path : String) (position : Nat)
    (artifact : Artifact) (status : ArtifactStatus) : ArtifactStatus :=
  let marked := if Downstream document path artifact then .stale else status
  if (byPath document).get? path = some position ∧ marked ≠ .missing then .fresh else marked

theorem markDownstreamStale_sameEdges (document : ArtifactDocument) (path : String) :
    SameEdges document (markDownstreamStale document path) := by
  have hmark := (mark_spec (document.length + 1) path ⟨[], document⟩).2.edges
  unfold markDownstreamStale
  split
  · apply hmark.trans (SameEdges.modify _ _ ?_)
    intro artifact
    unfold Artifact.clearStale
    split
    · rfl
    · rfl
  · exact hmark

theorem markDownstreamStale_entry {document : ArtifactDocument} (path : String) {position : Nat}
    {artifact : Artifact} (hentry : document[position]? = some artifact) :
    ∃ artifact', (markDownstreamStale document path)[position]? = some artifact' ∧
      artifact'.status = markedStatus document path position artifact artifact.status := by
  obtain ⟨hmarked, hkept⟩ := mark_entry path hentry
  have hmark : ∃ artifact', (mark (document.length + 1) path ⟨[], document⟩).document[position]? =
      some artifact' ∧
      artifact'.status = open Classical in
        if Downstream document path artifact then .stale else artifact.status := by
    by_cases hdownstream : Downstream document path artifact
    · exact ⟨_, hmarked hdownstream, by rw [if_pos hdownstream]; rfl⟩
    · exact ⟨_, hkept hdownstream, by rw [if_neg hdownstream]⟩
  obtain ⟨artifact', hentry', hstatus⟩ := hmark
  unfold markDownstreamStale markedStatus
  rw [← hstatus]
  cases hlast : (byPath document).get? path with
  | none => exact ⟨artifact', hentry', by simp⟩
  | some last =>
      simp only [List.getElem?_modify, hentry', Option.map_eq_map, Option.map_some,
        Option.some.injEq, exists_eq_left']
      by_cases hposition : last = position
      · by_cases hmissing : artifact'.status = .missing
        · simp [hposition, hmissing, Artifact.clearStale]
        · simp [hposition, hmissing, Artifact.clearStale]
      · simp [hposition]

section Refresh

variable (host : Host) (files : Files) (document : ArtifactDocument)

/-- The file of a path is there, and its content has not the hash the registry
holds for the path. -/
def ShowsChange (path : String) : Prop :=
  ((beforeHashes document).get? path).join ≠ (snapshot host files path).contentHash ∧
    (snapshot host files path).status ≠ .missing

instance (path : String) : Decidable (ShowsChange host files document path) :=
  inferInstanceAs (Decidable (_ ∧ _))

/-- The entry at a position shows a change, and the artifact is downstream of
its path. -/
def Invalidates (round : Nat) (artifact : Artifact) : Prop :=
  ∃ source, document[round]? = some source ∧ ShowsChange host files document source.path ∧
    Downstream document source.path artifact

open Classical in
/-- What one round of a refresh makes of the status of an entry. -/
noncomputable def roundStatus (position : Nat) (artifact : Artifact) (status : ArtifactStatus)
    (round : Nat) : ArtifactStatus :=
  let own := if position = round then ownStatus (snapshot host files artifact.path) status
    else status
  match document[round]? with
  | none => own
  | some source =>
      if ShowsChange host files document source.path then
        markedStatus document source.path position artifact own
      else own

/-- The document after some rounds. -/
def refreshRounds (rounds : Nat) : ArtifactDocument :=
  (List.range rounds).foldl (refreshArtifact host files (beforeHashes document)) document

variable {document}

theorem markedStatus_congr {document' : ArtifactDocument} (h : SameEdges document document')
    (path : String) (position : Nat) {artifact artifact' : Artifact}
    (hdeps : artifact'.dependencies = artifact.dependencies) (status : ArtifactStatus) :
    markedStatus document' path position artifact' status =
      markedStatus document path position artifact status := by
  have hdownstream : Downstream document' path artifact' = Downstream document path artifact :=
    propext (h.downstream hdeps)
  rw [markedStatus, markedStatus, hdownstream, h.byPath_eq]

private theorem refreshArtifact_sameEdges (before : Dict String (Option String)) (round : Nat) :
    SameEdges document (refreshArtifact host files before document round) := by
  unfold refreshArtifact
  split
  · rfl
  · rename_i artifact hround
    have hset : SameEdges document
        (document.set round (artifact.refreshed (snapshot host files artifact.path))) :=
      SameEdges.set hround rfl
    simp only
    split
    · exact hset.trans (markDownstreamStale_sameEdges _ _)
    · exact hset

theorem refreshRounds_sameEdges (rounds : Nat) :
    SameEdges document (refreshRounds host files document rounds) := by
  induction rounds with
  | zero => rfl
  | succ rounds ih =>
      rw [refreshRounds, List.range_succ, List.foldl_append, List.foldl_cons, List.foldl_nil]
      exact ih.trans (refreshArtifact_sameEdges host files _ _)

/-- An entry after the assignments a round makes on account of its own file. -/
private theorem set_refreshed_entry {current : ArtifactDocument}
    (hedges : SameEdges document current) {position round : Nat}
    {artifact earlier source : Artifact} (hentry : document[position]? = some artifact)
    (hearlier : current[position]? = some earlier) (hsource : current[round]? = some source) :
    ∃ own, (current.set round (source.refreshed (snapshot host files source.path)))[position]? =
        some own ∧
      own.dependencies = artifact.dependencies ∧
      own.status = if position = round then
          ownStatus (snapshot host files artifact.path) earlier.status
        else earlier.status := by
  obtain ⟨same, hsame, hpath, hdeps⟩ := hedges.entry hentry
  rw [hearlier, Option.some.injEq] at hsame
  subst hsame
  by_cases hposition : position = round
  · subst hposition
    rw [hearlier, Option.some.injEq] at hsource
    subst hsource
    have hbound := (List.getElem?_eq_some_iff.mp hearlier).1
    refine ⟨_, List.getElem?_set_self hbound, hdeps, ?_⟩
    rw [if_pos rfl, hpath]
    rfl
  · refine ⟨earlier, ?_, hdeps, by rw [if_neg hposition]⟩
    rw [List.getElem?_set_ne (Ne.symm hposition), hearlier]

/-- One round, on a document that has the edges of the one the refresh began
with. -/
theorem refreshArtifact_entry {current : ArtifactDocument} (hedges : SameEdges document current)
    {position : Nat} {artifact earlier : Artifact} (hentry : document[position]? = some artifact)
    (hearlier : current[position]? = some earlier) (round : Nat) :
    ∃ artifact', (refreshArtifact host files (beforeHashes document) current round)[position]? =
        some artifact' ∧
      artifact'.status =
        roundStatus host files document position artifact earlier.status round := by
  unfold refreshArtifact roundStatus
  cases hround : document[round]? with
  | none =>
      have hbound : current[round]? = none := by
        rw [List.getElem?_eq_none_iff] at hround ⊢
        rw [hedges.length]
        exact hround
      have hne : position ≠ round := fun heq => by simp [← heq, hentry] at hround
      rw [hbound]
      exact ⟨earlier, hearlier, by simp [hne]⟩
  | some source =>
      obtain ⟨source', hsource, hsourcePath, -⟩ := hedges.entry hround
      obtain ⟨own, hownEntry, hownDeps, hownStatus⟩ :=
        set_refreshed_entry host files hedges hentry hearlier hsource
      have hset := hedges.trans (SameEdges.set hsource
        (rfl : (source'.refreshed (snapshot host files source'.path)).edge = source'.edge))
      rw [hsource]
      simp only [hsourcePath] at hownEntry hset ⊢
      by_cases hchange : ShowsChange host files document source.path
      · rw [if_pos hchange]
        obtain ⟨artifact', hentry', hstatus⟩ := markDownstreamStale_entry source.path hownEntry
        refine ⟨artifact', by rwa [if_pos (show _ ∧ _ from hchange)], hstatus.trans ?_⟩
        rw [hownStatus]
        exact markedStatus_congr hset _ _ hownDeps _
      · rw [if_neg hchange]
        exact ⟨own, by rwa [if_neg (show ¬(_ ∧ _) from hchange)], hownStatus⟩

/-- The status of an entry evolves by itself: what a round makes of it does
not depend on the statuses of the others. -/
theorem refreshRounds_entry {position : Nat} {artifact : Artifact}
    (hentry : document[position]? = some artifact) (rounds : Nat) :
    ∃ artifact', (refreshRounds host files document rounds)[position]? = some artifact' ∧
      artifact'.status = (List.range rounds).foldl
        (roundStatus host files document position artifact) artifact.status := by
  induction rounds with
  | zero => exact ⟨artifact, hentry, rfl⟩
  | succ rounds ih =>
      obtain ⟨earlier, hearlier, hstatus⟩ := ih
      obtain ⟨artifact', hentry', hstatus'⟩ := refreshArtifact_entry host files
        (refreshRounds_sameEdges host files rounds) hentry hearlier rounds
      refine ⟨artifact', ?_, ?_⟩
      · rw [refreshRounds, List.range_succ, List.foldl_append]
        exact hentry'
      · rw [hstatus', hstatus, List.range_succ, List.foldl_append]
        rfl

/-! ### The whole refresh -/

section Entry

variable {host files} {position : Nat} {artifact : Artifact}

/-- The entry is the one its path stands for, and its own file shows a change:
the round at its position declares it fresh. -/
def Resets (host : Host) (files : Files) (document : ArtifactDocument) (position : Nat)
    (artifact : Artifact) : Prop :=
  ShowsChange host files document artifact.path ∧
    (byPath document).get? artifact.path = some position

theorem ownStatus_ne_missing {file : FileSnapshot} (hpresent : file.status ≠ .missing)
    (status : ArtifactStatus) : ownStatus file status ≠ .missing := by
  unfold ownStatus
  rw [if_neg hpresent]
  cases status
  · decide
  · decide
  · decide

theorem roundStatus_of_not_resets {round : Nat} (status : ArtifactStatus)
    (hentry : document[position]? = some artifact)
    (hreset : Resets host files document position artifact → position < round) :
    roundStatus host files document position artifact status round =
      open Classical in
      if Invalidates host files document round artifact then .stale
      else if position = round then ownStatus (snapshot host files artifact.path) status
      else status := by
  unfold roundStatus
  cases hround : document[round]? with
  | none =>
      have hnone : ¬Invalidates host files document round artifact := by
        rintro ⟨source, hsource, -⟩
        simp [hround] at hsource
      rw [if_neg hnone]
  | some source =>
      simp only
      by_cases hchange : ShowsChange host files document source.path
      · -- the traversal of this round starts elsewhere
        have hother : (byPath document).get? source.path ≠ some position := by
          intro hlast
          obtain ⟨hpath, hlater⟩ := byPath_spec hlast
          rw [hentry, Option.map_some, Option.some.injEq] at hpath
          have hround' := hreset ⟨hpath ▸ hchange, hpath ▸ hlast⟩
          exact hlater round hround' (by rw [hround, Option.map_some])
        have hiff : Invalidates host files document round artifact ↔
            Downstream document source.path artifact := by
          constructor
          · rintro ⟨same, hsame, -, hdownstream⟩
            rw [hround, Option.some.injEq] at hsame
            rwa [hsame]
          · exact fun hdownstream => ⟨source, hround, hchange, hdownstream⟩
        rw [if_pos hchange, markedStatus, if_neg (fun h => hother h.1)]
        by_cases hdownstream : Downstream document source.path artifact
        · rw [if_pos (hiff.mpr hdownstream)]
          exact if_pos hdownstream
        · rw [if_neg (fun h => hdownstream (hiff.mp h))]
          exact if_neg hdownstream
      · have hnone : ¬Invalidates host files document round artifact := by
          rintro ⟨same, hsame, hchanged, -⟩
          rw [hround, Option.some.injEq] at hsame
          exact hchange (hsame ▸ hchanged)
        rw [if_neg hchange, if_neg hnone]

theorem roundStatus_of_resets (status : ArtifactStatus)
    (hentry : document[position]? = some artifact)
    (hreset : Resets host files document position artifact) :
    roundStatus host files document position artifact status position = .fresh := by
  unfold roundStatus
  simp only [hentry, if_true, if_pos hreset.1, markedStatus]
  apply if_pos
  refine ⟨hreset.2, ?_⟩
  split
  · decide
  · exact ownStatus_ne_missing hreset.1.2 status

/-- The statuses of an entry over the rounds of a refresh. -/
noncomputable def statusAfter (host : Host) (files : Files) (document : ArtifactDocument)
    (position : Nat) (artifact : Artifact) (rounds : Nat) : ArtifactStatus :=
  (List.range rounds).foldl (roundStatus host files document position artifact) artifact.status

theorem statusAfter_succ (rounds : Nat) :
    statusAfter host files document position artifact (rounds + 1) =
      roundStatus host files document position artifact
        (statusAfter host files document position artifact rounds) rounds := by
  rw [statusAfter, List.range_succ, List.foldl_append]
  rfl

/-- An entry that is reset ends up stale by the traversals after its round. -/
theorem statusAfter_of_resets (hentry : document[position]? = some artifact)
    (hreset : Resets host files document position artifact) {rounds : Nat}
    (hrounds : position < rounds) :
    statusAfter host files document position artifact rounds ≠ .fresh ↔
      ∃ round < rounds, position < round ∧ Invalidates host files document round artifact := by
  induction rounds, hrounds using Nat.le_induction with
  | base =>
      rw [statusAfter_succ, roundStatus_of_resets _ hentry hreset]
      simp only [ne_eq, not_true_eq_false, false_iff]
      rintro ⟨round, hbelow, habove, -⟩
      omega
  | succ rounds hrounds ih =>
      rw [statusAfter_succ, roundStatus_of_not_resets _ hentry fun _ => hrounds]
      by_cases hinvalid : Invalidates host files document rounds artifact
      · rw [if_pos hinvalid]
        simp only [ne_eq, reduceCtorEq, not_false_eq_true, true_iff]
        exact ⟨rounds, Nat.lt_succ_self _, hrounds, hinvalid⟩
      · have hne : position ≠ rounds := by omega
        rw [if_neg hinvalid, if_neg hne, ih]
        constructor
        · rintro ⟨round, hbelow, habove, hround⟩
          exact ⟨round, by omega, habove, hround⟩
        · rintro ⟨round, hbelow, habove, hround⟩
          rcases Nat.lt_succ_iff_lt_or_eq.mp hbelow with hlt | rfl
          · exact ⟨round, hlt, habove, hround⟩
          · exact absurd hround hinvalid

theorem ownStatus_ne_fresh (file : FileSnapshot) (status : ArtifactStatus) :
    ownStatus file status ≠ .fresh ↔ file.status = .missing ∨ status = .stale := by
  unfold ownStatus
  by_cases hmissing : file.status = .missing
  · simp [hmissing]
  · cases status
    · simp [hmissing]
    · simp [hmissing]
    · simp [hmissing]

/-- Up to its own round, an entry that is not reset keeps its mark and gets
the marks of the traversals. -/
private theorem statusAfter_stale (hentry : document[position]? = some artifact)
    (hreset : ¬Resets host files document position artifact) {rounds : Nat}
    (hrounds : rounds ≤ position) :
    statusAfter host files document position artifact rounds = .stale ↔
      artifact.status = .stale ∨
        ∃ round < rounds, Invalidates host files document round artifact := by
  induction rounds with
  | zero => simp [statusAfter]
  | succ rounds ih =>
      have hne : position ≠ rounds := by omega
      rw [statusAfter_succ, roundStatus_of_not_resets _ hentry (fun h => absurd h hreset),
        Nat.exists_lt_succ_right]
      by_cases hinvalid : Invalidates host files document rounds artifact
      · simp [hinvalid]
      · rw [if_neg hinvalid, if_neg hne, ih (by omega)]
        simp [hinvalid]

/-- From its own round on, an entry that is not reset is fresh unless its file
is missing or it has been marked. -/
theorem statusAfter_of_not_resets (hentry : document[position]? = some artifact)
    (hreset : ¬Resets host files document position artifact) {rounds : Nat}
    (hrounds : position < rounds) :
    statusAfter host files document position artifact rounds ≠ .fresh ↔
      (snapshot host files artifact.path).status = .missing ∨ artifact.status = .stale ∨
        ∃ round < rounds, Invalidates host files document round artifact := by
  induction rounds, hrounds using Nat.le_induction with
  | base =>
      rw [statusAfter_succ, roundStatus_of_not_resets _ hentry (fun h => absurd h hreset),
        Nat.exists_lt_succ_right]
      by_cases hinvalid : Invalidates host files document position artifact
      · simp [hinvalid]
      · rw [if_neg hinvalid, if_pos rfl, ownStatus_ne_fresh,
          statusAfter_stale hentry hreset (Nat.le_refl _)]
        simp [hinvalid]
  | succ rounds hrounds ih =>
      have hne : position ≠ rounds := by omega
      rw [statusAfter_succ, roundStatus_of_not_resets _ hentry (fun h => absurd h hreset),
        Nat.exists_lt_succ_right]
      by_cases hinvalid : Invalidates host files document rounds artifact
      · simp [hinvalid]
      · rw [if_neg hinvalid, if_neg hne, ih]
        simp [hinvalid]

end Entry

/-- What makes a refresh leave an entry stale or missing. An entry that is
reset is marked by the later rounds only; another one keeps its mark, is marked
by every round, and is missing when its file is. -/
def Detects (host : Host) (files : Files) (document : ArtifactDocument) (position : Nat)
    (artifact : Artifact) : Prop :=
  (Resets host files document position artifact →
    ∃ round, position < round ∧ Invalidates host files document round artifact) ∧
  (¬Resets host files document position artifact →
    (snapshot host files artifact.path).status = .missing ∨ artifact.status = .stale ∨
      ∃ round, Invalidates host files document round artifact)

variable {host files} in
theorem Invalidates.round_lt {round : Nat} {artifact : Artifact}
    (h : Invalidates host files document round artifact) : round < document.length := by
  obtain ⟨source, hsource, -⟩ := h
  exact (List.getElem?_eq_some_iff.mp hsource).1

private theorem statusAfter_length {position : Nat} {artifact : Artifact}
    (hentry : document[position]? = some artifact) :
    statusAfter host files document position artifact document.length ≠ .fresh ↔
      Detects host files document position artifact := by
  have hbound := (List.getElem?_eq_some_iff.mp hentry).1
  by_cases hreset : Resets host files document position artifact
  · rw [statusAfter_of_resets hentry hreset hbound, Detects]
    simp only [hreset, not_true_eq_false, false_implies, and_true, true_implies]
    constructor
    · rintro ⟨round, -, hround⟩
      exact ⟨round, hround⟩
    · rintro ⟨round, hlater, hround⟩
      exact ⟨round, hround.round_lt, hlater, hround⟩
  · rw [statusAfter_of_not_resets hentry hreset hbound, Detects]
    simp only [hreset, false_implies, not_false_eq_true, true_implies, true_and]
    refine or_congr_right (or_congr_right ?_)
    constructor
    · rintro ⟨round, -, hround⟩
      exact ⟨round, hround⟩
    · rintro ⟨round, hround⟩
      exact ⟨round, hround.round_lt, hround⟩

/-- The loop of a refresh keeps the paths and dependencies, and gives every
entry the status that the files and the old document determine. -/
theorem refreshDocument_entry {position : Nat} {artifact : Artifact}
    (hentry : document[position]? = some artifact) :
    ∃ artifact', (refreshDocument host files document)[position]? = some artifact' ∧
      artifact'.path = artifact.path ∧
      (artifact'.status ≠ .fresh ↔ Detects host files document position artifact) := by
  obtain ⟨artifact', hentry', hstatus⟩ := refreshRounds_entry host files hentry
    document.length
  obtain ⟨same, hsame, hpath, -⟩ := (refreshRounds_sameEdges host files
    document.length).entry hentry
  rw [hentry', Option.some.injEq] at hsame
  subst hsame
  exact ⟨artifact', hentry', hpath, by rw [hstatus]; exact statusAfter_length host files hentry⟩

end Refresh

/-! ### Rebuilding the dependents -/

/-- Two documents with the same paths and statuses, entry by entry. -/
def SameStatuses (document document' : ArtifactDocument) : Prop :=
  (document'.map fun artifact => (artifact.path, artifact.status)) =
    document.map fun artifact => (artifact.path, artifact.status)

theorem SameStatuses.entry {document document' : ArtifactDocument}
    (h : SameStatuses document document') (position : Nat) :
    (document'[position]?).map (fun artifact => (artifact.path, artifact.status)) =
      (document[position]?).map fun artifact => (artifact.path, artifact.status) := by
  have hmap := congrArg (fun entries => entries[position]?) h
  simpa only [List.getElem?_map] using hmap

private theorem sameStatuses_linkDependency (positions : Dict String Nat) (artifact : Artifact)
    (document : ArtifactDocument) (dependency : String) :
    SameStatuses document (artifact.linkDependency positions document dependency) := by
  unfold Artifact.linkDependency
  split
  · rename_i position hposition
    apply List.ext_getElem?
    intro other
    rw [List.getElem?_map, List.getElem?_map, List.getElem?_modify]
    cases document[other]? with
    | none => rfl
    | some entry =>
        by_cases hother : position = other
        · simp only [hother, if_true, Option.map_eq_map, Option.map_some, Artifact.addDependent]
          split
          · rfl
          · rfl
        · simp [hother]
  · rfl

private theorem foldl_sameStatuses {α : Type} {f : ArtifactDocument → α → ArtifactDocument}
    (hf : ∀ document item, SameStatuses document (f document item)) (items : List α)
    (document : ArtifactDocument) : SameStatuses document (items.foldl f document) := by
  induction items generalizing document with
  | nil => rfl
  | cons item rest ih => exact (ih (f document item)).trans (hf document item)

theorem rebuildDependents_sameStatuses (document : ArtifactDocument) :
    SameStatuses document (rebuildDependents document) := by
  have hclear : SameStatuses document
      (document.map fun artifact => { artifact with dependents := [] }) := by
    simp only [SameStatuses, List.map_map, Function.comp_def]
  have hsort (linked : ArtifactDocument) :
      SameStatuses linked (linked.map Artifact.sortDependents) := by
    simp only [SameStatuses, List.map_map, Function.comp_def, Artifact.sortDependents]
  unfold rebuildDependents
  exact (hsort _).trans ((foldl_sameStatuses (fun document artifact => foldl_sameStatuses
    (sameStatuses_linkDependency _ artifact) artifact.dependencies document) _ _).trans hclear)

section Refreshed

variable (host : Host) (files : Files) {document : ArtifactDocument} {position : Nat}
  {artifact : Artifact}

/-- The document `refresh` saves, at an entry of the one it loaded. -/
theorem refreshed_entry (hentry : document[position]? = some artifact) :
    ∃ artifact', (rebuildDependents (refreshDocument host files document))[position]? =
        some artifact' ∧
      artifact'.path = artifact.path ∧
      (artifact'.status ≠ .fresh ↔ Detects host files document position artifact) := by
  obtain ⟨refreshed, hrefreshed, hpath, hstatus⟩ := refreshDocument_entry host files
    hentry
  have hsame := (rebuildDependents_sameStatuses
    (refreshDocument host files document)).entry position
  rw [hrefreshed, Option.map_some] at hsame
  obtain ⟨artifact', hentry', hpair⟩ := Option.map_eq_some_iff.mp hsame
  obtain ⟨hpath', hstatus'⟩ := Prod.mk.inj hpair
  exact ⟨artifact', hentry', hpath'.trans hpath, by rw [hstatus', hstatus]⟩

/-- The document `refresh` saves has no other entries. -/
theorem entry_of_refreshed
    (h : (rebuildDependents (refreshDocument host files document))[position]? = some artifact) :
    ∃ original, document[position]? = some original := by
  have hbound := (List.getElem?_eq_some_iff.mp h).1
  have hlength := congrArg List.length
    (rebuildDependents_sameStatuses (refreshDocument host files document))
  have hedges : (refreshDocument host files document).length = document.length :=
    (refreshRounds_sameEdges host files document.length).length
  rw [List.length_map, List.length_map] at hlength
  rw [hlength] at hbound
  exact ⟨document.get ⟨position, hedges ▸ hbound⟩, List.getElem?_eq_getElem _⟩

end Refreshed

end ForgeOS
