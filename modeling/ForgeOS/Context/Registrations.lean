import ForgeOS.Context.Loading

/-!
What one registration does to the tables of the registry. A call that raises
leaves the project as it is; one that succeeds replaces or adds one row of the
dependency table, and derives the dependents and the graph from all of it.
-/

namespace ForgeOS

open Library

/-! ### The dependents -/

/-- Enter one dependency of an artifact into the dependents. -/
private def linkItem (positions : Dict String Nat) (document : ArtifactDocument)
    (item : Artifact × String) : ArtifactDocument :=
  item.1.linkDependency positions document item.2

private theorem linkItems_entry (positions : Dict String Nat) (items : List (Artifact × String))
    {document : ArtifactDocument} {position : Nat} {artifact : Artifact}
    (hentry : document[position]? = some artifact) (hnodup : artifact.dependents.Nodup) :
    ∃ dependents, (items.foldl (linkItem positions) document)[position]? =
        some { artifact with dependents := dependents } ∧ dependents.Nodup ∧
      ∀ path, path ∈ dependents ↔ path ∈ artifact.dependents ∨
        ∃ item ∈ items, positions.get? item.2 = some position ∧ item.1.path = path := by
  induction items generalizing document artifact with
  | nil => exact ⟨artifact.dependents, hentry, hnodup, by simp⟩
  | cons item rest ih =>
      rw [List.foldl_cons]
      by_cases htarget : positions.get? item.2 = some position
      · have hlinked : (linkItem positions document item)[position]? =
            some (artifact.addDependent item.1.path) := by
          simp [linkItem, Artifact.linkDependency, htarget, hentry]
        by_cases hold : item.1.path ∈ artifact.dependents
        · rw [Artifact.addDependent, if_pos hold] at hlinked
          obtain ⟨dependents, hentry', hnodup', hmem⟩ := ih hlinked hnodup
          refine ⟨dependents, hentry', hnodup', fun path => ?_⟩
          rw [hmem]
          grind
        · rw [Artifact.addDependent, if_neg hold] at hlinked
          obtain ⟨dependents, hentry', hnodup', hmem⟩ := ih hlinked
            (hnodup.append (List.nodup_singleton _) (by simpa using hold))
          refine ⟨dependents, hentry', hnodup', fun path => ?_⟩
          rw [hmem]
          grind
      · have hlinked : (linkItem positions document item)[position]? = some artifact := by
          unfold linkItem Artifact.linkDependency
          cases hother : positions.get? item.2 with
          | none => exact hentry
          | some other =>
              have hne : other ≠ position := fun heq => htarget (heq ▸ hother)
              simp [hne, hentry]
        obtain ⟨dependents, hentry', hnodup', hmem⟩ := ih hlinked hnodup
        refine ⟨dependents, hentry', hnodup', fun path => ?_⟩
        rw [hmem]
        grind

/-- The entry that stands for its path gets the paths of those that depend on
it, sorted and without repetition. -/
theorem rebuildDependents_entry {document : ArtifactDocument} {position : Nat}
    {artifact : Artifact} (hentry : document[position]? = some artifact) :
    ∃ dependents, (rebuildDependents document)[position]? =
        some { artifact with dependents := dependents } ∧
      dependents.Nodup ∧ dependents.Pairwise (· ≤ ·) ∧
      ∀ path, path ∈ dependents ↔ (byPath document).get? artifact.path = some position ∧
        ∃ dependent ∈ document, dependent.path = path ∧
          artifact.path ∈ dependent.dependencies := by
  generalize hclear : (document.map fun artifact => { artifact with dependents := [] }) = cleared
  have hcleared : SameEdges document cleared := by
    rw [← hclear, SameEdges, List.map_map]
    rfl
  have hempty : cleared[position]? = some { artifact with dependents := [] } := by
    rw [← hclear, List.getElem?_map, hentry, Option.map_some]
  obtain ⟨dependents, hlinked, hnodup, hmem⟩ := linkItems_entry (byPath document)
    (cleared.flatMap fun artifact =>
      artifact.dependencies.map fun dependency => (artifact, dependency)) hempty List.nodup_nil
  refine ⟨dependents.insertionSort (· ≤ ·), ?_, ?_, List.pairwise_insertionSort _ _, ?_⟩
  · rw [List.foldl_flatMap] at hlinked
    simp only [List.foldl_map] at hlinked
    unfold rebuildDependents
    simp only [hclear, hcleared.byPath_eq]
    rw [List.getElem?_map]
    exact congrArg (Option.map Artifact.sortDependents) hlinked
  · exact (List.perm_insertionSort _ _).nodup_iff.mpr hnodup
  · intro path
    rw [(List.perm_insertionSort _ _).mem_iff, hmem]
    have hnamed (dependency : String)
        (h : (byPath document).get? dependency = some position) : dependency = artifact.path := by
      have hpath := (byPath_spec h).1
      rw [hentry, Option.map_some, Option.some.injEq] at hpath
      exact hpath.symm
    simp only [← hclear, List.not_mem_nil, false_or, List.mem_flatMap, List.mem_map]
    constructor
    · rintro ⟨item, ⟨_, ⟨dependent, hdependent, rfl⟩, dependency, hdependency, rfl⟩, hlast, hpath⟩
      have hself := hnamed dependency hlast
      exact ⟨hself ▸ hlast, dependent, hdependent, hpath, hself ▸ hdependency⟩
    · rintro ⟨hlast, dependent, hdependent, hpath, hdependency⟩
      exact ⟨_, ⟨_, ⟨dependent, hdependent, rfl⟩, _, hdependency, rfl⟩, hlast, hpath⟩

/-- Without repeated paths every entry stands for its own. -/
theorem byPath_of_nodup {document : ArtifactDocument}
    (hpaths : (document.map Artifact.path).Nodup) {position : Nat} {artifact : Artifact}
    (hentry : document[position]? = some artifact) :
    (byPath document).get? artifact.path = some position := by
  have hkeys : ((document.zipIdx.map fun entry => (entry.1.path, entry.2)).map Prod.fst).Nodup := by
    rw [List.map_map]
    have hsame : (Prod.fst ∘ fun entry : Artifact × Nat => (entry.1.path, entry.2)) =
        Artifact.path ∘ Prod.fst := rfl
    rw [hsame, ← List.map_map, List.zipIdx_map_fst]
    exact hpaths
  have hlookup := Dict.get?_update hkeys [] artifact.path
  rw [Dict.get?_nil, Option.or_none] at hlookup
  refine hlookup.trans (Dict.get?_of_mem hkeys ?_)
  exact List.mem_map.mpr ⟨(artifact, position), List.mem_zipIdx_iff_getElem?.mpr hentry, rfl⟩

theorem find_of_nodup {document : ArtifactDocument} (hpaths : (document.map Artifact.path).Nodup)
    {artifact : Artifact} (hmember : artifact ∈ document) :
    (document.find? fun other => other.path = artifact.path) = some artifact := by
  induction document with
  | nil => cases hmember
  | cons first rest ih =>
      rw [List.map_cons, List.nodup_cons] at hpaths
      rcases List.mem_cons.mp hmember with rfl | hrest
      · simp
      · have hne : first.path ≠ artifact.path :=
          fun heq => hpaths.1 (heq ▸ List.mem_map_of_mem hrest)
        rw [List.find?_cons_of_neg (by simpa using hne)]
        exact ih hpaths.2 hrest

theorem rebuildDependents_sameEdges (document : ArtifactDocument) :
    SameEdges document (rebuildDependents document) := by
  apply List.ext_getElem?
  intro position
  rw [List.getElem?_map, List.getElem?_map]
  cases hentry : document[position]? with
  | none =>
      have hlength := congrArg List.length (rebuildDependents_sameStatuses document)
      rw [List.length_map, List.length_map] at hlength
      rw [List.getElem?_eq_none_iff] at hentry
      rw [List.getElem?_eq_none_iff.mpr (by omega)]
  | some artifact =>
      obtain ⟨dependents, hentry', -⟩ := rebuildDependents_entry hentry
      rw [hentry', Option.map_some, Option.map_some]
      rfl

/-! ### One registration -/

section Register

variable (host : Host)

/-- The path a registration is entered under, once its file has been looked at. -/
def Host.locate (path : String) : Except RegistryError String :=
  (normalizePath path).bind fun normalizedPath =>
    match host.lookError (pathSegments normalizedPath) with
    | some error => .error (.uncaught error)
    | none => .ok normalizedPath

/-- A loaded document with one more registration in it, its dependents not yet
rebuilt. -/
def entered (project : Project) (document : ArtifactDocument) (path : String)
    (stageId : Option String) (dependencies : List String) : ArtifactDocument :=
  let file := snapshot host project.files path
  match document.find? fun artifact => artifact.path = path with
  | none => document ++ [{
      id := s!"artifact-{host.uuid4 project.drawn}"
      path := path
      stageId := stageId
      status := file.status
      dependencies := Artifact.normalizeEdges dependencies
      dependents := []
      contentHash := file.contentHash
      modifiedAt := file.modifiedAt
      tokenEstimate := file.tokenEstimate }]
  | some artifact =>
      document.set (document.findIdx fun artifact => artifact.path = path)
        (artifact.reregister stageId dependencies file)

/-- A project in which a document has just been saved. -/
def Project.Holds (project : Project) (document : ArtifactDocument) : Prop :=
  project.registry = .document document ∧ project.graph = some (buildGraph document)

variable {host} {project : Project} {path : String} {stageId : Option String}
  {dependencies : Option (List String)}

theorem Host.locate_eq_ok {normalized : String} :
    host.locate path = .ok normalized ↔
      normalizePath path = .ok normalized ∧ host.lookError (pathSegments normalized) = none := by
  unfold Host.locate
  cases normalizePath path with
  | error error => simp [Except.bind]
  | ok other =>
      simp only [Except.bind, Except.ok.injEq]
      cases hlook : host.lookError (pathSegments other) with
      | some error =>
          simp only [reduceCtorEq, false_iff, not_and]
          rintro rfl
          simp [hlook]
      | none =>
          simp only [Except.ok.injEq, iff_self_and]
          rintro rfl
          exact hlook

theorem Host.locate_of_located {normalized : String} (h : host.locate path = .ok normalized) :
    host.locate normalized = .ok normalized := by
  obtain ⟨hpath, hlook⟩ := Host.locate_eq_ok.mp h
  obtain ⟨hposix, hinside, hne⟩ := normalizePath_eq_ok.mp hpath
  refine Host.locate_eq_ok.mpr ⟨normalizePath_eq_ok.mpr ⟨?_, hinside, hne⟩, hlook⟩
  rw [← hposix, posixPath_posixPath]

theorem exec_register_of_path_error {document : ArtifactDocument} {error : RegistryError}
    (hload : project.load = .ok document) (hpath : host.locate path = .error error) :
    (register host path stageId dependencies).exec project = (.error error, project) := by
  simp only [register, Effect.exec_bind, Effect.exec_get, Effect.exec_ofExcept, hload]
  unfold Host.locate at hpath
  cases hnormalize : normalizePath path with
  | error refused =>
      rw [hnormalize] at hpath
      cases hpath
      rfl
  | ok normalized =>
      rw [hnormalize] at hpath
      dsimp only [Except.bind] at hpath
      dsimp only
      unfold takeSnapshot
      split at hpath
      · cases hpath
        simp only [*]
      · cases hpath

variable (host) (stageId) (dependencies) in
/-- A registration of an accepted path succeeds, and saves the table with that
path entered. -/
theorem exec_register {document : ArtifactDocument} {normalized : String}
    (hload : project.load = .ok document) (hpath : host.locate path = .ok normalized) :
    ∃ artifact project', (register host path stageId dependencies).exec project =
        (.ok artifact, project') ∧ project'.files = project.files ∧
      project'.Holds (rebuildDependents
        (entered host project document normalized stageId (dependencies.getD []))) := by
  obtain ⟨hpath, hlook⟩ := Host.locate_eq_ok.mp hpath
  have haccepted := Artifact.normalizePath_of_accepted hpath
  have hsnapshot : takeSnapshot host project.files normalized =
      .ok (snapshot host project.files normalized) := by
    rw [takeSnapshot, hlook]
  have hempty : Artifact.normalizeEdges [] = [] := rfl
  rcases hexec : (register host path stageId dependencies).exec project with ⟨outcome, project'⟩
  cases hfind : document.find? fun artifact => artifact.path = normalized with
  | none =>
      simp only [register, newArtifact, saveRegistry, Effect.exec_bind, Effect.exec_get,
        Effect.exec_ofExcept, Effect.exec_modify, Effect.exec_pure, hload, hpath, hsnapshot, hfind,
        Artifact.validate, haccepted, Except.map, Except.mapError, Prod.mk.injEq] at hexec
      obtain ⟨rfl, rfl⟩ := hexec
      refine ⟨_, _, rfl, rfl, ?_⟩
      simp only [Project.Holds, entered, hfind, hempty, and_self]
  | some artifact =>
      simp only [register, saveRegistry, Effect.exec_bind, Effect.exec_get, Effect.exec_ofExcept,
        Effect.exec_modify, Effect.exec_pure, hload, hpath, hsnapshot, hfind,
        Prod.mk.injEq] at hexec
      obtain ⟨rfl, rfl⟩ := hexec
      refine ⟨_, _, rfl, rfl, ?_⟩
      simp only [Project.Holds, entered, hfind, and_self]

variable (host) (stageId) (dependencies) in
/-- The entry it returns has the normalised path. -/
theorem exec_register_path {document : ArtifactDocument} {normalized : String}
    (hload : project.load = .ok document) (hpath : host.locate path = .ok normalized) :
    ∃ artifact project', (register host path stageId dependencies).exec project =
      (.ok artifact, project') ∧ artifact.path = normalized := by
  obtain ⟨hpath, hlook⟩ := Host.locate_eq_ok.mp hpath
  have haccepted := Artifact.normalizePath_of_accepted hpath
  have hsnapshot : takeSnapshot host project.files normalized =
      .ok (snapshot host project.files normalized) := by
    rw [takeSnapshot, hlook]
  cases hfind : document.find? fun artifact => artifact.path = normalized with
  | none =>
      simp only [register, newArtifact, saveRegistry, Effect.exec_bind, Effect.exec_get,
        Effect.exec_ofExcept, Effect.exec_modify, Effect.exec_pure, hload, hpath, hsnapshot, hfind,
        Artifact.validate, haccepted, Except.map, Except.mapError]
      refine ⟨_, _, rfl, ?_⟩
      obtain ⟨dependents, hentry, -⟩ := rebuildDependents_entry
        (List.getElem?_concat_length (l := document))
      rw [List.getD_eq_getElem?_getD, hentry]
      rfl
  | some artifact =>
      simp only [register, saveRegistry, Effect.exec_bind, Effect.exec_get, Effect.exec_ofExcept,
        Effect.exec_modify, Effect.exec_pure, hload, hpath, hsnapshot, hfind]
      refine ⟨_, _, rfl, ?_⟩
      have hsame : artifact.path = normalized := by simpa using List.find?_some hfind
      have hposition : (document.findIdx fun artifact => artifact.path = normalized) <
          document.length :=
        List.findIdx_lt_length_of_exists
          ⟨artifact, List.mem_of_find?_eq_some hfind, by simpa using hsame⟩
      obtain ⟨dependents, hentry, -⟩ := rebuildDependents_entry
        (List.getElem?_set_self hposition)
      rw [List.getD_eq_getElem?_getD, hentry]
      exact hsame

end Register

def enteredDependencies (document : ArtifactDocument) (path : String)
    (dependencies : List String) : List String :=
  match document.find? fun artifact => artifact.path = path with
  | none => Artifact.normalizeEdges dependencies
  | some artifact => if dependencies = [] then artifact.dependencies else dependencies

theorem enteredDependencies_of_new {document : ArtifactDocument} {path : String}
    (hnew : path ∉ document.map Artifact.path) (dependencies : List String) :
    enteredDependencies document path dependencies = Artifact.normalizeEdges dependencies := by
  have hfind : (document.find? fun artifact => artifact.path = path) = none := by
    rw [List.find?_eq_none]
    intro artifact hartifact heq
    exact hnew (List.mem_map.mpr ⟨artifact, hartifact, of_decide_eq_true heq⟩)
  rw [enteredDependencies, hfind]

/-- No dependencies given: the ones of an entry that exists stay. -/
theorem enteredDependencies_of_registered {document : ArtifactDocument} {path : String}
    (hregistered : path ∈ document.map Artifact.path) (dependencies : List String) :
    ∃ artifact ∈ document, artifact.path = path ∧
      enteredDependencies document path dependencies =
        if dependencies = [] then artifact.dependencies else dependencies := by
  unfold enteredDependencies
  cases hfind : document.find? fun artifact => artifact.path = path with
  | none =>
      obtain ⟨artifact, hartifact, hpath⟩ := List.mem_map.mp hregistered
      exact absurd (decide_eq_true hpath) (List.find?_eq_none.mp hfind artifact hartifact)
  | some artifact =>
      refine ⟨artifact, List.mem_of_find?_eq_some hfind, ?_, rfl⟩
      simpa using List.find?_some hfind

theorem enteredDependencies_cases (document : ArtifactDocument) (path : String)
    (dependencies : List String) :
    Artifact.normalizeEdges (enteredDependencies document path dependencies) =
        Artifact.normalizeEdges dependencies ∨
      dependencies = [] ∧ ∃ artifact ∈ document, artifact.path = path ∧
        enteredDependencies document path dependencies = artifact.dependencies := by
  by_cases hregistered : path ∈ document.map Artifact.path
  · obtain ⟨artifact, hartifact, hpath, hentered⟩ :=
      enteredDependencies_of_registered hregistered dependencies
    by_cases hempty : dependencies = []
    · exact Or.inr ⟨hempty, artifact, hartifact, hpath, hentered.trans (if_pos hempty)⟩
    · exact Or.inl (by rw [hentered, if_neg hempty])
  · left
    rw [enteredDependencies_of_new hregistered, Artifact.normalizeEdges_normalizeEdges]

/-- A registration adds a row to the table, or replaces the first row of its
path. -/
theorem entered_cases (host : Host) (project : Project) (document : ArtifactDocument)
    (path : String) (stageId : Option String) (dependencies : List String) :
    (path ∉ document.map Artifact.path ∧ ∃ created : Artifact,
      entered host project document path stageId dependencies = document ++ [created] ∧
      created.edge = (path, enteredDependencies document path dependencies)) ∨
    ∃ before artifact after, document = before ++ artifact :: after ∧
      path ∉ before.map Artifact.path ∧ artifact.path = path ∧ ∃ updated : Artifact,
        entered host project document path stageId dependencies = before ++ updated :: after ∧
        updated.edge = (path, enteredDependencies document path dependencies) := by
  unfold entered enteredDependencies
  cases hfind : document.find? fun artifact => artifact.path = path with
  | none =>
      refine Or.inl ⟨?_, _, rfl, rfl⟩
      intro hregistered
      obtain ⟨artifact, hartifact, hpath⟩ := List.mem_map.mp hregistered
      exact List.find?_eq_none.mp hfind artifact hartifact (by simp [hpath])
  | some artifact =>
      obtain ⟨hpath, before, after, rfl, hbefore⟩ := List.find?_eq_some_iff_append.mp hfind
      have hpath : artifact.path = path := of_decide_eq_true hpath
      have hfirst : path ∉ before.map Artifact.path := by
        intro hregistered
        obtain ⟨earlier, hearlier, heq⟩ := List.mem_map.mp hregistered
        have hother := hbefore earlier hearlier
        simp [heq] at hother
      have hposition : ((before ++ artifact :: after).findIdx fun artifact =>
          artifact.path = path) = before.length := by
        rw [List.findIdx_append, List.findIdx_eq_length.mpr]
        · simp [List.findIdx_cons, hpath]
        · intro earlier hearlier
          simpa using hbefore earlier hearlier
      refine Or.inr ⟨before, artifact, after, rfl, hfirst, hpath,
        artifact.reregister stageId dependencies (snapshot host project.files path), ?_, ?_⟩
      · simp only [hposition]
        rw [List.set_append_right _ _ (Nat.le_refl _), Nat.sub_self, List.set_cons_zero]
      · rw [← hpath]
        rfl

theorem entered_paths (host : Host) (project : Project) (document : ArtifactDocument)
    (path : String) (stageId : Option String) (dependencies : List String) :
    (entered host project document path stageId dependencies).map Artifact.path =
      if path ∈ document.map Artifact.path then document.map Artifact.path
      else document.map Artifact.path ++ [path] := by
  rcases entered_cases host project document path stageId dependencies with
    ⟨hnew, created, hentered, hedge⟩ |
    ⟨before, artifact, after, rfl, -, hpath, updated, hentered, hedge⟩
  · have hcreated : created.path = path := congrArg Prod.fst hedge
    rw [hentered, if_neg hnew, List.map_append, List.map_singleton, hcreated]
  · have hupdated : updated.path = path := congrArg Prod.fst hedge
    rw [hentered, if_pos (by simp [hpath])]
    simp [hpath, hupdated]

/-- The rows after a registration: the one of its path, and all others. -/
theorem mem_entered_edges {document : ArtifactDocument}
    (hpaths : (document.map Artifact.path).Nodup) (host : Host) (project : Project)
    (path : String) (stageId : Option String) (dependencies : List String)
    (edge : String × List String) :
    edge ∈ (entered host project document path stageId dependencies).map Artifact.edge ↔
      edge = (path, enteredDependencies document path dependencies) ∨
        edge.1 ≠ path ∧ edge ∈ document.map Artifact.edge := by
  have hother {rows : ArtifactDocument} (hrows : path ∉ rows.map Artifact.path)
      (h : edge ∈ rows.map Artifact.edge) : edge.1 ≠ path := by
    obtain ⟨artifact, hartifact, rfl⟩ := List.mem_map.mp h
    exact fun heq => hrows (List.mem_map.mpr ⟨artifact, hartifact, heq⟩)
  rcases entered_cases host project document path stageId dependencies with
    ⟨hnew, created, hentered, hedge⟩ |
    ⟨before, artifact, after, hdocument, hbefore, hpath, updated, hentered, hedge⟩
  · rw [hentered, List.map_append, List.map_singleton, hedge, List.mem_append, List.mem_singleton]
    constructor
    · rintro (hold | hself)
      · exact Or.inr ⟨hother hnew hold, hold⟩
      · exact Or.inl hself
    · rintro (hself | ⟨-, hold⟩)
      · exact Or.inr hself
      · exact Or.inl hold
  · have hafter : path ∉ after.map Artifact.path := by
      rw [hdocument, List.map_append, List.map_cons, hpath, List.nodup_append] at hpaths
      exact (List.nodup_cons.mp hpaths.2.1).1
    rw [hentered, List.map_append, List.map_cons, hedge, List.mem_append, List.mem_cons,
      hdocument, List.map_append, List.map_cons, List.mem_append, List.mem_cons]
    constructor
    · rintro (hold | hself | hold)
      · exact Or.inr ⟨hother hbefore hold, Or.inl hold⟩
      · exact Or.inl hself
      · exact Or.inr ⟨hother hafter hold, Or.inr (Or.inr hold)⟩
    · rintro (hself | ⟨hne, hold | hreplaced | hold⟩)
      · exact Or.inr (Or.inl hself)
      · exact Or.inl hold
      · exact absurd ((congrArg Prod.fst hreplaced).trans hpath) hne
      · exact Or.inr (Or.inr hold)

/-- What holds of the dependencies in every row after a registration. -/
theorem forall_entered_dependencies {document : ArtifactDocument}
    (hpaths : (document.map Artifact.path).Nodup) (host : Host) (project : Project)
    (path : String) (stageId : Option String) (dependencies : List String)
    (P : List String → Prop) :
    (∀ stored ∈ (entered host project document path stageId dependencies).map
        Artifact.dependencies, P stored) ↔
      P (enteredDependencies document path dependencies) ∧
        ∀ artifact ∈ document, artifact.path ≠ path → P artifact.dependencies := by
  have hrow (edge : String × List String) :=
    mem_entered_edges hpaths host project path stageId dependencies edge
  constructor
  · intro hall
    have hstored (edge : String × List String)
        (h : edge ∈ (entered host project document path stageId dependencies).map
          Artifact.edge) : P edge.2 := by
      obtain ⟨artifact, hartifact, rfl⟩ := List.mem_map.mp h
      exact hall _ (List.mem_map_of_mem hartifact)
    refine ⟨hstored _ ((hrow _).mpr (Or.inl rfl)), ?_⟩
    intro artifact hartifact hne
    exact hstored artifact.edge ((hrow _).mpr (Or.inr ⟨hne, List.mem_map_of_mem hartifact⟩))
  · rintro ⟨hown, hothers⟩ stored hstored
    obtain ⟨artifact, hartifact, rfl⟩ := List.mem_map.mp hstored
    rcases (hrow artifact.edge).mp (List.mem_map_of_mem hartifact) with hself | ⟨hne, hold⟩
    · rwa [show artifact.dependencies = _ from (Prod.mk.inj hself).2]
    · obtain ⟨original, horiginal, hedge⟩ := List.mem_map.mp hold
      obtain ⟨hpath, hdeps⟩ := Prod.mk.inj hedge
      rw [← hdeps]
      exact hothers original horiginal (hpath ▸ hne)

end ForgeOS
