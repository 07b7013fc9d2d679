import ForgeOS.Context.Runs

/-!
The three places that hold the dependencies: the entries, their dependents and
the graph. The two derived ones are made from the entries in memory, so they
agree with what is loaded exactly where loading changes nothing they read.
-/

namespace ForgeOS

open Library

/-- Among registered paths a list of dependencies says the same before and
after validation: it names none of them twice, and each one in the spelling it
is registered in as soon as it names it in another. -/
structure SameNamed (registered dependencies : List String) : Prop where
  once : (dependencies.filter (· ∈ registered)).Nodup
  spelled : ∀ dependency ∈ dependencies, posixPath dependency ∈ registered →
    posixPath dependency ∈ dependencies

/-- The edges into a path that a graph gets for some dependencies. -/
def namedEdges (registered dependencies : List String) : List String :=
  (dependencies.insertionSort (· ≤ ·)).filter (· ∈ registered)

section Named

variable {registered dependencies : List String}

theorem sameNamed_of_normalized (h : Artifact.normalizeEdges dependencies = dependencies) :
    SameNamed registered dependencies := by
  have hnodup := Artifact.nodup_normalizeEdges dependencies
  rw [h] at hnodup
  refine ⟨hnodup.filter _, ?_⟩
  intro dependency hdependency _
  have hmember : dependency ∈ Artifact.normalizeEdges dependencies := by
    rw [h]
    exact hdependency
  obtain ⟨-, item, -, hitem⟩ := Artifact.mem_normalizeEdges.mp hmember
  rw [← hitem, posixPath_posixPath, hitem]
  exact hdependency

/-- A registered path is among the dependencies before validation as after it. -/
theorem SameNamed.mem_iff (h : SameNamed registered dependencies) {path : String}
    (hregistered : path ∈ registered) (hpath : Artifact.normalizePath path = .ok path) :
    path ∈ Artifact.normalizeEdges dependencies ↔ path ∈ dependencies := by
  rw [Artifact.mem_normalizeEdges]
  constructor
  · rintro ⟨-, item, hitem, rfl⟩
    exact h.spelled item hitem hregistered
  · intro hmember
    obtain ⟨hposix, -, hne⟩ := Artifact.normalizePath_eq_ok.mp hpath
    exact ⟨hne, path, hmember, hposix⟩

/-- The graph is the same for the dependencies before and after validation. -/
theorem namedEdges_eq_iff
    (haccepted : ∀ path ∈ registered, Artifact.normalizePath path = .ok path) :
    namedEdges registered (Artifact.normalizeEdges dependencies) =
        namedEdges registered dependencies ↔
      SameNamed registered dependencies := by
  have hsorted (items : List String) : (namedEdges registered items).Pairwise (· ≤ ·) :=
    (List.pairwise_insertionSort _ _).filter _
  have hperm (items : List String) :
      (namedEdges registered items).Perm (items.filter (· ∈ registered)) :=
    (List.perm_insertionSort _ _).filter _
  have hnodup : ((Artifact.normalizeEdges dependencies).filter (· ∈ registered)).Nodup :=
    (Artifact.nodup_normalizeEdges dependencies).filter _
  constructor
  · intro heq
    have hsame : ((Artifact.normalizeEdges dependencies).filter (· ∈ registered)).Perm
        (dependencies.filter (· ∈ registered)) :=
      ((hperm _).symm.trans (heq ▸ hperm dependencies))
    refine ⟨hsame.nodup_iff.mp hnodup, ?_⟩
    intro dependency hdependency hregistered
    have hne := (Artifact.normalizePath_eq_ok.mp (haccepted _ hregistered)).2.2
    have hmember : posixPath dependency ∈
        (Artifact.normalizeEdges dependencies).filter (· ∈ registered) :=
      List.mem_filter.mpr ⟨Artifact.mem_normalizeEdges.mpr ⟨hne, dependency, hdependency, rfl⟩,
        decide_eq_true hregistered⟩
    exact List.mem_of_mem_filter (hsame.mem_iff.mp hmember)
  · intro hnamed
    refine ((hperm _).trans (.trans ?_ (hperm _).symm)).eq_of_pairwise
      (fun _ _ _ _ => String.le_antisymm) (hsorted _) (hsorted _)
    refine (List.perm_ext_iff_of_nodup hnodup hnamed.once).mpr fun path => ?_
    simp only [List.mem_filter, decide_eq_true_eq]
    refine and_congr_left fun hregistered => hnamed.mem_iff hregistered (haccepted _ hregistered)

end Named

/-! ### The graph -/

/-- The edges into the paths of some entries. -/
private def edgesInto (sources : Artifact → List String) (artifacts : List Artifact) :
    List GraphEdge :=
  artifacts.flatMap fun artifact => (sources artifact).map fun source => ⟨source, artifact.path⟩

private theorem target_of_mem_edgesInto {sources : Artifact → List String}
    {artifacts : List Artifact} {edge : GraphEdge} (h : edge ∈ edgesInto sources artifacts) :
    edge.target ∈ artifacts.map Artifact.path := by
  obtain ⟨artifact, hartifact, hedge⟩ := List.mem_flatMap.mp h
  obtain ⟨source, -, rfl⟩ := List.mem_map.mp hedge
  exact List.mem_map_of_mem hartifact

/-- Without repeated paths, the edges determine the sources of each entry. -/
private theorem edgesInto_injective {sources sources' : Artifact → List String}
    {artifacts : List Artifact} (hpaths : (artifacts.map Artifact.path).Nodup)
    (h : edgesInto sources artifacts = edgesInto sources' artifacts) :
    ∀ artifact ∈ artifacts, sources artifact = sources' artifact := by
  induction artifacts with
  | nil => simp
  | cons first rest ih =>
      rw [List.map_cons, List.nodup_cons] at hpaths
      have hrest (sources : Artifact → List String) :
          (edgesInto sources rest).filter (fun edge => edge.target = first.path) = [] := by
        rw [List.filter_eq_nil_iff]
        intro edge hedge heq
        exact hpaths.1 (of_decide_eq_true heq ▸ target_of_mem_edgesInto hedge)
      have hfirst (items : List String) :
          (items.map fun source => (⟨source, first.path⟩ : GraphEdge)).filter
            (fun edge => edge.target = first.path) =
          items.map fun source => ⟨source, first.path⟩ := by
        simp [List.filter_eq_self]
      have hsplit (sources : Artifact → List String) : edgesInto sources (first :: rest) =
          ((sources first).map fun source => (⟨source, first.path⟩ : GraphEdge)) ++
            edgesInto sources rest := rfl
      rw [hsplit, hsplit] at h
      have hown := congrArg (List.filter fun edge => edge.target = first.path) h
      rw [List.filter_append, List.filter_append, hrest, hrest, hfirst, hfirst, List.append_nil,
        List.append_nil] at hown
      have hsources : sources first = sources' first := by
        have hnames := congrArg (List.map GraphEdge.source) hown
        simpa [List.map_map, Function.comp_def] using hnames
      rw [hsources] at h
      intro artifact hartifact
      rcases List.mem_cons.mp hartifact with rfl | hlater
      · exact hsources
      · exact ih hpaths.2 (List.append_cancel_left h) artifact hlater

theorem buildGraph_normalizeTables_iff {document : ArtifactDocument}
    (hpaths : (document.map Artifact.path).Nodup) :
    buildGraph (document.map Artifact.normalizeTables) = buildGraph document ↔
      ∀ artifact ∈ document,
        namedEdges (document.map Artifact.path) (Artifact.normalizeEdges artifact.dependencies) =
          namedEdges (document.map Artifact.path) artifact.dependencies := by
  have hsorted : ((document.insertionSort fun a b => a.path ≤ b.path).map
      Artifact.normalizeTables) = (document.map Artifact.normalizeTables).insertionSort
        fun a b => a.path ≤ b.path :=
    List.map_insertionSort _ _ _ _ fun _ _ _ _ => Iff.rfl
  have hregistered : (document.map Artifact.normalizeTables).map Artifact.path =
      document.map Artifact.path := by
    rw [List.map_map]
    rfl
  have hperm := List.perm_insertionSort (fun a b : Artifact => a.path ≤ b.path) document
  have hedges : (buildGraph (document.map Artifact.normalizeTables)).edges =
      edgesInto (fun artifact => namedEdges (document.map Artifact.path)
        (Artifact.normalizeEdges artifact.dependencies))
        (document.insertionSort fun a b => a.path ≤ b.path) := by
    simp only [buildGraph, ← hsorted, hregistered, List.flatMap_map]
    rfl
  have hnodes : (buildGraph (document.map Artifact.normalizeTables)).nodes =
      (buildGraph document).nodes := by
    simp only [buildGraph, ← hsorted, List.map_map]
    rfl
  constructor
  · intro heq artifact hartifact
    have hsame := hedges.symm.trans (congrArg ArtifactGraph.edges heq)
    exact edgesInto_injective ((hperm.map Artifact.path).nodup_iff.mpr hpaths) hsame artifact
      (hperm.mem_iff.mpr hartifact)
  · intro hall
    have hsame : (buildGraph (document.map Artifact.normalizeTables)).edges =
        (buildGraph document).edges := by
      rw [hedges]
      apply List.flatMap_congr
      intro artifact hartifact
      exact congrArg (List.map fun source => (⟨source, artifact.path⟩ : GraphEdge))
        (hall artifact (hperm.mem_iff.mp hartifact))
    calc buildGraph (document.map Artifact.normalizeTables)
        = ⟨(buildGraph (document.map Artifact.normalizeTables)).nodes,
            (buildGraph (document.map Artifact.normalizeTables)).edges⟩ := rfl
      _ = buildGraph document := by rw [hnodes, hsame]

/-! ### The tables of a project -/

namespace Project

/-- The graph is the one of the loaded document, and the dependents in it are
the converse of the dependencies, sorted and without repetition. -/
structure TablesAgreeOn (graph : Option ArtifactGraph) (document : ArtifactDocument) : Prop where
  built : graph = some (buildGraph document)
  dependents : ∀ artifact ∈ document, ∀ dependent ∈ document,
    dependent.path ∈ artifact.dependents ↔ artifact.path ∈ dependent.dependencies
  sorted : ∀ artifact ∈ document, artifact.dependents.Pairwise (· ≤ ·)
  once : ∀ artifact ∈ document, artifact.dependents.Nodup

/-- Once something has been saved, the tables agree. -/
def TablesAgree (project : Project) : Prop :=
  project.registry ≠ .absent →
    ∃ document, project.load = .ok document ∧ TablesAgreeOn project.graph document

variable {host : Host} {project : Project} {table : ArtifactDocument}

/-- A loaded entry against the saved one: its dependents are those rebuilt
before the save. -/
theorem loaded_entry (hpaths : (table.map Artifact.path).Nodup)
    (haccepted : ∀ path ∈ table.map Artifact.path, Artifact.normalizePath path = .ok path)
    {loaded : Artifact}
    (hmember : loaded ∈ (rebuildDependents table).map Artifact.normalizeTables) :
    ∃ artifact ∈ table, loaded.path = artifact.path ∧
      loaded.dependencies = Artifact.normalizeEdges artifact.dependencies ∧
      loaded.dependents.Nodup ∧ loaded.dependents.Pairwise (· ≤ ·) ∧
      ∀ path, path ∈ loaded.dependents ↔
        ∃ dependent ∈ table, dependent.path = path ∧ artifact.path ∈ dependent.dependencies := by
  obtain ⟨saved, hsaved, rfl⟩ := List.mem_map.mp hmember
  obtain ⟨position, hposition⟩ := List.mem_iff_getElem?.mp hsaved
  have hbound : position < table.length :=
    (rebuildDependents_sameEdges table).length ▸ (List.getElem?_eq_some_iff.mp hposition).1
  have hentry : table[position]? = some (table.get ⟨position, hbound⟩) :=
    List.getElem?_eq_getElem hbound
  obtain ⟨dependents, hrebuilt, hnodup, hsorted, hmem⟩ := rebuildDependents_entry hentry
  rw [hposition, Option.some.injEq] at hrebuilt
  have hfixed : Artifact.normalizeEdges dependents = dependents := by
    apply Artifact.normalizeEdges_of_fixed _ hnodup
    intro path hpath
    obtain ⟨-, dependent, hdependent, rfl, -⟩ := (hmem path).mp hpath
    obtain ⟨hposix, -, hne⟩ := Artifact.normalizePath_eq_ok.mp
      (haccepted _ (List.mem_map_of_mem hdependent))
    exact ⟨hposix, hne⟩
  refine ⟨_, List.mem_of_getElem? hentry, ?_⟩
  rw [hrebuilt]
  simp only [Artifact.normalizeTables, hfixed]
  refine ⟨trivial, trivial, hnodup, hsorted, fun path => (hmem path).trans ?_⟩
  exact and_iff_right (byPath_of_nodup hpaths hentry)

/-- Two entries with one path are the same entry. -/
theorem eq_of_path (hpaths : (table.map Artifact.path).Nodup) {artifact other : Artifact}
    (hartifact : artifact ∈ table) (hother : other ∈ table) (hpath : other.path = artifact.path) :
    other = artifact := by
  have hfind := find_of_nodup hpaths hother
  rw [hpath, find_of_nodup hpaths hartifact, Option.some.injEq] at hfind
  exact hfind.symm

/-- After a save the tables agree exactly when every row names the registered
paths alike before and after validation. -/
theorem tablesAgree_of_holds_iff (hholds : project.Holds (rebuildDependents table))
    (hpaths : (table.map Artifact.path).Nodup)
    (haccepted : ∀ path ∈ table.map Artifact.path, Artifact.normalizePath path = .ok path) :
    project.TablesAgree ↔
      ∀ dependencies ∈ table.map Artifact.dependencies,
        SameNamed (table.map Artifact.path) dependencies := by
  have hload := load_of_holds hholds haccepted
  have hedges := rebuildDependents_sameEdges table
  have hgraph : project.graph =
      some (buildGraph ((rebuildDependents table).map Artifact.normalizeTables)) ↔
      ∀ dependencies ∈ table.map Artifact.dependencies,
        SameNamed (table.map Artifact.path) dependencies := by
    rw [hholds.2, Option.some.injEq, eq_comm,
      buildGraph_normalizeTables_iff (hedges.paths ▸ hpaths), hedges.paths]
    simp only [namedEdges_eq_iff haccepted]
    rw [← hedges.dependencies, List.forall_mem_map]
  constructor
  · intro hagree
    obtain ⟨document, hdocument, htables⟩ := hagree (by rw [hholds.1]; simp)
    rw [hload, Except.ok.injEq] at hdocument
    subst hdocument
    exact hgraph.mp htables.built
  · intro hnamed _
    refine ⟨_, hload, hgraph.mpr hnamed, ?_, ?_, ?_⟩
    · intro loaded hloaded loaded' hloaded'
      obtain ⟨artifact, hartifact, hpath, -, -, -, hmem⟩ := loaded_entry hpaths haccepted hloaded
      obtain ⟨dependent, hdependent, hpath', hdeps', -⟩ := loaded_entry hpaths haccepted hloaded'
      have hregistered := List.mem_map_of_mem (f := Artifact.path) hartifact
      rw [hmem, hpath, hpath', hdeps',
        (hnamed _ (List.mem_map_of_mem hdependent)).mem_iff hregistered (haccepted _ hregistered)]
      constructor
      · rintro ⟨other, hother, heq, hdependency⟩
        rwa [← eq_of_path hpaths hdependent hother heq]
      · exact fun hdependency => ⟨dependent, hdependent, rfl, hdependency⟩
    · intro loaded hloaded
      obtain ⟨_, -, -, -, -, hsorted, -⟩ := loaded_entry hpaths haccepted hloaded
      exact hsorted
    · intro loaded hloaded
      obtain ⟨_, -, -, -, hnodup, -⟩ := loaded_entry hpaths haccepted hloaded
      exact hnodup

/-! ### Along a run -/

/-- All along a run, registration by registration, the tables agree. -/
def TablesStayAgreed (host : Host) (start : Project) (actions : List Action) : Prop :=
  ∀ before after, start.singleRun host actions = before ++ after →
    (run (perform host) start before).TablesAgree

/-- A registration of a path that is registered already gives it dependencies
that name the registered paths once and as they are spelled. -/
def KeepsTables (host : Host) (project : Project) : Action → Prop
  | .register path _ dependencies => ∀ document, project.load = .ok document →
      ∀ normalized, host.locate path = .ok normalized → normalized ∈ document.map Artifact.path →
        SameNamed (document.map Artifact.path) (dependencies.getD [])
  | _ => True

private theorem sameNamed_entered_iff {document : ArtifactDocument} {normalized : String}
    (hload : project.load = .ok document) (hpaths : (document.map Artifact.path).Nodup)
    (stageId : Option String) (dependencies : List String) :
    (∀ stored ∈ (entered host project document normalized stageId dependencies).map
        Artifact.dependencies, SameNamed ((entered host project document normalized stageId
          dependencies).map Artifact.path) stored) ↔
      (normalized ∈ document.map Artifact.path →
        SameNamed (document.map Artifact.path) dependencies) := by
  have hothers (registered : List String) : ∀ artifact ∈ document, artifact.path ≠ normalized →
      SameNamed registered artifact.dependencies := fun artifact hartifact _ =>
    sameNamed_of_normalized (normalized_of_load hload artifact hartifact).dependencies
  rw [forall_entered_dependencies hpaths, and_iff_left (hothers _), entered_paths]
  by_cases hold : normalized ∈ document.map Artifact.path
  · obtain ⟨artifact, hartifact, -, hentered⟩ := enteredDependencies_of_registered hold dependencies
    simp only [hentered, hold, if_true, true_implies]
    by_cases hempty : dependencies = []
    · rw [if_pos hempty, hempty]
      exact iff_of_true (sameNamed_of_normalized (normalized_of_load hload artifact
        hartifact).dependencies) (sameNamed_of_normalized rfl)
    · rw [if_neg hempty]
  · rw [enteredDependencies_of_new hold]
    exact iff_of_true (sameNamed_of_normalized (Artifact.normalizeEdges_normalizeEdges _))
      (fun h => absurd h hold)

private theorem tablesAgree_after_register (hkept : project.WellKept host)
    (hagree : project.TablesAgree) (path : String) (stageId : Option String)
    (dependencies : Option (List String)) :
    (project.perform host (.register path stageId dependencies)).TablesAgree ↔
      project.KeepsTables host (.register path stageId dependencies) := by
  obtain ⟨document, hload, hpaths, hlocated⟩ := hkept.load
  refine after_register_iff hload (I := TablesAgree) hagree fun normalized hpath => ?_
  obtain ⟨hnodup, hlocated⟩ := entered_located hpath hpaths hlocated project stageId
    (dependencies.getD [])
  rw [tablesAgree_of_holds_iff (perform_register hload hpath stageId dependencies) hnodup
    (accepted_of_located hlocated), sameNamed_entered_iff hload hpaths]

private theorem tablesAgree_after_output (hkept : project.WellKept host)
    (hagree : project.TablesAgree) (stageId outputPath : String) :
    (project.perform host (.registerStageOutputs stageId [outputPath])).TablesAgree := by
  obtain ⟨document, hload, hpaths, -⟩ := hkept.load
  rw [perform_output_of_defaults (defaultDependencies_of_load hload stageId),
    tablesAgree_after_register hkept hagree]
  intro same hsame normalized _ _
  rw [hload, Except.ok.injEq] at hsame
  subst hsame
  apply sameNamed_of_normalized
  rw [Option.getD_some]
  split
  · rfl
  · have hothers : ((otherOutputs document stageId).map Artifact.path).Nodup :=
      hpaths.sublist (List.filter_sublist.map Artifact.path)
    refine Artifact.normalizeEdges_of_fixed ?_ ((List.perm_insertionSort _ _).nodup_iff.mpr hothers)
    intro path hpath
    rw [(List.perm_insertionSort _ _).mem_iff] at hpath
    obtain ⟨hposix, -, hne⟩ := Artifact.normalizePath_eq_ok.mp
      (accepted_of_load hload path ((List.filter_sublist.map Artifact.path).subset hpath))
    exact ⟨hposix, hne⟩

private theorem tablesAgree_after_refresh (hkept : project.WellKept host) :
    (project.perform host .refresh).TablesAgree := by
  obtain ⟨document, hload, hpaths, -⟩ := hkept.load
  have hedges := refreshDocument_sameEdges host project.files document
  rw [tablesAgree_of_holds_iff (perform_refresh hload) (hedges.paths ▸ hpaths)
    (hedges.paths ▸ accepted_of_load hload), hedges.dependencies]
  intro dependencies hdependencies
  obtain ⟨artifact, hartifact, rfl⟩ := List.mem_map.mp hdependencies
  exact sameNamed_of_normalized (normalized_of_load hload artifact hartifact).dependencies

/-- The tables agree all along a run exactly when they agree at its start and
every registration in it keeps them so. It may start from any project whose
registry, if there is one, was left by calls like these. -/
theorem tablesStayAgreed_iff (host : Host) (start : Project) (hstart : start.WellKept host)
    (actions : List Action) :
    start.TablesStayAgreed host actions ↔
      start.TablesAgree ∧ ∀ before action after,
        start.singleRun host actions = before ++ action :: after →
          (run (perform host) start before).KeepsTables host action := by
  refine throughout_singleRun_iff host hstart actions (I := TablesAgree)
    (R := KeepsTables host) ?_ ?_ ?_ ?_
  · exact fun _ _ _ hagree => iff_of_true hagree trivial
  · intro project path stageId dependencies hkept hagree
    exact tablesAgree_after_register hkept hagree path stageId dependencies
  · intro project stageId outputPath hkept hagree
    exact iff_of_true (tablesAgree_after_output hkept hagree stageId outputPath) trivial
  · intro project hkept hagree
    exact iff_of_true (tablesAgree_after_refresh hkept) trivial

instance (registered dependencies : List String) : Decidable (SameNamed registered dependencies) :=
  decidable_of_iff ((dependencies.filter (· ∈ registered)).Nodup ∧
      ∀ dependency ∈ dependencies, posixPath dependency ∈ registered →
        posixPath dependency ∈ dependencies)
    ⟨fun h => ⟨h.1, h.2⟩, fun h => ⟨h.once, h.spelled⟩⟩

instance (project : Project) (action : Action) : Decidable (project.KeepsTables host action) :=
  match action with
  | .register path _ dependencies => inferInstanceAs (Decidable (∀ document,
      project.load = .ok document → ∀ normalized, host.locate path = .ok normalized →
        normalized ∈ document.map Artifact.path →
          SameNamed (document.map Artifact.path) (dependencies.getD [])))
  | .registerStageOutputs _ _ | .edit _ _ | .refresh => isTrue trivial

/-- `plan.md` is registered as depending on `srs.md`, and again with its
dependency in two spellings. -/
def twoSpellings : List Action := [
  .register "srs.md" (some "srs") none, .register "plan.md" (some "plan") (some [" srs.md"]),
  .refresh, .register "plan.md" none (some [" srs.md", "srs.md"])]

theorem tablesStayAgreed_twoSpellings :
    Session.demo.project.TablesStayAgreed Host.demo twoSpellings := by
  refine (tablesStayAgreed_iff Host.demo Session.demo.project (Or.inl rfl) _).mpr
    ⟨fun h => absurd rfl h, ?_⟩
  change Throughout (perform Host.demo) (KeepsTables Host.demo) Session.demo.project twoSpellings
  simp only [twoSpellings, throughout_cons]
  refine ⟨?_, ?_, ?_, ?_, throughout_nil _ _ _⟩
  · decide +kernel
  · decide +kernel
  · trivial
  · decide +kernel

/-- `plan.md` is registered again, as depending on `docs\\srs.md`. -/
def backslashAgain : List Action := [
  .register "docs/srs.md" (some "srs") none, .register "plan.md" (some "plan") none,
  .register "plan.md" none (some ["docs\\srs.md"])]

/-- Then the loaded `plan.md` depends on `docs/srs.md`, which has no dependent. -/
theorem not_tablesStayAgreed :
    ¬ Session.demo.project.TablesStayAgreed Host.demo backslashAgain := by
  intro hstays
  have hfinal := hstays _ [] (List.append_nil _).symm
  rw [run_singleRun] at hfinal
  obtain ⟨document, hload, hrows⟩ : ∃ document,
      (run (perform Host.demo) Session.demo.project backslashAgain).load = .ok document ∧
        document.map (fun artifact =>
          (artifact.path, artifact.dependencies, artifact.dependents)) =
            [("docs/srs.md", [], []), ("plan.md", ["docs/srs.md"], [])] :=
    exists_load_of_rows (by decide +kernel)
  have hentry (row : String × List String × List String)
      (h : row ∈ [("docs/srs.md", [], []), ("plan.md", ["docs/srs.md"], [])]) :
      ∃ artifact ∈ document, (artifact.path, artifact.dependencies, artifact.dependents) = row := by
    rw [← hrows] at h
    exact List.mem_map.mp h
  obtain ⟨srs, hsrs, hsrsRow⟩ := hentry ("docs/srs.md", [], []) (by simp)
  obtain ⟨plan, hplan, hplanRow⟩ := hentry ("plan.md", ["docs/srs.md"], []) (by simp)
  have hsaved : (run (perform Host.demo) Session.demo.project backslashAgain).registry ≠
      .absent := by
    intro habsent
    rw [load, habsent, Except.ok.injEq] at hload
    subst hload
    cases hsrs
  obtain ⟨same, hsame, htables⟩ := hfinal hsaved
  rw [hload, Except.ok.injEq] at hsame
  subst hsame
  simp only [Prod.mk.injEq] at hsrsRow hplanRow
  have hconverse := htables.dependents srs hsrs plan hplan
  rw [hsrsRow.2.2, hplanRow.2.1, hsrsRow.1] at hconverse
  simp at hconverse

end Project

end ForgeOS
