import ForgeOS.Context.Tables

/-!
Files and the texts that name them. The registry tells its artifacts apart by
the normalised text of their paths, and the file system by the segments in it;
the two agree on a registry as long as no file is entered in two spellings.
-/

namespace ForgeOS

open Library

/-- The text is accepted as a path and names the same project file as the path. -/
def Spells (spelling path : String) : Prop :=
  ∃ normalized, normalizePath spelling = .ok normalized ∧
    pathSegments normalized = pathSegments path

/-- Among some paths, one that is named by a dependency in any spelling is
among the dependencies as it stands. -/
def SpelledAlike (paths dependencies : List String) : Prop :=
  ∀ path ∈ paths, ∀ dependency ∈ dependencies, Spells dependency path → path ∈ dependencies

theorem spells_posixPath (spelling path : String) :
    Spells (posixPath spelling) path ↔ Spells spelling path := by
  simp only [Spells, normalizePath_eq_ok, posixPath_posixPath]

/-- An accepted dependency is kept by the validation of edges. -/
theorem posixPath_mem_normalizeEdges {dependencies : List String} {dependency path : String}
    (hdependency : dependency ∈ dependencies) (hspells : Spells dependency path) :
    posixPath dependency ∈ Artifact.normalizeEdges dependencies := by
  obtain ⟨normalized, hnormalized, -⟩ := hspells
  obtain ⟨hposix, -, hne⟩ := normalizePath_eq_ok.mp hnormalized
  exact Artifact.mem_normalizeEdges.mpr ⟨by rwa [hposix], dependency, hdependency, rfl⟩

theorem SpelledAlike.normalizeEdges {paths dependencies : List String}
    (haccepted : ∀ path ∈ paths, Artifact.normalizePath path = .ok path)
    (h : SpelledAlike paths dependencies) :
    SpelledAlike paths (Artifact.normalizeEdges dependencies) := by
  intro path hpath dependency hdependency hspells
  obtain ⟨-, item, hitem, rfl⟩ := Artifact.mem_normalizeEdges.mp hdependency
  rw [spells_posixPath] at hspells
  obtain ⟨hposix, -, hne⟩ := Artifact.normalizePath_eq_ok.mp (haccepted path hpath)
  exact Artifact.mem_normalizeEdges.mpr ⟨hne, path, h path hpath item hitem hspells, hposix⟩

/-! ### Linked artifacts -/

theorem mem_buildGraph_edges {document : ArtifactDocument} {source target : String} :
    ⟨source, target⟩ ∈ (buildGraph document).edges ↔
      source ∈ document.map Artifact.path ∧ Edge (dependentPaths document) source target := by
  rw [edge_dependentPaths]
  constructor
  · intro h
    obtain ⟨artifact, hartifact, hedge⟩ := List.mem_flatMap.mp h
    obtain ⟨dependency, hdependency, hpair⟩ := List.mem_map.mp hedge
    obtain ⟨rfl, rfl⟩ := GraphEdge.mk.inj hpair
    obtain ⟨hsorted, hregistered⟩ := List.mem_filter.mp hdependency
    rw [(List.perm_insertionSort _ _).mem_iff] at hartifact hsorted
    exact ⟨of_decide_eq_true hregistered, artifact.dependencies, List.mem_map_of_mem hartifact,
      hsorted⟩
  · rintro ⟨hregistered, dependencies, hrow, hdependency⟩
    obtain ⟨artifact, hartifact, hpair⟩ := List.mem_map.mp hrow
    obtain ⟨rfl, rfl⟩ := Prod.mk.inj hpair
    refine List.mem_flatMap.mpr ⟨artifact, (List.perm_insertionSort _ _).mem_iff.mpr hartifact, ?_⟩
    refine List.mem_map.mpr ⟨source, List.mem_filter.mpr ⟨?_, decide_eq_true hregistered⟩, rfl⟩
    exact (List.perm_insertionSort _ _).mem_iff.mpr hdependency

/-- The artifact is linked to one that depends on it, in its dependents and in
the graph. -/
structure Linked (graph : Option ArtifactGraph) (artifact dependent : Artifact) : Prop where
  dependents : dependent.path ∈ artifact.dependents
  edge : ∃ built, graph = some built ∧ ⟨artifact.path, dependent.path⟩ ∈ built.edges

/-- Different entries name different files, and a dependency in any accepted
spelling of an artifact's path is linked to the artifact. -/
structure OnePerFile (graph : Option ArtifactGraph) (document : ArtifactDocument) : Prop where
  distinct : ((document.map Artifact.path).map pathSegments).Nodup
  linked : ∀ artifact ∈ document, ∀ dependent ∈ document,
    ∀ dependency ∈ dependent.dependencies, Spells dependency artifact.path →
      Linked graph artifact dependent

namespace Project

variable {host : Host} {project : Project} {table : ArtifactDocument}

def OneArtifactPerFile (project : Project) : Prop :=
  ∀ document, project.load = .ok document → OnePerFile project.graph document

private theorem edge_of_rows (hpaths : (table.map Artifact.path).Nodup) {source : String}
    {dependent : Artifact} (hdependent : dependent ∈ table) :
    Edge (dependentPaths table) source dependent.path ↔ source ∈ dependent.dependencies := by
  rw [edge_dependentPaths]
  constructor
  · rintro ⟨dependencies, hrow, hsource⟩
    obtain ⟨other, hother, hpair⟩ := List.mem_map.mp hrow
    obtain ⟨hpath, rfl⟩ := Prod.mk.inj hpair
    rwa [← eq_of_path hpaths hdependent hother hpath]
  · exact fun hsource => ⟨_, List.mem_map_of_mem hdependent, hsource⟩

/-- After a save an artifact is linked where the row, as it was saved, has its
exact path. -/
private theorem linked_iff (hholds : project.Holds (rebuildDependents table))
    (hpaths : (table.map Artifact.path).Nodup) {loaded loaded' artifact dependent : Artifact}
    (hartifact : artifact ∈ table) (hdependent : dependent ∈ table)
    (hpath : loaded.path = artifact.path) (hpath' : loaded'.path = dependent.path)
    (hmem : ∀ path, path ∈ loaded.dependents ↔
      ∃ dependent ∈ table, dependent.path = path ∧ artifact.path ∈ dependent.dependencies) :
    Linked project.graph loaded loaded' ↔ artifact.path ∈ dependent.dependencies := by
  have hedges := rebuildDependents_sameEdges table
  constructor
  · intro hlinked
    obtain ⟨other, hother, heq, hdependency⟩ := (hmem _).mp hlinked.dependents
    rwa [← eq_of_path hpaths hdependent hother (heq.trans hpath')]
  · intro hdependency
    refine ⟨(hmem _).mpr ⟨dependent, hdependent, hpath'.symm, hdependency⟩, _, hholds.2, ?_⟩
    rw [mem_buildGraph_edges, hedges.paths, hedges.dependentPaths_eq, hpath, hpath']
    exact ⟨List.mem_map_of_mem hartifact, (edge_of_rows hpaths hdependent).mpr hdependency⟩

private theorem exists_loaded (hpaths : (table.map Artifact.path).Nodup)
    (haccepted : ∀ path ∈ table.map Artifact.path, Artifact.normalizePath path = .ok path)
    {artifact : Artifact} (hartifact : artifact ∈ table) :
    ∃ loaded ∈ (rebuildDependents table).map Artifact.normalizeTables,
      loaded.path = artifact.path ∧
      loaded.dependencies = Artifact.normalizeEdges artifact.dependencies ∧
      ∀ path, path ∈ loaded.dependents ↔
        ∃ dependent ∈ table, dependent.path = path ∧ artifact.path ∈ dependent.dependencies := by
  have hmember := List.mem_map_of_mem (f := Artifact.path) hartifact
  rw [← loaded_paths] at hmember
  obtain ⟨loaded, hloaded, hpath⟩ := List.mem_map.mp hmember
  obtain ⟨same, hsame, hsamePath, hdeps, -, -, hmem⟩ := loaded_entry hpaths haccepted hloaded
  obtain rfl := eq_of_path hpaths hartifact hsame (hsamePath.symm.trans hpath)
  exact ⟨loaded, hloaded, hpath, hdeps, hmem⟩

/-- After a save there is one artifact for each file exactly when the rows have
paths of different files, and spell the registered ones alike. -/
theorem onePerFile_of_holds_iff (hholds : project.Holds (rebuildDependents table))
    (hpaths : (table.map Artifact.path).Nodup)
    (haccepted : ∀ path ∈ table.map Artifact.path, Artifact.normalizePath path = .ok path) :
    project.OneArtifactPerFile ↔ ((table.map Artifact.path).map pathSegments).Nodup ∧
      ∀ dependencies ∈ table.map Artifact.dependencies,
        SpelledAlike (table.map Artifact.path) dependencies := by
  have hload := load_of_holds hholds haccepted
  have hsegments := congrArg (List.map pathSegments) (loaded_paths table)
  simp only [OneArtifactPerFile, hload, Except.ok.injEq, forall_eq']
  constructor
  · intro hone
    refine ⟨hsegments ▸ hone.distinct, ?_⟩
    intro dependencies hdependencies path hpath dependency hdependency hspells
    obtain ⟨dependent, hdependent, rfl⟩ := List.mem_map.mp hdependencies
    obtain ⟨artifact, hartifact, rfl⟩ := List.mem_map.mp hpath
    obtain ⟨loaded, hloaded, hpath, -, hmem⟩ := exists_loaded hpaths haccepted hartifact
    obtain ⟨loaded', hloaded', hpath', hdeps', -⟩ := exists_loaded hpaths haccepted hdependent
    refine (linked_iff hholds hpaths hartifact hdependent hpath hpath' hmem).mp ?_
    apply hone.linked loaded hloaded loaded' hloaded' (posixPath dependency)
    · rw [hdeps']
      exact posixPath_mem_normalizeEdges hdependency hspells
    · rwa [spells_posixPath, hpath]
  · rintro ⟨hdistinct, hspelled⟩
    refine ⟨hsegments ▸ hdistinct, ?_⟩
    intro loaded hloaded loaded' hloaded' dependency hdependency hspells
    obtain ⟨artifact, hartifact, hpath, -, -, -, hmem⟩ := loaded_entry hpaths haccepted hloaded
    obtain ⟨dependent, hdependent, hpath', hdeps', -⟩ := loaded_entry hpaths haccepted hloaded'
    rw [linked_iff hholds hpaths hartifact hdependent hpath hpath' hmem]
    rw [hdeps'] at hdependency
    obtain ⟨-, item, hitem, rfl⟩ := Artifact.mem_normalizeEdges.mp hdependency
    rw [spells_posixPath, hpath] at hspells
    exact hspelled _ (List.mem_map_of_mem hdependent) _ (List.mem_map_of_mem hartifact) item hitem
      hspells

/-! ### Along a run -/

/-- All along a run, registration by registration, there is one artifact for
each file, and the dependencies a registration is given are linked right after
it. -/
structure StaysOnePerFile (host : Host) (start : Project) (actions : List Action) : Prop where
  states : ∀ before after, start.singleRun host actions = before ++ after →
    (run (perform host) start before).OneArtifactPerFile
  given : ∀ before path stageId dependencies after,
    start.singleRun host actions =
      before ++ .register path stageId dependencies :: after →
    ∀ document, (run (perform host) start
        (before ++ [.register path stageId dependencies])).load = .ok document →
      ∀ artifact ∈ document, ∀ dependent ∈ document, normalizePath path = .ok dependent.path →
        ∀ dependency ∈ dependencies.getD [], Spells dependency artifact.path →
          Linked (run (perform host) start
            (before ++ [.register path stageId dependencies])).graph artifact dependent

/-- A registration enters a path whose file is not registered under another
path, and which the entries name as it stands if they name it at all. -/
def EntersOnce (document : ArtifactDocument) (path : String) : Prop :=
  (∀ other ∈ document.map Artifact.path, pathSegments other = pathSegments path → other = path) ∧
  ∀ artifact ∈ document, SpelledAlike [path] artifact.dependencies

/-- What a registration must meet: it enters its path once, and the
dependencies it enters are spelled as the registered paths are. -/
def KeepsOnePerFile (host : Host) (project : Project) : Action → Prop
  | .register path _ dependencies => ∀ document, project.load = .ok document →
      ∀ normalized, host.locate path = .ok normalized →
        EntersOnce document normalized ∧
        SpelledAlike (normalized :: document.map Artifact.path)
          (if normalized ∈ document.map Artifact.path then dependencies.getD []
            else Artifact.normalizeEdges (dependencies.getD []))
  | .registerStageOutputs _ outputPaths => ∀ document, project.load = .ok document →
      ∀ outputPath ∈ outputPaths, ∀ normalized, host.locate outputPath = .ok normalized →
        EntersOnce document normalized
  | _ => True

/-- Before a registration, on the loaded document. -/
private theorem stated_of_onePerFile (hkept : project.WellKept host)
    (hone : project.OneArtifactPerFile) {document : ArtifactDocument}
    (hload : project.load = .ok document) :
    ((document.map Artifact.path).map pathSegments).Nodup ∧
      ∀ artifact ∈ document,
        SpelledAlike (document.map Artifact.path) artifact.dependencies := by
  rcases hkept with habsent | ⟨table, hholds, hpaths, hlocated⟩
  · rw [load, habsent, Except.ok.injEq] at hload
    subst hload
    exact ⟨List.nodup_nil, by simp⟩
  · have haccepted := accepted_of_located hlocated
    rw [onePerFile_of_holds_iff hholds hpaths haccepted] at hone
    rw [load_of_holds hholds haccepted, Except.ok.injEq] at hload
    subst hload
    rw [loaded_paths]
    refine ⟨hone.1, ?_⟩
    intro loaded hloaded
    obtain ⟨artifact, hartifact, -, hdeps, -⟩ := loaded_entry hpaths haccepted hloaded
    rw [hdeps]
    exact (hone.2 _ (List.mem_map_of_mem hartifact)).normalizeEdges haccepted

private theorem entered_registered_iff {document : ArtifactDocument} {normalized : String}
    (hdistinct : ((document.map Artifact.path).map pathSegments).Nodup)
    (hspelled : ∀ artifact ∈ document,
      SpelledAlike (document.map Artifact.path) artifact.dependencies)
    (hold : normalized ∈ document.map Artifact.path) (dependencies : List String) :
    SpelledAlike (document.map Artifact.path)
        (enteredDependencies document normalized dependencies) ↔
      EntersOnce document normalized ∧
        SpelledAlike (normalized :: document.map Artifact.path) dependencies := by
  have hpaths : SpelledAlike (normalized :: document.map Artifact.path) dependencies ↔
      SpelledAlike (document.map Artifact.path) dependencies := by
    simp only [SpelledAlike, List.mem_cons, forall_eq_or_imp]
    exact and_iff_right_of_imp fun h => h normalized hold
  have honce : EntersOnce document normalized := by
    refine ⟨fun other hother hsame => ?_, fun artifact hartifact path hpath => ?_⟩
    · exact List.inj_on_of_nodup_map hdistinct hother hold hsame
    · rw [List.mem_singleton.mp hpath]
      exact hspelled artifact hartifact normalized hold
  obtain ⟨artifact, hartifact, -, hentered⟩ := enteredDependencies_of_registered hold dependencies
  rw [hpaths, and_iff_right honce, hentered]
  by_cases hempty : dependencies = []
  · rw [if_pos hempty, hempty]
    refine iff_of_true (hspelled artifact hartifact) ?_
    intro path _ dependency hdependency
    cases hdependency
  · rw [if_neg hempty]

/-- The path is new: it may be named already. -/
private theorem entered_new_iff {document : ArtifactDocument} {normalized : String}
    (hdistinct : ((document.map Artifact.path).map pathSegments).Nodup)
    (hspelled : ∀ artifact ∈ document,
      SpelledAlike (document.map Artifact.path) artifact.dependencies)
    (hnew : normalized ∉ document.map Artifact.path) (dependencies : List String) :
    (((document.map Artifact.path ++ [normalized]).map pathSegments).Nodup ∧
      SpelledAlike (document.map Artifact.path ++ [normalized]) dependencies ∧
      ∀ artifact ∈ document, artifact.path ≠ normalized →
        SpelledAlike (document.map Artifact.path ++ [normalized]) artifact.dependencies) ↔
      EntersOnce document normalized ∧
        SpelledAlike (normalized :: document.map Artifact.path) dependencies := by
  have hsplit (dependencies : List String) :
      SpelledAlike (document.map Artifact.path ++ [normalized]) dependencies ↔
        SpelledAlike (document.map Artifact.path) dependencies ∧
          SpelledAlike [normalized] dependencies := by
    simp only [SpelledAlike, List.forall_mem_append]
  have hcons (dependencies : List String) :
      SpelledAlike (normalized :: document.map Artifact.path) dependencies ↔
        SpelledAlike (document.map Artifact.path ++ [normalized]) dependencies := by
    refine forall_congr' fun path => ?_
    rw [(List.perm_append_singleton normalized _).mem_iff]
  have hfiles : ((document.map Artifact.path ++ [normalized]).map pathSegments).Nodup ↔
      ∀ other ∈ document.map Artifact.path,
        pathSegments other = pathSegments normalized → other = normalized := by
    rw [List.map_append, List.map_singleton, List.nodup_append]
    constructor
    · rintro ⟨-, -, hfresh⟩ other hother hsame
      exact absurd hsame (hfresh _ (List.mem_map_of_mem hother) _ (List.mem_singleton_self _))
    · intro hsame
      refine ⟨hdistinct, List.nodup_singleton _, ?_⟩
      intro segments hsegments last hlast heq
      obtain ⟨other, hother, rfl⟩ := List.mem_map.mp hsegments
      rw [List.mem_singleton.mp hlast] at heq
      exact hnew (hsame other hother heq ▸ hother)
  rw [hfiles, hcons, EntersOnce]
  have hothers : (∀ artifact ∈ document, artifact.path ≠ normalized →
      SpelledAlike (document.map Artifact.path ++ [normalized]) artifact.dependencies) ↔
      ∀ artifact ∈ document, SpelledAlike [normalized] artifact.dependencies := by
    refine forall₂_congr fun artifact hartifact => ?_
    have hne : artifact.path ≠ normalized :=
      fun heq => hnew (List.mem_map.mpr ⟨artifact, hartifact, heq⟩)
    rw [hsplit]
    exact ⟨fun h => (h hne).2, fun h _ => ⟨hspelled artifact hartifact, h⟩⟩
  rw [hothers, and_assoc, and_comm (a := SpelledAlike _ _)]

private theorem onePerFile_after_register (hkept : project.WellKept host)
    (hone : project.OneArtifactPerFile) (path : String) (stageId : Option String)
    (dependencies : Option (List String)) :
    (project.perform host (.register path stageId dependencies)).OneArtifactPerFile ↔
      project.KeepsOnePerFile host (.register path stageId dependencies) := by
  obtain ⟨document, hload, hpaths, hlocated⟩ := hkept.load
  obtain ⟨hdistinct, hspelled⟩ := stated_of_onePerFile hkept hone hload
  refine after_register_iff hload (I := OneArtifactPerFile) hone fun normalized hpath => ?_
  obtain ⟨hnodup, hlocated⟩ := entered_located hpath hpaths hlocated project stageId
    (dependencies.getD [])
  rw [onePerFile_of_holds_iff (perform_register hload hpath stageId dependencies) hnodup
    (accepted_of_located hlocated), forall_entered_dependencies hpaths, entered_paths]
  by_cases hold : normalized ∈ document.map Artifact.path
  · have hothers : ∀ artifact ∈ document, artifact.path ≠ normalized →
        SpelledAlike (document.map Artifact.path) artifact.dependencies :=
      fun artifact hartifact _ => hspelled artifact hartifact
    rw [if_pos hold, if_pos hold, and_iff_right hdistinct, and_iff_left hothers]
    exact entered_registered_iff hdistinct hspelled hold _
  · rw [if_neg hold, if_neg hold, enteredDependencies_of_new hold]
    exact entered_new_iff hdistinct hspelled hold _

private theorem spelledAlike_of_registered {document : ArtifactDocument} {normalized : String}
    (hdistinct : ((document.map Artifact.path).map pathSegments).Nodup)
    (haccepted : ∀ path ∈ document.map Artifact.path, Artifact.normalizePath path = .ok path)
    (honce : EntersOnce document normalized) {dependencies : List String}
    (hregistered : ∀ dependency ∈ dependencies, dependency ∈ document.map Artifact.path) :
    SpelledAlike (normalized :: document.map Artifact.path) dependencies := by
  intro path hpath dependency hdependency hspells
  have hmember := hregistered dependency hdependency
  obtain ⟨same, hsame, hsegments⟩ := hspells
  obtain ⟨hposix, -, -⟩ := Artifact.normalizePath_eq_ok.mp (haccepted dependency hmember)
  rw [← (normalizePath_eq_ok.mp hsame).1, hposix] at hsegments
  rcases List.mem_cons.mp hpath with rfl | hold
  · exact honce.1 dependency hmember hsegments ▸ hdependency
  · exact List.inj_on_of_nodup_map hdistinct hmember hold hsegments ▸ hdependency

private theorem onePerFile_after_output (hkept : project.WellKept host)
    (hone : project.OneArtifactPerFile) (stageId outputPath : String) :
    (project.perform host (.registerStageOutputs stageId [outputPath])).OneArtifactPerFile ↔
      project.KeepsOnePerFile host (.registerStageOutputs stageId [outputPath]) := by
  obtain ⟨document, hload, hpaths, -⟩ := hkept.load
  obtain ⟨hdistinct, -⟩ := stated_of_onePerFile hkept hone hload
  have haccepted := accepted_of_load hload
  rw [perform_output_of_defaults (defaultDependencies_of_load hload stageId),
    onePerFile_after_register hkept hone]
  constructor
  · intro hregister same hsame path hpath normalized hnormalized
    rw [List.mem_singleton] at hpath
    exact (hregister same hsame normalized (hpath ▸ hnormalized)).1
  · intro houtput same hsame normalized hnormalized
    rw [hload, Except.ok.injEq] at hsame
    subst hsame
    have honce := houtput document hload outputPath (List.mem_singleton_self _) normalized
      hnormalized
    refine ⟨honce, ?_⟩
    have hdefaults : ∀ dependency ∈ (some (if stageId = "srs" ∨
          project.files ["pipeline", "stages.yaml"] = none then []
        else ((otherOutputs document stageId).map Artifact.path).insertionSort
          (· ≤ ·))).getD [], dependency ∈ document.map Artifact.path := by
      intro dependency hdependency
      rw [Option.getD_some] at hdependency
      split at hdependency
      · cases hdependency
      · rw [(List.perm_insertionSort _ _).mem_iff] at hdependency
        exact (List.filter_sublist.map Artifact.path).subset hdependency
    split
    · exact spelledAlike_of_registered hdistinct haccepted honce hdefaults
    · apply spelledAlike_of_registered hdistinct haccepted honce
      intro dependency hdependency
      obtain ⟨-, item, hitem, rfl⟩ := Artifact.mem_normalizeEdges.mp hdependency
      have hmember := hdefaults item hitem
      rwa [(Artifact.normalizePath_eq_ok.mp (haccepted item hmember)).1]

private theorem onePerFile_after_refresh (hkept : project.WellKept host)
    (hone : project.OneArtifactPerFile) :
    (project.perform host .refresh).OneArtifactPerFile := by
  obtain ⟨document, hload, hpaths, -⟩ := hkept.load
  obtain ⟨hdistinct, hspelled⟩ := stated_of_onePerFile hkept hone hload
  have hedges := refreshDocument_sameEdges host project.files document
  rw [onePerFile_of_holds_iff (perform_refresh hload) (hedges.paths ▸ hpaths)
    (hedges.paths ▸ accepted_of_load hload), hedges.dependencies, hedges.paths]
  refine ⟨hdistinct, ?_⟩
  intro dependencies hdependencies
  obtain ⟨artifact, hartifact, rfl⟩ := List.mem_map.mp hdependencies
  exact hspelled artifact hartifact

/-- Right after a registration the given dependencies stand in its row. -/
private theorem given_recorded (hkept : project.WellKept host) {path : String}
    {stageId : Option String} {dependencies : Option (List String)} {loaded : ArtifactDocument}
    (hloaded : (project.perform host (.register path stageId dependencies)).load = .ok loaded)
    {dependent : Artifact} (hdependent : dependent ∈ loaded)
    (hpath : normalizePath path = .ok dependent.path) {dependency spelled : String}
    (hdependency : dependency ∈ dependencies.getD []) (hspells : Spells dependency spelled) :
    posixPath dependency ∈ dependent.dependencies := by
  obtain ⟨document, hload, hpaths, -⟩ := hkept.load
  obtain ⟨same, hsame, -, hlocated⟩ := (hkept.perform_register path stageId dependencies).load
  rw [hloaded, Except.ok.injEq] at hsame
  subst hsame
  have hlook := (Host.locate_eq_ok.mp (hlocated _ (List.mem_map_of_mem hdependent))).2
  have hpath : host.locate path = .ok dependent.path := Host.locate_eq_ok.mpr ⟨hpath, hlook⟩
  rw [load_after_register hkept hload hpath, Except.ok.injEq] at hloaded
  have hrow : (dependent.path, dependent.dependencies) ∈ loaded.map Artifact.edge :=
    List.mem_map_of_mem (f := Artifact.edge) hdependent
  rw [← hloaded, mem_loaded_edges] at hrow
  obtain ⟨stored, hstored, hdeps⟩ := hrow
  rcases (mem_entered_edges hpaths host project _ stageId _ _).mp hstored with hself | ⟨hne, -⟩
  · have hgiven : Artifact.normalizeEdges stored =
        Artifact.normalizeEdges (dependencies.getD []) := by
      rw [(Prod.mk.inj hself).2]
      refine (enteredDependencies_cases _ _ _).resolve_right ?_
      rintro ⟨hempty, -⟩
      rw [hempty] at hdependency
      cases hdependency
    rw [← hdeps, hgiven]
    exact posixPath_mem_normalizeEdges hdependency hspells
  · exact absurd rfl hne

/-- A run keeps one artifact for each file exactly when it starts with one and
every registration in it keeps it so. It may start from any project whose
registry, if there is one, was left by calls like these. -/
theorem staysOnePerFile_iff (host : Host) (start : Project) (hstart : start.WellKept host)
    (actions : List Action) :
    start.StaysOnePerFile host actions ↔
      start.OneArtifactPerFile ∧ ∀ before action after,
        start.singleRun host actions = before ++ action :: after →
          (run (perform host) start before).KeepsOnePerFile host action := by
  have hstates := throughout_singleRun_iff host hstart actions (I := OneArtifactPerFile)
    (R := KeepsOnePerFile host) ?_ ?_ ?_ ?_
  · rw [← hstates]
    refine ⟨fun h => h.states, fun h => ⟨h, ?_⟩⟩
    intro before path stageId dependencies after hcalls document hload artifact hartifact
      dependent hdependent hpath dependency hdependency hspells
    have hone := h (before ++ [.register path stageId dependencies]) after (by simp [hcalls])
      document hload
    have hkept : (run (perform host) start before).WellKept host :=
      run_invariant hstart fun project action haction hkept =>
        hkept.perform (single_of_mem_singleRun (hcalls ▸ List.mem_append_left _ haction))
    rw [run_snoc] at hload
    refine hone.linked artifact hartifact dependent hdependent (posixPath dependency)
      (given_recorded hkept hload hdependent hpath hdependency hspells) ?_
    rwa [spells_posixPath]
  · exact fun _ _ _ hone => iff_of_true hone trivial
  · intro project path stageId dependencies hkept hone
    exact onePerFile_after_register hkept hone path stageId dependencies
  · intro project stageId outputPath hkept hone
    exact onePerFile_after_output hkept hone stageId outputPath
  · intro project hkept hone
    exact iff_of_true (onePerFile_after_refresh hkept hone) trivial

instance (spelling path : String) : Decidable (Spells spelling path) :=
  decidable_of_iff ((normalizePath spelling).toOption.map pathSegments =
      some (pathSegments path)) <| by
    rw [Spells]
    cases normalizePath spelling <;> simp [Except.toOption]

instance (document : ArtifactDocument) (path : String) : Decidable (EntersOnce document path) := by
  unfold EntersOnce SpelledAlike
  infer_instance

instance (project : Project) (action : Action) :
    Decidable (project.KeepsOnePerFile host action) := by
  unfold KeepsOnePerFile SpelledAlike
  cases action <;> infer_instance

/-- Every path is first registered in a spelling of its own, and named in that
one from then on; a dependency comes in others besides. -/
def ownSpellings : List Action := [
  .register " ./srs.md" (some "srs") none,
  .register "docs\\plan.md" (some "plan") (some ["./srs.md", "srs.md"]),
  .registerStageOutputs "tests" ["tests//unit.md", "docs/plan.md"],
  .register "docs/plan.md " none (some ["./srs.md", " .//srs.md"])]

theorem staysOnePerFile_ownSpellings :
    Session.demo.project.StaysOnePerFile Host.demo ownSpellings := by
  refine (staysOnePerFile_iff Host.demo Session.demo.project (Or.inl rfl) _).mpr ⟨?_, ?_⟩
  · intro document hload
    obtain rfl : [] = document := Except.ok.inj hload
    exact ⟨List.nodup_nil, by simp⟩
  · change Throughout (perform Host.demo) (KeepsOnePerFile Host.demo) Session.demo.project
      (Session.demo.project.singleRun Host.demo ownSpellings)
    have hsingle : Session.demo.project.singleRun Host.demo ownSpellings = [
        .register " ./srs.md" (some "srs") none,
        .register "docs\\plan.md" (some "plan") (some ["./srs.md", "srs.md"]),
        .registerStageOutputs "tests" ["docs/plan.md"],
        .registerStageOutputs "tests" ["tests//unit.md"],
        .register "docs/plan.md " none (some ["./srs.md", " .//srs.md"])] := by
      decide +kernel
    rw [hsingle]
    simp only [throughout_cons]
    refine ⟨?_, ?_, ?_, ?_, ?_, throughout_nil _ _ _⟩
    all_goals decide +kernel

/-- `srs.md` is registered again as `./srs.md`. -/
def dotAgain : List Action := [
  .register "srs.md" (some "srs") none, .register "./srs.md" none none]

/-- Then there are two entries for one file. -/
theorem not_staysOnePerFile : ¬ Session.demo.project.StaysOnePerFile Host.demo dotAgain := by
  intro hstays
  have hfinal := hstays.states _ [] (List.append_nil _).symm
  rw [run_singleRun] at hfinal
  obtain ⟨document, hload, hpaths⟩ : ∃ document,
      (run (perform Host.demo) Session.demo.project dotAgain).load = .ok document ∧
        document.map Artifact.path = ["srs.md", "./srs.md"] :=
    exists_load_of_rows (by decide)
  have hdistinct := (hfinal document hload).distinct
  rw [hpaths] at hdistinct
  exact absurd hdistinct (by decide)

end Project

end ForgeOS
