import ForgeOS.Context.Staleness
import Mathlib.Data.List.DropRight
import Mathlib.Data.List.Forall2

/-!
What a load makes of a registry document. Validation normalises every entry,
and a normalised document loads as it stands. The outcome of each call is
given as one equation between the loaded document and the saved one.
-/

namespace ForgeOS

open Library

/-! ### Normalised texts -/

/-- `strip`, on characters. -/
private def stripped (text : List Char) : List Char :=
  (text.dropWhile isPySpace).rdropWhile isPySpace

/-- `c.replace("\\", "/")`, at one character. -/
private def slash (c : Char) : Char := if c = '\\' then '/' else c

private theorem toList_posixPath (value : String) :
    (posixPath value).toList = (stripped value.toList).map slash := by
  rw [posixPath, pyStrip, stripLine, String.toList_ofList, String.toList_ofList]
  rfl

private theorem slash_slash (c : Char) : slash (slash c) = slash c := by
  unfold slash
  by_cases hc : c = '\\'
  · simp [hc]
  · simp [hc]

/-- What is stripped does not start with a space. -/
private theorem head_stripped {text : List Char} {c : Char}
    (h : (stripped text).head? = some c) : isPySpace c = false := by
  obtain ⟨rest, hrest⟩ := List.rdropWhile_prefix isPySpace (text.dropWhile isPySpace)
  have hhead : (text.dropWhile isPySpace).head? = some c := by
    rw [← hrest, List.head?_append]
    change ((stripped text).head?).or rest.head? = some c
    rw [h, Option.some_or]
  have hdropped := List.head?_dropWhile_not isPySpace text
  rw [hhead] at hdropped
  simpa using hdropped

/-- Nor does it end with one. -/
private theorem last_stripped {text : List Char} (hne : stripped text ≠ []) :
    isPySpace ((stripped text).getLast hne) = false :=
  Bool.eq_false_iff.mpr (List.rdropWhile_last_not isPySpace _ hne)

private theorem stripped_map_slash (text : List Char) :
    stripped ((stripped text).map slash) = (stripped text).map slash := by
  have hfront : ((stripped text).map slash).dropWhile isPySpace = (stripped text).map slash := by
    rw [List.dropWhile_eq_self_iff]
    intro hbound
    rw [List.length_map] at hbound
    have hfirst : isPySpace ((stripped text).get ⟨0, hbound⟩) = false :=
      head_stripped (by rw [List.head?_eq_getElem?]; exact List.getElem?_eq_getElem hbound)
    rw [List.getElem_map, slash, isPySpace_slash]
    simpa using hfirst
  conv_lhs => rw [stripped, hfront]
  rw [List.rdropWhile_eq_self_iff]
  intro hne
  rw [List.getLast_map, slash, isPySpace_slash, last_stripped]
  decide

/-- Normalising a text twice is normalising it once. -/
theorem posixPath_posixPath (value : String) :
    posixPath (posixPath value) = posixPath value := by
  apply String.toList_injective
  rw [toList_posixPath, toList_posixPath, stripped_map_slash, List.map_map]
  apply List.map_congr_left
  intro c _
  exact slash_slash c

theorem normalizePath_eq_ok {path normalized : String} :
    normalizePath path = .ok normalized ↔
      posixPath path = normalized ∧ leavesProject normalized = false ∧ normalized ≠ "" := by
  unfold normalizePath
  generalize posixPath path = posix
  simp only
  split
  · rename_i hrefused
    simp only [reduceCtorEq, false_iff]
    rintro ⟨rfl, hinside, hne⟩
    simp [hinside, hne] at hrefused
  · rename_i haccepted
    rw [not_or] at haccepted
    rw [Except.ok.injEq]
    constructor
    · rintro rfl
      exact ⟨rfl, Bool.eq_false_iff.mpr haccepted.1, haccepted.2⟩
    · exact fun h => h.1

namespace Artifact

theorem normalizePath_eq_ok {value normalized : String} :
    normalizePath value = .ok normalized ↔
      posixPath value = normalized ∧ leavesProject normalized = false ∧ normalized ≠ "" := by
  unfold normalizePath
  generalize posixPath value = posix
  simp only
  split
  · rename_i hempty
    simp only [reduceCtorEq, false_iff]
    rintro ⟨rfl, -, hne⟩
    exact hne hempty
  · rename_i hne
    split
    · rename_i houtside
      simp only [reduceCtorEq, false_iff]
      rintro ⟨rfl, hinside, -⟩
      simp [houtside] at hinside
    · rename_i hinside
      rw [Except.ok.injEq]
      constructor
      · rintro rfl
        exact ⟨rfl, Bool.eq_false_iff.mpr hinside, hne⟩
      · exact fun h => h.1

/-- The lookup and the model accept the same paths, and spell them alike. -/
theorem normalizePath_of_accepted {path normalized : String}
    (h : ForgeOS.normalizePath path = .ok normalized) :
    normalizePath normalized = .ok normalized := by
  obtain ⟨hposix, hinside, hne⟩ := ForgeOS.normalizePath_eq_ok.mp h
  exact normalizePath_eq_ok.mpr ⟨by rw [← hposix, posixPath_posixPath], hinside, hne⟩

/-- One round of the loop of the edge validator. -/
private def appendEdge (normalized : List String) (item : String) : List String :=
  if posixPath item ≠ "" ∧ posixPath item ∉ normalized then normalized ++ [posixPath item]
  else normalized

private theorem appendEdges_spec (items start : List String) (hstart : start.Nodup) :
    (items.foldl appendEdge start).Nodup ∧
    ∀ edge, edge ∈ items.foldl appendEdge start ↔
      edge ∈ start ∨ edge ≠ "" ∧ ∃ item ∈ items, posixPath item = edge := by
  induction items generalizing start with
  | nil => exact ⟨hstart, by simp⟩
  | cons item rest ih =>
      rw [List.foldl_cons]
      by_cases hadd : posixPath item ≠ "" ∧ posixPath item ∉ start
      · obtain ⟨hnodup, hmem⟩ := ih (start ++ [posixPath item])
          (hstart.append (List.nodup_singleton _) (by simpa using hadd.2))
        rw [appendEdge, if_pos hadd]
        refine ⟨hnodup, fun edge => ?_⟩
        rw [hmem]
        grind
      · obtain ⟨hnodup, hmem⟩ := ih start hstart
        rw [appendEdge, if_neg hadd]
        refine ⟨hnodup, fun edge => ?_⟩
        rw [hmem]
        grind

theorem mem_normalizeEdges {value : List String} {edge : String} :
    edge ∈ normalizeEdges value ↔ edge ≠ "" ∧ ∃ item ∈ value, posixPath item = edge :=
  ((appendEdges_spec value [] List.nodup_nil).2 edge).trans (by simp)

theorem nodup_normalizeEdges (value : List String) : (normalizeEdges value).Nodup :=
  (appendEdges_spec value [] List.nodup_nil).1

private theorem appendEdges_of_fixed (items start : List String)
    (hfixed : ∀ item ∈ items, posixPath item = item ∧ item ≠ "") (hnodup : (start ++ items).Nodup) :
    items.foldl appendEdge start = start ++ items := by
  induction items generalizing start with
  | nil => simp
  | cons item rest ih =>
      obtain ⟨hposix, hne⟩ := hfixed item (by simp)
      have hnew : item ∉ start := by
        intro hold
        exact (List.nodup_append.mp hnodup).2.2 item hold item (by simp) rfl
      rw [List.foldl_cons, appendEdge, hposix, if_pos ⟨hne, hnew⟩, ih (start ++ [item])
        (fun other hother => hfixed other (by simp [hother])) (by simpa using hnodup)]
      simp

theorem normalizeEdges_of_fixed {value : List String}
    (hfixed : ∀ item ∈ value, posixPath item = item ∧ item ≠ "") (hnodup : value.Nodup) :
    normalizeEdges value = value :=
  (appendEdges_of_fixed value [] hfixed hnodup).trans (List.nil_append _)

/-- Validating edges again changes nothing. -/
theorem normalizeEdges_normalizeEdges (value : List String) :
    normalizeEdges (normalizeEdges value) = normalizeEdges value := by
  refine normalizeEdges_of_fixed ?_ (nodup_normalizeEdges value)
  intro item hitem
  obtain ⟨hne, original, -, rfl⟩ := mem_normalizeEdges.mp hitem
  exact ⟨posixPath_posixPath original, hne⟩

/-- An entry as validation leaves it. -/
structure Normalized (artifact : Artifact) : Prop where
  path : normalizePath artifact.path = .ok artifact.path
  dependencies : normalizeEdges artifact.dependencies = artifact.dependencies
  dependents : normalizeEdges artifact.dependents = artifact.dependents

theorem validate_eq_ok {artifact validated : Artifact} :
    artifact.validate = .ok validated ↔ ∃ path, normalizePath artifact.path = .ok path ∧
      validated = { artifact with
        path := path
        dependencies := normalizeEdges artifact.dependencies
        dependents := normalizeEdges artifact.dependents } := by
  unfold validate
  cases normalizePath artifact.path with
  | error message => simp [Except.map]
  | ok path => simp [Except.map, eq_comm]

theorem normalized_of_validate {artifact validated : Artifact}
    (h : artifact.validate = .ok validated) : validated.Normalized := by
  obtain ⟨path, hpath, rfl⟩ := validate_eq_ok.mp h
  obtain ⟨hposix, hinside, hne⟩ := normalizePath_eq_ok.mp hpath
  exact {
    path := normalizePath_eq_ok.mpr ⟨by rw [← hposix, posixPath_posixPath], hinside, hne⟩
    dependencies := normalizeEdges_normalizeEdges _
    dependents := normalizeEdges_normalizeEdges _ }

end Artifact

/-! ### Loading a document -/

private theorem map_of_all_ok {α β ε : Type} {f : α → Except ε β} {items : List α}
    (h : ∀ item ∈ items, ∃ result, f item = .ok result) :
    items.map f = (items.filterMap fun item => (f item).toOption).map .ok := by
  induction items with
  | nil => rfl
  | cons item rest ih =>
      obtain ⟨result, hresult⟩ := h item (by simp)
      rw [List.map_cons, List.filterMap_cons, hresult,
        ih fun other hother => h other (by simp [hother])]
      rfl

private theorem exists_of_map_ok {α β ε : Type} {f : α → Except ε β} {items : List α}
    {results : List β} (h : items.map f = results.map .ok) {result : β}
    (hresult : result ∈ results) :
    ∃ item ∈ items, f item = .ok result := by
  rw [← List.mem_map, h]
  exact List.mem_map_of_mem hresult

/-- Validation of a document is validation entry by entry. -/
theorem validateDocument_eq_ok {raw document : ArtifactDocument} :
    validateDocument raw = .ok document ↔ raw.map Artifact.validate = document.map .ok := by
  have hinjective : Function.Injective (Except.ok : Artifact → Except String Artifact) :=
    fun _ _ h => Except.ok.inj h
  unfold validateDocument
  simp only [List.isEmpty_iff, List.filterMap_eq_nil_iff]
  split
  · rename_i hall
    have hentries : ∀ artifact ∈ raw, ∃ validated, artifact.validate = .ok validated := by
      intro artifact hartifact
      obtain ⟨position, hposition⟩ := List.mem_iff_getElem?.mp hartifact
      have hnone := hall (artifact, position) (List.mem_zipIdx_iff_getElem?.mpr hposition)
      cases hvalidate : artifact.validate with
      | error message => simp [hvalidate] at hnone
      | ok validated => exact ⟨validated, rfl⟩
    rw [Except.ok.injEq, map_of_all_ok hentries]
    exact (List.map_injective_iff.mpr hinjective).eq_iff.symm
  · rename_i hrefused
    simp only [reduceCtorEq, false_iff]
    intro h
    apply hrefused
    intro entry hentry
    have hvalidated : entry.1.validate ∈ document.map .ok :=
      h ▸ List.mem_map_of_mem (List.fst_mem_of_mem_zipIdx hentry)
    obtain ⟨validated, -, hvalidated⟩ := List.mem_map.mp hvalidated
    simp [← hvalidated]

namespace Artifact

/-- The entry that validation makes of one with an accepted path. -/
def normalizeTables (artifact : Artifact) : Artifact :=
  { artifact with
    dependencies := normalizeEdges artifact.dependencies
    dependents := normalizeEdges artifact.dependents }

end Artifact

/-- With its paths accepted as they stand, a document loads entry by entry. -/
theorem validateDocument_of_accepted {raw : ArtifactDocument}
    (h : ∀ artifact ∈ raw, Artifact.normalizePath artifact.path = .ok artifact.path) :
    validateDocument raw = .ok (raw.map Artifact.normalizeTables) := by
  rw [validateDocument_eq_ok, List.map_map]
  apply List.map_congr_left
  intro artifact hartifact
  exact Artifact.validate_eq_ok.mpr ⟨artifact.path, h artifact hartifact, rfl⟩

/-- The order of the entries is the order they are loaded in. -/
theorem validateDocument_perm {raw raw' document : ArtifactDocument}
    (h : validateDocument raw = .ok document) (hperm : raw.Perm raw') :
    ∃ document', validateDocument raw' = .ok document' ∧ document.Perm document' := by
  rw [validateDocument_eq_ok] at h
  have hall (original : Artifact) (horiginal : original ∈ raw) :
      ∃ validated, original.validate = .ok validated := by
    have hvalidated : original.validate ∈ document.map .ok := h ▸ List.mem_map_of_mem horiginal
    obtain ⟨validated, -, hvalidated⟩ := List.mem_map.mp hvalidated
    exact ⟨validated, hvalidated.symm⟩
  have hinjective : Function.Injective (Except.ok : Artifact → Except String Artifact) :=
    fun _ _ h => Except.ok.inj h
  have hdocument := List.map_injective_iff.mpr hinjective ((map_of_all_ok hall).symm.trans h)
  refine ⟨raw'.filterMap fun artifact => artifact.validate.toOption, ?_, ?_⟩
  · rw [validateDocument_eq_ok]
    exact map_of_all_ok fun original horiginal => hall original (hperm.mem_iff.mpr horiginal)
  · rw [← hdocument]
    exact hperm.filterMap _

theorem normalized_of_validateDocument {raw document : ArtifactDocument}
    (h : validateDocument raw = .ok document) : ∀ artifact ∈ document, artifact.Normalized := by
  intro artifact hartifact
  obtain ⟨original, -, hvalidated⟩ := exists_of_map_ok (validateDocument_eq_ok.mp h) hartifact
  exact Artifact.normalized_of_validate hvalidated

/-- A normalised document is loaded as it was saved. -/
theorem Project.load_of_normalized {project : Project} {document : ArtifactDocument}
    (hregistry : project.registry = .document document)
    (h : ∀ artifact ∈ document, artifact.Normalized) : project.load = .ok document := by
  have htables : document.map Artifact.normalizeTables = document := by
    refine (List.map_congr_left fun artifact hartifact => ?_).trans (List.map_id document)
    obtain ⟨-, hdependencies, hdependents⟩ := h artifact hartifact
    rw [Artifact.normalizeTables, hdependencies, hdependents, id]
  rw [load, hregistry]
  exact (validateDocument_of_accepted fun artifact hartifact => (h artifact hartifact).path).trans
    (congrArg _ htables)

theorem Project.normalized_of_load {project : Project} {document : ArtifactDocument}
    (h : project.load = .ok document) : ∀ artifact ∈ document, artifact.Normalized := by
  unfold load at h
  split at h
  · cases h
    simp
  · cases h
  · cases h
  · cases h
  · cases h
  · exact normalized_of_validateDocument h

theorem Project.exists_load_of_rows {α : Type} {project : Project} {rows : ArtifactDocument → α}
    {value : α} (h : project.load.toOption.map rows = some value) :
    ∃ document, project.load = .ok document ∧ rows document = value := by
  cases hload : project.load with
  | error error =>
      rw [hload] at h
      cases h
  | ok document =>
      rw [hload] at h
      exact ⟨document, rfl, Option.some.inj h⟩

end ForgeOS
