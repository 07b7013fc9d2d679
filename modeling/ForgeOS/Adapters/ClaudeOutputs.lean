import ForgeOS.Adapters.ClaudeReplay
import ForgeOS.Context.Registrations
import ForgeOS.Library.LexicalPaths

/-!
The outputs of a run of Claude Code and the artifact registry. The paths of the
outputs are those of the files the tools wrote, resolved and taken relative to
the project. The registry rewrites them again, as the text of a path somebody
has typed in.
-/

namespace ForgeOS

open Library

namespace ClaudeCode

/-! ### Resolving paths -/

/-- A name an entry of a directory can have. -/
structure IsFileName (name : String) : Prop where
  proper : IsPathName name.toList
  noSlash : '/' ∉ name.toList

instance (name : String) : Decidable (IsFileName name) :=
  decidable_of_iff (IsPathName name.toList ∧ '/' ∉ name.toList)
    ⟨fun h => ⟨h.1, h.2⟩, fun h => ⟨h.proper, h.noSlash⟩⟩

/-- How the file system resolves the absolute paths, given by their segments:
every one that can be resolved leads to a canonical one. -/
structure PathResolver where
  /-- `Path.resolve()`. -/
  resolve : List String → Except PyError (List String)
  names : ∀ path resolved, resolve path = .ok resolved → ∀ name ∈ resolved, IsFileName name
  canonical : ∀ path resolved, resolve path = .ok resolved → resolve resolved = .ok resolved

/-- `as_posix()`, of a relative path. -/
def posixText (names : List String) : String :=
  String.ofList (joinPath (names.map String.toList))

/-- `resolved.relative_to(root).as_posix()`; none is its `ValueError`. -/
def relativeText? (root resolved : List String) : Option String :=
  if root <+: resolved then some (posixText (resolved.drop root.length)) else none

namespace PathResolver

variable (resolver : PathResolver)

/-- The resolved path of a `file_path`, which is taken from the root unless it
is absolute. -/
def resolveIn (root : List String) (rawPath : String) : Except PyError (List String) :=
  if rawPath.toList.head? = some '/' then resolver.resolve (pathSegments rawPath)
  else resolver.resolve (root ++ pathSegments rawPath)

def relativeTo (root : List String) (rawPath : String) : Except PyError (Option String) :=
  (resolver.resolveIn root rawPath).map (relativeText? root)

end PathResolver

/-! ### What is asked of the outputs -/

/-- The `file_path` of a block that writes a file. -/
def filePath? (block : JsonObject) : Option String :=
  match (Dict.get? block "name").getD .null with
  | .str name =>
      if name ∉ fileWritingTools then none
      else
        match Dict.get? block "input" with
        | some (.obj input) =>
            match Dict.get? input "file_path" with
            | some (.str path) => if path = "" then none else some path
            | _ => none
        | _ => none
  | _ => none

/-- A host on which every path can be looked at, as the files can that an agent
has written. -/
def readable (host : Host) : Host := { host with lookError := fun _ => none }

/-- In any project with a registry that can be loaded, a path is accepted and
entered as another. -/
def Registers (host : Host) (path registered : String) : Prop :=
  ∀ (project : Project) (document : ArtifactDocument) (stageId : Option String)
    (dependencies : Option (List String)), project.load = .ok document →
    ∃ artifact project', (register (readable host) path stageId dependencies).exec project =
      (.ok artifact, project') ∧ artifact.path = registered

/-- Every output is accepted by the registry, and the path it is registered
under leads to the file that was written. -/
def OutputsRegistrable (host : Host) (resolver : PathResolver) (projectRoot : List String)
    (blocks : List JsonObject) : Prop :=
  ∀ root outputs, resolver.resolve projectRoot = .ok root →
    extractFrom (resolver.relativeTo root) [] blocks = .ok outputs →
    ∀ output ∈ outputs, ∃ registered, Registers host output.path registered ∧
      ∀ block ∈ blocks, ∀ rawPath file, filePath? block = some rawPath →
        resolver.resolveIn root rawPath = .ok file →
        relativeText? root file = some output.path →
          resolver.resolve (root ++ pathSegments registered) = .ok file

/-- The registry rewrites nothing in a path, or a link at the path it makes of
it leads to the same file. -/
def KeepsPath (resolver : PathResolver) (root names : List String) : Prop :=
  ('\\' ∉ (posixText names).toList ∧ pyStrip (posixText names) = posixText names) ∨
  ∃ registered, normalizePath (posixText names) = .ok registered ∧
    pathSegments registered ≠ names ∧
    resolver.resolve (root ++ pathSegments registered) = .ok (root ++ names)

/-- Unless a block makes the extraction raise, the registry keeps the paths of
all files below the root that are written. -/
def WritesKept (resolver : PathResolver) (projectRoot : List String) (blocks : List JsonObject) :
    Prop :=
  ∀ root, resolver.resolve projectRoot = .ok root →
    (∀ block ∈ blocks, ∃ write, fileWrite? (resolver.relativeTo root) block = .ok write) →
    ∀ block ∈ blocks, ∀ rawPath names, filePath? block = some rawPath →
      resolver.resolveIn root rawPath = .ok (root ++ names) → KeepsPath resolver root names

/-! ### Texts of paths -/

theorem toList_posixText (names : List String) :
    (posixText names).toList = joinPath (names.map String.toList) := String.toList_ofList

theorem splitOn_posixText {names : List String} (hne : names ≠ [])
    (h : ∀ name ∈ names, IsFileName name) :
    (posixText names).toList.splitOn '/' = names.map String.toList := by
  rw [toList_posixText]
  refine splitOn_joinPath (by simpa using hne) fun text htext => ?_
  obtain ⟨name, hname, rfl⟩ := List.mem_map.mp htext
  exact (h name hname).noSlash

theorem pathSegments_posixText {names : List String} (h : ∀ name ∈ names, IsFileName name) :
    pathSegments (posixText names) = names := by
  by_cases hne : names = []
  · rw [hne]
    rfl
  · rw [pathSegments, splitOn_posixText hne h, List.map_map]
    simp only [Function.comp_def, String.ofList_toList, List.map_id']
    rw [List.filter_eq_self]
    intro name hname
    have hproper := (h name hname).proper
    have hnil : name ≠ "" := by
      rintro rfl
      exact hproper.ne_nil rfl
    have hdot : name ≠ "." := by
      rintro rfl
      exact hproper.ne_dot rfl
    simp [hnil, hdot]

theorem normalizePath_posixText {names : List String} (h : ∀ name ∈ names, IsFileName name)
    (hback : '\\' ∉ (posixText names).toList)
    (hstrip : pyStrip (posixText names) = posixText names) :
    normalizePath (posixText names) = .ok (posixText names) := by
  rw [normalizePath_eq_ok]
  have hposix : posixPath (posixText names) = posixText names := by
    have hslashes : (posixText names).toList.map (fun c => if c = '\\' then '/' else c) =
        (posixText names).toList :=
      (List.map_congr_left fun c hc => if_neg (ne_of_mem_of_not_mem hc hback)).trans
        (List.map_id _)
    rw [posixPath, hstrip, hslashes, String.ofList_toList]
  refine ⟨hposix, ?_⟩
  by_cases hne : names = []
  · rw [hne]
    decide
  · have hsplit := splitOn_posixText hne h
    obtain ⟨first, rest, rfl⟩ := List.exists_cons_of_ne_nil hne
    have hfirst := h first List.mem_cons_self
    have hhead : (posixText (first :: rest)).toList.head? = first.toList.head? := by
      rw [toList_posixText]
      exact head?_joinPath hfirst.proper.ne_nil _
    constructor
    · simp only [leavesProject, hsplit, hhead, decide_eq_false_iff_not, not_or]
      refine ⟨fun hslash => hfirst.noSlash (List.mem_of_mem_head? hslash), fun hdots => ?_⟩
      obtain ⟨name, hname, hname'⟩ := List.mem_map.mp hdots
      exact (h name hname).proper.ne_dots hname'
    · intro hempty
      rw [hempty] at hsplit
      exact hfirst.proper.ne_nil (List.cons.inj hsplit).1.symm

/-- A text is rewritten into one with other segments, or not at all. -/
theorem keeps_of_pathSegments {names : List String}
    (hsame : pathSegments (posixPath (posixText names)) = names) :
    '\\' ∉ (posixText names).toList ∧ pyStrip (posixText names) = posixText names := by
  by_cases hne : names = []
  · rw [hne]
    decide
  · generalize hreg : posixPath (posixText names) = registered at hsame
    have hsegments : (names.map String.toList).Sublist (registered.toList.splitOn '/') := by
      have hfilter := (List.filter_sublist (p := fun segment => segment ≠ "" ∧ segment ≠ ".")
        (l := (registered.toList.splitOn '/').map String.ofList)).map String.toList
      rw [← pathSegments, hsame, List.map_map, Function.comp_def] at hfilter
      simpa using hfilter
    have htext : (posixText names).toList = ['/'].intercalate (names.map String.toList) := by
      rw [toList_posixText, joinPath, if_neg (by simpa using hne)]
    have hchars : registered.toList =
        (pyStrip (posixText names)).toList.map fun c => if c = '\\' then '/' else c := by
      rw [← hreg, posixPath, String.toList_ofList]
    have hstripped : (pyStrip (posixText names)).toList.Sublist (posixText names).toList := by
      rw [pyStrip, stripLine, String.toList_ofList]
      exact (List.rdropWhile_prefix isPySpace _).sublist.trans (List.dropWhile_sublist isPySpace)
    have hlength : (posixText names).toList.length ≤ (pyStrip (posixText names)).toList.length := by
      have hle := length_intercalate_le (d := '/') hsegments
      rwa [List.intercalate_splitOn, ← htext, hchars, List.length_map] at hle
    refine ⟨?_, String.toList_injective (hstripped.eq_of_length_le hlength)⟩
    rw [htext]
    refine not_mem_intercalate (by decide) fun name hname hback => ?_
    -- the registered text has no backslash, and neither have its segments
    have hregistered := (of_mem_splitOn name (hsegments.subset hname)).2 hback
    rw [hchars] at hregistered
    obtain ⟨c, -, hc⟩ := List.mem_map.mp hregistered
    split_ifs at hc with hslash
    · exact absurd hc (by decide)
    · exact hslash hc

/-! ### Registering -/

theorem locate_readable (host : Host) (path : String) :
    (readable host).locate path = normalizePath path := by
  rw [Host.locate]
  cases normalizePath path with
  | error error => rfl
  | ok normalized => rfl

theorem registers_iff {host : Host} {path registered : String} :
    Registers host path registered ↔ normalizePath path = .ok registered := by
  rw [← locate_readable host]
  constructor
  · intro hregisters
    have hload : (⟨fun _ => none, .absent, none, 0⟩ : Project).load = .ok [] := rfl
    obtain ⟨artifact, project, hexec, hregistered⟩ := hregisters _ _ none none hload
    cases hpath : (readable host).locate path with
    | error error =>
        rw [exec_register_of_path_error hload hpath] at hexec
        cases hexec
    | ok normalized =>
        obtain ⟨entry, project', hexec', hentry⟩ :=
          exec_register_path (readable host) none none hload hpath
        rw [hexec] at hexec'
        obtain ⟨hsame, -⟩ := Prod.mk.inj hexec'
        rw [← hregistered, Except.ok.inj hsame, hentry]
  · intro hpath project document stageId dependencies hload
    exact exec_register_path (readable host) stageId dependencies hload hpath

/-! ### The files that are written -/

theorem filePath_eq_some {block : JsonObject} {rawPath : String}
    (h : filePath? block = some rawPath) :
    ∃ name input, (Dict.get? block "name").getD .null = .str name ∧ name ∈ fileWritingTools ∧
      Dict.get? block "input" = some (.obj input) ∧
      Dict.get? input "file_path" = some (.str rawPath) ∧ rawPath ≠ "" := by
  unfold filePath? at h
  split at h
  · rename_i name hname
    split_ifs at h with htool
    split at h
    · rename_i input hinput
      split at h
      · rename_i path hpath
        split_ifs at h with hempty
        obtain rfl := Option.some.inj h
        exact ⟨name, input, hname, htool, hinput, hpath, hempty⟩
      · cases h
    · cases h
  · cases h

theorem fileWrite_of_filePath {relativeTo : String → Except PyError (Option String)}
    {block : JsonObject} {rawPath : String} (h : filePath? block = some rawPath) :
    ∃ tool, fileWrite? relativeTo block =
      (relativeTo rawPath).map fun relative => relative.map fun path => ⟨path, tool⟩ := by
  obtain ⟨name, input, hname, htool, hinput, hpath, hempty⟩ := filePath_eq_some h
  refine ⟨name, ?_⟩
  unfold fileWrite?
  rw [hname]
  dsimp only
  rw [if_neg (not_not.mpr htool), hinput]
  dsimp only
  rw [hpath]
  exact if_neg hempty

theorem filePath_of_fileWrite {relativeTo : String → Except PyError (Option String)}
    {block : JsonObject} {write : FileWrite} (h : fileWrite? relativeTo block = .ok (some write)) :
    ∃ rawPath, filePath? block = some rawPath ∧ relativeTo rawPath = .ok (some write.path) := by
  unfold fileWrite? at h
  split at h
  · rename_i name hname
    by_cases htool : name ∈ fileWritingTools
    · simp only [htool, not_true, if_false] at h
      split at h
      · rename_i input hinput
        split at h
        · rename_i path hpath
          by_cases hempty : path = ""
          · rw [if_pos hempty] at h
            cases h
          · rw [if_neg hempty] at h
            have hfound : filePath? block = some path := by
              simp only [filePath?, hname, htool, hinput, hpath, hempty, not_true, if_false]
            refine ⟨path, hfound, ?_⟩
            cases hrelative : relativeTo path with
            | error error =>
                rw [hrelative] at h
                cases h
            | ok relative =>
                rw [hrelative] at h
                cases relative with
                | none => cases h
                | some text =>
                    obtain rfl := Option.some.inj (Except.ok.inj h)
                    rfl
        · cases h
      · cases h
    · rw [if_pos htool] at h
      cases h
  · cases h
  · cases h
  · cases h

theorem relativeText_eq_some {root file : List String} {text : String} :
    relativeText? root file = some text ↔
      ∃ names, file = root ++ names ∧ text = posixText names := by
  unfold relativeText?
  constructor
  · intro h
    split_ifs at h with hbelow
    obtain ⟨names, rfl⟩ := hbelow
    exact ⟨names, rfl, by simpa using (Option.some.inj h).symm⟩
  · rintro ⟨names, rfl, rfl⟩
    rw [if_pos (List.prefix_append root names)]
    simp

variable {host : Host} {resolver : PathResolver} {projectRoot root : List String}
  {blocks : List JsonObject}

theorem names_of_resolveIn {rawPath : String} {file : List String}
    (h : resolver.resolveIn root rawPath = .ok file) :
    (∀ name ∈ file, IsFileName name) ∧ resolver.resolve file = .ok file := by
  unfold PathResolver.resolveIn at h
  split_ifs at h with habsolute
  · exact ⟨resolver.names _ _ h, resolver.canonical _ _ h⟩
  · exact ⟨resolver.names _ _ h, resolver.canonical _ _ h⟩

theorem relativeTo_eq_ok {rawPath text : String} :
    resolver.relativeTo root rawPath = .ok (some text) ↔
      ∃ names, resolver.resolveIn root rawPath = .ok (root ++ names) ∧ text = posixText names := by
  unfold PathResolver.relativeTo
  cases resolver.resolveIn root rawPath with
  | error error => simp [Except.map]
  | ok file => simp [Except.map, relativeText_eq_some]

/-- The outputs are those of the blocks that write a file below the root. -/
theorem mem_outputs {outputs : List OutputArtifact}
    (houtputs : extractFrom (resolver.relativeTo root) [] blocks = .ok outputs) (text : String) :
    (∃ output ∈ outputs, output.path = text) ↔
      ∃ block ∈ blocks, ∃ rawPath names, filePath? block = some rawPath ∧
        resolver.resolveIn root rawPath = .ok (root ++ names) ∧ text = posixText names := by
  have hok := ok_of_extractFrom houtputs
  rw [extractFrom_of_ok [] hok, Except.ok.injEq] at houtputs
  subst houtputs
  have hkeys : (∃ output ∈ (firstsFrom FileWrite.path []
      (blockWrites (resolver.relativeTo root) blocks)).map FileWrite.artifact,
        output.path = text) ↔
      text ∈ (blockWrites (resolver.relativeTo root) blocks).map FileWrite.path := by
    have hfirsts := @mem_keys_firstsFrom _ _ _ FileWrite.path []
      (blockWrites (resolver.relativeTo root) blocks) text
    simpa [FileWrite.artifact] using hfirsts
  rw [hkeys]
  constructor
  · intro htext
    obtain ⟨write, hwrite, rfl⟩ := List.mem_map.mp htext
    obtain ⟨block, hblock, hwritten⟩ := List.mem_filterMap.mp hwrite
    obtain ⟨found, hfound⟩ := hok block hblock
    rw [hfound] at hwritten
    obtain rfl : found = some write := hwritten
    obtain ⟨rawPath, hrawPath, hrelative⟩ := filePath_of_fileWrite hfound
    obtain ⟨names, hresolved, htext⟩ := relativeTo_eq_ok.mp hrelative
    exact ⟨block, hblock, rawPath, names, hrawPath, hresolved, htext⟩
  · rintro ⟨block, hblock, rawPath, names, hrawPath, hresolved, rfl⟩
    obtain ⟨tool, htool⟩ := @fileWrite_of_filePath (resolver.relativeTo root) _ _ hrawPath
    rw [relativeTo_eq_ok.mpr ⟨names, hresolved, rfl⟩] at htool
    refine List.mem_map.mpr ⟨⟨posixText names, tool⟩, ?_, rfl⟩
    refine List.mem_filterMap.mpr ⟨block, hblock, ?_⟩
    rw [htool]
    rfl

/-- The outputs can be registered, and name the files that were written, exactly
if the registry keeps the paths of those files. It takes a backslash for a slash,
and blanks off both ends. -/
theorem outputsRegistrable_iff (host : Host) (resolver : PathResolver) (projectRoot : List String)
    (blocks : List JsonObject) :
    OutputsRegistrable host resolver projectRoot blocks ↔
      WritesKept resolver projectRoot blocks := by
  constructor
  · intro hregistrable root hroot hok block hblock rawPath names hrawPath hresolved
    have houtputs := extractFrom_of_ok [] hok
    obtain ⟨output, houtput, hpath⟩ := (mem_outputs houtputs (posixText names)).mpr
      ⟨block, hblock, rawPath, names, hrawPath, hresolved, rfl⟩
    obtain ⟨registered, hregisters, hfile⟩ := hregistrable root _ hroot houtputs output houtput
    rw [registers_iff, hpath] at hregisters
    have hleads := hfile block hblock rawPath _ hrawPath hresolved
      (relativeText_eq_some.mpr ⟨names, rfl, hpath⟩)
    by_cases hsame : pathSegments registered = names
    · obtain ⟨hposix, -⟩ := normalizePath_eq_ok.mp hregisters
      exact Or.inl (keeps_of_pathSegments (hposix ▸ hsame))
    · exact Or.inr ⟨registered, hregisters, hsame, hleads⟩
  · intro hkept root outputs hroot houtputs output houtput
    have hok := ok_of_extractFrom houtputs
    obtain ⟨block, hblock, rawPath, names, hrawPath, hresolved, htext⟩ :=
      (mem_outputs houtputs output.path).mp ⟨output, houtput, rfl⟩
    obtain ⟨hfileNames, hcanonical⟩ := names_of_resolveIn hresolved
    have hnames : ∀ name ∈ names, IsFileName name := fun name hname =>
      hfileNames name (List.mem_append_right root hname)
    have hfile : ∀ other file, resolver.resolveIn root other = .ok file →
        relativeText? root file = some output.path → file = root ++ names := by
      intro other file hother hrelative
      obtain ⟨others, rfl, hothers⟩ := relativeText_eq_some.mp hrelative
      have hproper : ∀ name ∈ others, IsFileName name := fun name hname =>
        (names_of_resolveIn hother).1 name (List.mem_append_right root hname)
      rw [← pathSegments_posixText hproper, ← hothers, htext, pathSegments_posixText hnames]
    rcases hkept root hroot hok block hblock rawPath names hrawPath hresolved with
      ⟨hback, hstrip⟩ | ⟨registered, hregistered, -, hleads⟩
    · refine ⟨posixText names, ?_, ?_⟩
      · rw [registers_iff, htext]
        exact normalizePath_posixText hnames hback hstrip
      · intro _ _ other file _ hother hrelative
        rw [pathSegments_posixText hnames, hfile other file hother hrelative]
        exact hcanonical
    · refine ⟨registered, registers_iff.mpr (htext ▸ hregistered), ?_⟩
      intro _ _ other file _ hother hrelative
      rw [hfile other file hother hrelative]
      exact hleads

/-! ### Without links -/

/-- Where a path leads in a file system without links. -/
def lexicalNames (path : List String) : List String :=
  (lexicalWalk (path.flatMap fun name => name.toList.splitOn '/')).names.reverse.map String.ofList

theorem isFileName_of_lexicalNames (path : List String) :
    ∀ name ∈ lexicalNames path, IsFileName name := by
  intro name hname
  obtain ⟨chars, hchars, rfl⟩ := List.mem_map.mp hname
  obtain ⟨hsegment, hproper⟩ := names_lexicalWalk (List.mem_reverse.mp hchars)
  obtain ⟨part, -, hpart⟩ := List.mem_flatMap.mp hsegment
  constructor
  · rwa [String.toList_ofList]
  · rw [String.toList_ofList]
    exact (of_mem_splitOn chars hpart).1

theorem lexicalNames_names {names : List String} (h : ∀ name ∈ names, IsFileName name) :
    lexicalNames names = names := by
  have hsegments : (names.flatMap fun name => name.toList.splitOn '/') =
      names.map String.toList := by
    rw [List.map_eq_flatMap]
    exact List.flatMap_congr fun name hname => List.splitOn_eq_singleton (h name hname).noSlash
  have hproper : ∀ text ∈ names.map String.toList, IsPathName text := by
    intro text htext
    obtain ⟨name, hname, rfl⟩ := List.mem_map.mp htext
    exact (h name hname).proper
  rw [lexicalNames, hsegments, lexicalWalk_names hproper, List.reverse_reverse, List.map_map]
  simp

def lexicalResolver : PathResolver where
  resolve path := .ok (lexicalNames path)
  names path resolved h := Except.ok.inj h ▸ isFileName_of_lexicalNames path
  canonical path resolved h := by
    obtain rfl := Except.ok.inj h
    rw [lexicalNames_names (isFileName_of_lexicalNames path)]

def backslashWrite : JsonObject :=
  [("name", .str "Write"), ("input", .obj [("file_path", .str "a\\b.md")])]

/-- A file whose name has a backslash in it is registered as another. -/
theorem not_outputsRegistrable :
    ¬∃ host, OutputsRegistrable host lexicalResolver ["srv", "app"] [backslashWrite] := by
  rintro ⟨host, h⟩
  obtain ⟨registered, hregisters, hfile⟩ := h ["srv", "app"]
    [⟨"a\\b.md", "file", some "Written via Write tool"⟩] rfl rfl _ List.mem_cons_self
  have hrewritten : normalizePath "a\\b.md" = .ok "a/b.md" := rfl
  rw [registers_iff, hrewritten] at hregisters
  obtain rfl := Except.ok.inj hregisters
  exact absurd (hfile backslashWrite List.mem_cons_self "a\\b.md" ["srv", "app", "a\\b.md"] rfl rfl
    rfl) (by decide)

end ClaudeCode

end ForgeOS
