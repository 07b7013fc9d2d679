import ForgeOS.Context.Propagation

/-!
Runs of the registry's operations among edits of the files, and what becomes
of a change: whether the next refresh marks the artifacts downstream of it is
decided by the registry and the files right before that refresh.
-/

namespace ForgeOS

open Library

/-- What happens to a project: an edit of the file at some location by anyone
(`none` deletes it), or a call on the registry. -/
inductive Action where
  | edit (location : List String) (file : Option FileData)
  | register (path : String) (stageId : Option String) (dependencies : Option (List String))
  | registerStageOutputs (stageId : String) (outputPaths : List String)
  | refresh
deriving DecidableEq, Repr

/-- The bytes of the file a path names. -/
def contentOf (files : Files) (path : String) : Option (List UInt8) :=
  (files (pathSegments path)).map FileData.content

namespace Project

variable (host : Host)

def edit (project : Project) (location : List String) (file : Option FileData) : Project :=
  { project with files := fun segments =>
      if segments = location then file else project.files segments }

/-- The project after an action. A call that raises keeps what it has written. -/
def perform (project : Project) : Action → Project
  | .edit location file => project.edit location file
  | .register path stageId dependencies =>
      ((register host path stageId dependencies).exec project).2
  | .registerStageOutputs stageId outputPaths =>
      ((registerStageOutputs host stageId outputPaths).exec project).2
  | .refresh => ((refresh host).exec project).2

/-- The paths that a loop over outputs registers before it ends or raises. -/
def registeredOutputs (stageId : String) : List String → Project → List String
  | [], _ => []
  | outputPath :: rest, project =>
      match (registerOutput host stageId outputPath).exec project with
      | (.ok artifact, project') => artifact.path :: registeredOutputs stageId rest project'
      | (.error _, _) => []

def registers (project : Project) : Action → List String
  | .edit _ _ => []
  | .register path stageId dependencies =>
      match ((register host path stageId dependencies).exec project).1 with
      | .ok artifact => [artifact.path]
      | .error _ => []
  | .registerStageOutputs stageId outputPaths =>
      project.registeredOutputs host stageId (distinctOutputs outputPaths)
  | .refresh => []

end Project

theorem exec_refresh (host : Host) (project : Project) :
    (refresh host).exec project =
      match project.load with
      | .error error => (.error error, project)
      | .ok document =>
          let refreshed := rebuildDependents (refreshDocument host project.files document)
          (.ok refreshed, { project with
            registry := .document refreshed
            graph := some (buildGraph refreshed) }) := by
  simp only [refresh, saveRegistry, Effect.exec_bind, Effect.exec_get, Effect.exec_ofExcept]
  cases project.load with
  | error error => rfl
  | ok document => rfl

/-- A project together with its history: for each path, the files as they were
when that path was last registered. No operation reads the history. -/
structure Session where
  project : Project
  registered : String → Files

namespace Session

variable (host : Host)

def step (session : Session) (action : Action) : Session where
  project := session.project.perform host action
  registered path :=
    if path ∈ session.project.registers host action then session.project.files
    else session.registered path

def Touches (session : Session) (path : String) : Action → Prop
  | .edit location _ => location = pathSegments path
  | action => path ∈ session.project.registers host action

instance (session : Session) (path : String) :
    (action : Action) → Decidable (session.Touches host path action)
  | .edit location _ => inferInstanceAs (Decidable (location = pathSegments path))
  | .register _ _ _ => inferInstanceAs (Decidable (path ∈ _))
  | .registerStageOutputs _ _ => inferInstanceAs (Decidable (path ∈ _))
  | .refresh => inferInstanceAs (Decidable (path ∈ _))

def Undisturbed (path : String) : Session → List Action → Prop
  | _, [] => True
  | session, action :: rest =>
      ¬session.Touches host path action ∧ action ≠ .refresh ∧
        Undisturbed path (session.step host action) rest

instance decidableUndisturbed (path : String) :
    (session : Session) → (actions : List Action) →
      Decidable (session.Undisturbed host path actions)
  | _, [] => isTrue trivial
  | session, action :: rest =>
      have := decidableUndisturbed path (session.step host action) rest
      inferInstanceAs (Decidable (_ ∧ _ ∧ _))

/-- In this session an edit changes the content of a registered artifact to
something else than it was when an artifact downstream of it was last
registered, and from the edit on the dependent is left alone, up to a refresh
that comes after `later`. -/
structure UpstreamChange (session : Session) (location : List String) (file : Option FileData)
    (upstream dependent : String) (later : List Action) : Prop where
  registered : ∃ document, session.project.load = .ok document ∧
    upstream ∈ document.map Artifact.path ∧
      ∃ artifact ∈ document, artifact.path = dependent ∧ Downstream document upstream artifact
  changes : contentOf (session.project.edit location file).files upstream ≠
    contentOf session.project.files upstream
  differs : contentOf (session.project.edit location file).files upstream ≠
    contentOf (session.registered dependent) upstream
  undisturbed : session.Undisturbed host dependent (.edit location file :: later)

/-- A refresh leaves an artifact stale or missing. -/
def MarkedByRefresh (session : Session) (dependent : String) : Prop :=
  ∀ document project', (refresh host).exec session.project = (.ok document, project') →
    ∀ artifact ∈ document, artifact.path = dependent →
      artifact.status = .stale ∨ artifact.status = .missing

/-- Over a run, every change of a registered artifact is passed on by the next
refresh to the dependents that have been left alone. -/
def StalenessKept (start : Session) (actions : List Action) : Prop :=
  ∀ before location file later after upstream dependent,
    actions = before ++ .edit location file :: later ++ .refresh :: after →
    (run (step host) start before).UpstreamChange host location file upstream dependent later →
    (run (step host) start (before ++ .edit location file :: later)).MarkedByRefresh host dependent

/-- What a refresh can still see of the changes above an artifact. -/
def Detectable (session : Session) (dependent : String) : Prop :=
  ∀ document, session.project.load = .ok document →
    ∀ position artifact, document[position]? = some artifact → artifact.path = dependent →
      Detects host session.project.files document position artifact

variable {host}

private theorem ne_fresh_iff (status : ArtifactStatus) :
    status ≠ .fresh ↔ status = .stale ∨ status = .missing := by
  cases status
  · decide
  · decide
  · decide

/-- A refresh marks an artifact exactly when it can see a change above it. -/
theorem markedByRefresh_iff (session : Session) (dependent : String) :
    session.MarkedByRefresh host dependent ↔ session.Detectable host dependent := by
  unfold MarkedByRefresh Detectable
  rw [exec_refresh]
  cases hload : session.project.load with
  | error error =>
      constructor
      · intro _ document hdocument
        cases hdocument
      · intro _ document project' hexec
        cases hexec
  | ok loaded =>
      constructor
      · intro hmarked document hdocument position artifact hentry hpath
        cases hdocument
        obtain ⟨artifact', hentry', hpath', hstatus⟩ := refreshed_entry host
          session.project.files hentry
        rw [← hstatus, ne_fresh_iff]
        exact hmarked _ _ rfl artifact' (List.mem_of_getElem? hentry') (hpath'.trans hpath)
      · intro hdetects document project' hexec artifact' hmember hpath
        cases hexec
        obtain ⟨position, hposition⟩ := List.mem_iff_getElem?.mp hmember
        obtain ⟨artifact, hentry⟩ := entry_of_refreshed host _ hposition
        obtain ⟨same, hsame, hpath', hstatus⟩ := refreshed_entry host
          session.project.files hentry
        rw [hposition, Option.some.injEq] at hsame
        subst hsame
        rw [← ne_fresh_iff, hstatus]
        exact hdetects loaded rfl position artifact hentry (hpath'.symm.trans hpath)

/-- In every run, a change is passed on to a dependent exactly when the refresh
can still see it or another one upstream. A registration stores the new hash of a
file without passing the change on, so that no refresh sees it again. -/
theorem stalenessKept_iff (start : Session) (actions : List Action) :
    start.StalenessKept host actions ↔
      ∀ before location file later after upstream dependent,
        actions = before ++ .edit location file :: later ++ .refresh :: after →
        (run (step host) start before).UpstreamChange host location file upstream dependent later →
        (run (step host) start (before ++ .edit location file :: later)).Detectable host
          dependent := by
  unfold StalenessKept
  simp only [markedByRefresh_iff]

end Session

/-- Python's library on the files of the run below. -/
def Host.demo : Host where
  sha256 content :=
    if content = [97] then "ca978112ca1bbdcafac231b39a23dc4da786eff8147c4e72b9807785afee48bb"
    else if content = [98] then "3e23e8160039594a33894f6564e1b1348bbd7a0088d42c4acb73eeaed59c009d"
    else "2e7d2c03a9507ae265ecf5b5356885a53393a2029d241394997265a1a25aefc6"
  decode content := String.ofList (content.map fun byte => Char.ofNat byte.toNat)
  uuid4 drawn := if drawn = 0 then "7c9e6679-7425-40de-944b-e07fc1f90ae7"
    else "1b9d6bcd-bbfd-4b2d-9b5d-ab8dfbbd4bed"
  lookError _ := none

/-- A project without artifacts. -/
def Session.demo : Session where
  project := ⟨fun _ => none, .absent, none, 0⟩
  registered _ _ := none

/-- `plan.md` is registered as depending on `srs.md`. -/
def planRegistered : List Action := [
  .edit ["srs.md"] (some ⟨[97], "2026-01-01T10:00:00Z"⟩),
  .register "srs.md" (some "srs") none,
  .edit ["plan.md"] (some ⟨[98], "2026-01-01T11:00:00Z"⟩),
  .register "plan.md" (some "plan") (some ["srs.md"])]

/-- A later content of `srs.md`. -/
def srsRevised : Option FileData := some ⟨[99], "2026-01-01T12:00:00Z"⟩

/-- Then `srs.md` changes and is registered again, and `plan.md` stays fresh. -/
theorem Session.not_stalenessKept :
    ¬ Session.demo.StalenessKept Host.demo
      (planRegistered ++ .edit ["srs.md"] srsRevised :: [.register "srs.md" none none] ++
        [.refresh]) := by
  intro hkept
  have hmarked := hkept planRegistered ["srs.md"] srsRevised [.register "srs.md" none none] []
    "srs.md" "plan.md" rfl
    ⟨⟨_, rfl, by decide, _, List.mem_cons_of_mem _ (List.mem_singleton_self _), rfl,
      "srs.md", by decide, .refl⟩, by decide, by decide, by decide⟩
  have hfresh : ((refresh Host.demo).exec (run (step Host.demo) Session.demo (planRegistered ++
      .edit ["srs.md"] srsRevised :: [.register "srs.md" none none])).project).1.toOption.map
        (fun document => document.map fun artifact => (artifact.path, artifact.status)) =
      some [("srs.md", .fresh), ("plan.md", .fresh)] := by
    decide
  rcases hexec : (refresh Host.demo).exec (run (step Host.demo) Session.demo (planRegistered ++
      .edit ["srs.md"] srsRevised :: [.register "srs.md" none none])).project with
    ⟨error | document, project'⟩
  · rw [hexec] at hfresh
    cases hfresh
  · rw [hexec] at hfresh
    have hmember : ("plan.md", ArtifactStatus.fresh) ∈
        document.map fun artifact => (artifact.path, artifact.status) := by
      have hstatuses : (document.map fun artifact => (artifact.path, artifact.status)) =
          [("srs.md", .fresh), ("plan.md", .fresh)] := Option.some.inj hfresh
      rw [hstatuses]
      decide
    obtain ⟨artifact, hartifact, hpair⟩ := List.mem_map.mp hmember
    obtain ⟨hpath, hstatus⟩ := Prod.mk.inj hpair
    have hplan := hmarked document project' hexec artifact hartifact hpath
    rw [hstatus] at hplan
    exact absurd hplan (by decide)

end ForgeOS
