import ArtPlatform.Agent.ProjectTree
import ArtPlatform.Foundation.LinkedMap
import ArtPlatform.ManagementPanel.Entities

/-!
# Project initialization

The agent clones a project, reads its technologies off the file names, and collects
the Gradle modules that it finds at each tag and branch.  A module becomes an
artifact of the project under the name that the settings declare for it; the
references at which it is found become the versions of the artifact.

Main results:

- Theorem `slash_mem_artifact_path`: the path of every stored artifact has a slash,
  because it starts with the directory into which the project was cloned.
-/

namespace ArtPlatform

/-! ## Technologies -/

def technologyFiles : List (String × String) :=
  [("package.json", "npm"), ("build.gradle", "gradle"), ("pom.xml", "maven"),
    ("build.gradle.kts", "gradle"), ("yarn.lock", "yarn"), ("Dockerfile", "docker")]

def technologyExtensions : List (String × String) :=
  [(".java", "java"), (".kt", "kotlin"), (".groovy", "groovy"), (".js", "js"), (".ts", "ts")]

/-- The technology that a file gives away: by its name first, then by its extension. -/
def technologyOf (fileName : String) : Option String :=
  match technologyFiles.lookup fileName with
  | some technology => some technology
  | none => (technologyExtensions.find? fun e => endsWith fileName e.1).map Prod.snd

def loadTechnologies (projectPath : String) (tree : ProjectTree) : List String :=
  ((tree.listFiles projectPath).filterMap fun file => technologyOf file.name.text).eraseDups

/-! ## Gradle modules -/

structure GradleModule where
  name : String
  path : String
deriving DecidableEq, Repr

/-- The statements of the settings: the text cut at line ends, and cut at semicolons. -/
def gradleSettings (projectPath : String) (tree : ProjectTree) : Option (List String) :=
  (tree.firstFileStartsWith projectPath "settings.gradle").map fun settingsFile =>
    (split settingsFile.text '\n' ++ split settingsFile.text ';').eraseDups

/-- The name of a module: between the keywords of the first statement that mentions its
directory, or else that of the directory. -/
def gradleModuleName (toLowerCase : String → String) (settings : Option (List String))
    (modulePath : String) : String :=
  let id := normalizeNameToId toLowerCase (extractName modulePath)
  let line := settings.bind fun lines =>
    lines.find? fun line => contains line id && contains line ".projectDir"
  match line with
  | some line =>
      let declared := substringBeforeText (substringAfter line "project" line) ".projectDir"
      ["(", ")", "'", ":"].foldl removeAll declared
  | none => id

/-- The directories below the project's own that hold a build script. -/
def findGradleModules (toLowerCase : String → String) (projectPath : String)
    (tree : ProjectTree) : List GradleModule :=
  let settings := gradleSettings projectPath tree
  let directories := tree.findParentDirectoriesOfFilesStartsWith projectPath "build.gradle"
    fun file => file.parent ≠ []
  directories.map fun directory =>
    let modulePath := pathText projectPath directory
    ⟨gradleModuleName toLowerCase settings modulePath, modulePath⟩

/-! ## Artifacts -/

structure ComputedArtifact where
  name : String
  path : String
  technologies : List String
deriving DecidableEq, Repr

def computeArtifacts (toLowerCase : String → String) (technologies : List String)
    (projectPath : String) (tree : ProjectTree) : List ComputedArtifact :=
  if "gradle" ∈ technologies then
    ((findGradleModules toLowerCase projectPath tree).map fun m =>
      ⟨m.name, m.path, ["gradle"]⟩).eraseDups
  else []

/-- The versions of the project by their references. -/
def referenceVersions (toLowerCase : String → String) (references : List String) :
    LinkedMap String ProjectVersion :=
  LinkedMap.ofEntries (references.map fun reference =>
    (reference, ⟨reference, normalizeNameToId toLowerCase reference⟩))

/-- A known artifact gets one more version; an unknown one is stored with its path. -/
def recordArtifact (version : Option ProjectVersion)
    (artifacts : LinkedMap String ProjectArtifact) (computed : ComputedArtifact) :
    LinkedMap String ProjectArtifact :=
  match artifacts.get computed.name with
  | some artifact =>
      artifacts.put computed.name
        { artifact with versions := artifact.versions ++ version.toList }
  | none =>
      artifacts.put computed.name
        ⟨computed.name, computed.path, computed.technologies, version.toList⟩

section Initialization

variable (toLowerCase : String → String) (technologies : List String) (projectPath : String)
  (checkout : String → ProjectTree) (versions : LinkedMap String ProjectVersion)

/-- The artifacts of one reference on top of those of the references before. -/
def recordReference (artifacts : LinkedMap String ProjectArtifact) (reference : String) :
    LinkedMap String ProjectArtifact :=
  (computeArtifacts toLowerCase technologies projectPath (checkout reference)).foldl
    (recordArtifact (versions.get reference)) artifacts

def collectArtifacts (references : List String) : LinkedMap String ProjectArtifact :=
  references.foldl (recordReference toLowerCase technologies projectPath checkout versions)
    .empty

/-- The projects of the events that an initialization emits.  The clone lies in a
directory that is named by the project's external id. -/
def processProjectInitialization (project : Project) (fetched : ProjectTree)
    (references : List String) : List Project :=
  let technologies := loadTechnologies project.externalId.id fetched
  let versions := referenceVersions toLowerCase references
  let artifacts := collectArtifacts toLowerCase technologies project.externalId.id checkout
    versions references
  let withTechnologies := { project with technologies := technologies }
  let withVersions := { withTechnologies with versions := versions.values }
  [withTechnologies, withVersions, { withVersions with artifacts := artifacts.values }]

/-- The project as the last event leaves it. -/
def initializedProject (project : Project) (fetched : ProjectTree)
    (references : List String) : Project :=
  (processProjectInitialization toLowerCase checkout project fetched references).getLast
    (List.cons_ne_nil _ _)

end Initialization

/-! ## The paths of the artifacts -/

/-- What every computed artifact satisfies, every stored one satisfies: an artifact keeps
the path under which it was found first. -/
theorem forall_artifacts_recordArtifact {P : String → Prop} {version : Option ProjectVersion}
    {artifacts : LinkedMap String ProjectArtifact} {computed : ComputedArtifact}
    (hold : ∀ e ∈ artifacts.entries, P e.2.path) (hnew : P computed.path) :
    ∀ e ∈ (recordArtifact version artifacts computed).entries, P e.2.path := by
  unfold recordArtifact
  split
  case h_1 artifact hget =>
    apply LinkedMap.forall_entries_put (P := fun _ (a : ProjectArtifact) => P a.path) hold
    exact hold _ (LinkedMap.get_eq_some_iff.mp hget)
  case h_2 =>
    exact LinkedMap.forall_entries_put (P := fun _ (a : ProjectArtifact) => P a.path) hold hnew

theorem forall_artifacts_foldl_recordArtifact {P : String → Prop}
    {version : Option ProjectVersion} {computed : List ComputedArtifact} :
    ∀ {artifacts : LinkedMap String ProjectArtifact},
      (∀ e ∈ artifacts.entries, P e.2.path) → (∀ c ∈ computed, P c.path) →
        ∀ e ∈ (computed.foldl (recordArtifact version) artifacts).entries, P e.2.path := by
  induction computed with
  | nil => exact fun hold _ => hold
  | cons c rest ih =>
      intro artifacts hold hnew
      rw [List.foldl_cons]
      apply ih
      · exact forall_artifacts_recordArtifact hold (hnew c List.mem_cons_self)
      · exact fun c' hc' => hnew c' (List.mem_cons_of_mem c hc')

theorem forall_artifacts_collectArtifacts {P : String → Prop} {toLowerCase : String → String}
    {technologies : List String} {projectPath : String} {checkout : String → ProjectTree}
    {versions : LinkedMap String ProjectVersion} {references : List String}
    (h : ∀ reference, ∀ c ∈ computeArtifacts toLowerCase technologies projectPath
      (checkout reference), P c.path) :
    ∀ e ∈ (collectArtifacts toLowerCase technologies projectPath checkout versions
      references).entries, P e.2.path := by
  have hfold : ∀ (rest : List String) (artifacts : LinkedMap String ProjectArtifact),
      (∀ e ∈ artifacts.entries, P e.2.path) →
        ∀ e ∈ (rest.foldl (recordReference toLowerCase technologies projectPath checkout
          versions) artifacts).entries, P e.2.path := by
    intro rest
    induction rest with
    | nil => exact fun artifacts hold => hold
    | cons reference rest ih =>
        intro artifacts hold
        rw [List.foldl_cons]
        apply ih
        exact forall_artifacts_foldl_recordArtifact hold (h reference)
  exact hfold references .empty (fun _ he => nomatch he)

/-- A module lies below the project's directory. -/
theorem slash_mem_computed_path {toLowerCase : String → String} {technologies : List String}
    {projectPath : String} {tree : ProjectTree} {c : ComputedArtifact}
    (h : c ∈ computeArtifacts toLowerCase technologies projectPath tree) :
    '/' ∈ c.path.toList := by
  unfold computeArtifacts at h
  split at h
  · rcases List.mem_map.mp (List.mem_eraseDups.mp h) with ⟨m, hm, rfl⟩
    rcases List.mem_map.mp hm with ⟨directory, hdirectory, rfl⟩
    rcases mem_findParentDirectories hdirectory with ⟨file, rfl, -, hfilter⟩
    exact slash_mem_pathText projectPath (by simpa using hfilter)
  · exact absurd h List.not_mem_nil

/-- Every artifact of an initialized project has a slash in its path. -/
theorem slash_mem_artifact_path {toLowerCase : String → String}
    {checkout : String → ProjectTree} {project : Project} {fetched : ProjectTree}
    {references : List String} {artifact : ProjectArtifact}
    (h : artifact ∈
      (initializedProject toLowerCase checkout project fetched references).artifacts) :
    '/' ∈ artifact.path.toList := by
  rcases List.mem_map.mp h with ⟨e, he, rfl⟩
  exact forall_artifacts_collectArtifacts
    (P := fun path => '/' ∈ path.toList) (fun _ c hc => slash_mem_computed_path hc) e he

end ArtPlatform
