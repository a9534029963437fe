import ArtPlatform.Agent.ProjectInitialization
import ArtPlatform.Git.GitChanges

/-!
# Project changes

Which artifacts of a project have changed between two commits.  The agent looks the
first name of every changed path up among the paths of the artifacts of a reference.

A path of a diff starts at the root of the repository, the path of an artifact at the
directory into which the repository was cloned.  So the first name of a changed path
has no slash, every path of an artifact has one, and no lookup succeeds.

Main results:

- Theorem `computeProjectChanges_initialized`: for an initialized project the result is
  always empty.
- Theorem `changes_found_iff`: so the result is right exactly when no artifact of the
  reference has changed.
- Theorem `changes_missed`: a modified file of a module.
-/

namespace ArtPlatform

/-! ## The lookup -/

/-- Keep the first element of each key. -/
def distinctBy {α κ : Type} [DecidableEq κ] (key : α → κ) : List α → List α
  | [] => []
  | a :: as => a :: (distinctBy key as).filter fun b => key b ≠ key a

def ProjectArtifact.atReference (artifact : ProjectArtifact) (reference : String) : Bool :=
  artifact.versions.any fun version => version.reference = reference

/-- The artifacts of a reference by their paths. -/
def referenceArtifacts (project : Project) (reference : String) :
    LinkedMap String ProjectArtifact :=
  LinkedMap.ofEntries <|
    (project.artifacts.filter (·.atReference reference)).map fun a => (a.path, a)

/-- The changed paths that are looked up: a rename counts with its new path, a deletion
not at all. -/
def GitChanges.lookedUp (c : GitChanges) : List String :=
  c.added ++ c.modified ++ c.renamed.values ++
    c.copied.entries.flatMap fun e => [e.1, e.2].eraseDups

def loadReferenceChanges (project : Project) (reference : String)
    (difference : List DiffEntry) : List ProjectArtifact :=
  let artifacts := referenceArtifacts project reference
  let changedArtifacts := (changes difference).lookedUp.map fun filePath =>
    artifacts.get (substringBefore filePath '/')
  distinctBy (·.name) (changedArtifacts.filterMap id)

/-- The changes of a request; the difference of its two commits comes from git. -/
def computeProjectChanges (project : Project) (reference : String)
    (difference : List DiffEntry) : List ProjectArtifact :=
  loadReferenceChanges project reference difference

/-! ## What has changed -/

/-- The paths below the root of the repository that an entry touches. -/
def DiffEntry.touched (entry : DiffEntry) : List String :=
  match entry.changeType with
  | .add => [entry.newPath]
  | .modify => [entry.newPath]
  | .delete => [entry.oldPath]
  | .rename => [entry.oldPath, entry.newPath]
  | .copy => [entry.newPath]

/-- The directory of an artifact contains a file of the clone, at any depth. -/
def ProjectArtifact.containsFile (artifact : ProjectArtifact) (projectPath filePath : String) :
    Bool :=
  startsWith (projectPath ++ "/" ++ filePath) (artifact.path ++ "/")

/-- Some file below the directory of the artifact is touched. -/
def ProjectArtifact.hasChanged (artifact : ProjectArtifact) (projectPath : String)
    (difference : List DiffEntry) : Bool :=
  difference.any fun entry => entry.touched.any fun filePath =>
    artifact.containsFile projectPath filePath

/-- The changed artifacts of a reference, each once, and nothing else. -/
structure FindsExactlyTheChanged (project : Project) (reference : String)
    (difference : List DiffEntry) (found : List ProjectArtifact) : Prop where
  once : found.Nodup
  changed : ∀ artifact, artifact ∈ found ↔ artifact ∈ project.artifacts ∧
    artifact.atReference reference = true ∧
      artifact.hasChanged project.externalId.id difference = true

/-! ## No lookup succeeds -/

theorem path_of_get_referenceArtifacts {project : Project} {reference path : String}
    {artifact : ProjectArtifact}
    (h : (referenceArtifacts project reference).get path = some artifact) :
    artifact ∈ project.artifacts ∧ artifact.path = path := by
  have hmem := LinkedMap.mem_of_mem_ofEntries (LinkedMap.get_eq_some_iff.mp h)
  rcases List.mem_map.mp hmem with ⟨a, ha, heq⟩
  rw [Prod.mk.injEq] at heq
  rcases heq with ⟨hpath, rfl⟩
  exact ⟨List.mem_of_mem_filter ha, hpath⟩

/-- The first name of a path is no path with a slash. -/
theorem get_referenceArtifacts_eq_none {project : Project} {reference : String}
    (h : ∀ artifact ∈ project.artifacts, '/' ∈ artifact.path.toList) (filePath : String) :
    (referenceArtifacts project reference).get (substringBefore filePath '/') = none := by
  rw [Option.eq_none_iff_forall_ne_some]
  intro artifact hget
  rcases path_of_get_referenceArtifacts hget with ⟨hmem, hpath⟩
  have hslash := h artifact hmem
  rw [hpath] at hslash
  exact notMem_substringBefore filePath '/' hslash

theorem computeProjectChanges_of_slash {project : Project} {reference : String}
    {difference : List DiffEntry}
    (h : ∀ artifact ∈ project.artifacts, '/' ∈ artifact.path.toList) :
    computeProjectChanges project reference difference = [] := by
  have hnone : ((changes difference).lookedUp.map fun filePath =>
      (referenceArtifacts project reference).get (substringBefore filePath '/')).filterMap id
        = [] := by
    rw [List.filterMap_eq_nil_iff]
    intro found hfound
    rcases List.mem_map.mp hfound with ⟨filePath, -, rfl⟩
    exact get_referenceArtifacts_eq_none h filePath
  simp only [computeProjectChanges, loadReferenceChanges, hnone, distinctBy]

section Initialized

variable (toLowerCase : String → String) (checkout : String → ProjectTree) (project : Project)
  (fetched : ProjectTree) (references : List String) (reference : String)
  (difference : List DiffEntry)

/-- Whatever the difference, nothing is found. -/
theorem computeProjectChanges_initialized :
    computeProjectChanges (initializedProject toLowerCase checkout project fetched references)
      reference difference = [] :=
  computeProjectChanges_of_slash fun _ h => slash_mem_artifact_path h

/-- The changes of an initialized project are found exactly when there are none. -/
theorem changes_found_iff :
    FindsExactlyTheChanged
        (initializedProject toLowerCase checkout project fetched references) reference
        difference
        (computeProjectChanges
          (initializedProject toLowerCase checkout project fetched references) reference
          difference) ↔
      ∀ artifact ∈ (initializedProject toLowerCase checkout project fetched
          references).artifacts,
        artifact.atReference reference = true →
          artifact.hasChanged project.externalId.id difference = false := by
  have hempty := computeProjectChanges_initialized toLowerCase checkout project fetched
    references reference difference
  rw [hempty]
  constructor
  · intro h artifact hmem hreference
    rw [← Bool.not_eq_true]
    intro hchanged
    exact List.not_mem_nil ((h.changed artifact).mpr ⟨hmem, hreference, hchanged⟩)
  · intro h
    refine ⟨List.nodup_nil, fun artifact => iff_of_false List.not_mem_nil ?_⟩
    rintro ⟨hmem, hreference, hchanged⟩
    have hnot := h artifact hmem hreference
    exact Bool.false_ne_true (hnot.symm.trans hchanged)

end Initialized

/-! ## A modified module -/

/-- The changed artifacts are found for every project, every tree and every difference. -/
def ChangesAreFound : Prop :=
  ∀ toLowerCase checkout project fetched references reference difference,
    FindsExactlyTheChanged (initializedProject toLowerCase checkout project fetched references)
      reference difference
      (computeProjectChanges
        (initializedProject toLowerCase checkout project fetched references)
        reference difference)

namespace ModifiedModule

def project : Project where
  id := 1
  name := "shop"
  gitResourceId := ⟨1, "git", .git⟩
  initializationResourceId := ⟨2, "cluster", .openShift⟩
  openShiftConfiguration := none
  notificationsConfiguration := none
  externalId := ⟨"shop", ⟨2, "cluster", .openShift⟩⟩
  creationTimeStamp := 0

/-- One module `api` with its build script and a source file. -/
def tree : ProjectTree :=
  [(⟨"api", by decide⟩, .directory
    [(⟨"build.gradle", by decide⟩, .file ""), (⟨"Main.java", by decide⟩, .file "")])]

def artifact : ProjectArtifact :=
  ⟨"api", "shop/api", ["gradle"], [⟨"master", "master"⟩]⟩

def difference : List DiffEntry :=
  [⟨.modify, "api/Main.java", "api/Main.java"⟩]

end ModifiedModule

open ModifiedModule in
/-- The only module of a project is modified, and the result is empty. -/
theorem changes_missed : ¬ ChangesAreFound := by
  intro h
  have hfound := h asciiLowerCase (fun _ => tree) project tree ["master"] "master" difference
  rw [computeProjectChanges_initialized] at hfound
  have hartifacts : (initializedProject asciiLowerCase (fun _ => tree) project tree
      ["master"]).artifacts = [artifact] := by
    decide +kernel
  have hmem : artifact ∈ ([] : List ProjectArtifact) := by
    rw [hfound.changed, hartifacts]
    exact ⟨List.mem_singleton_self _, by decide +kernel, by decide +kernel⟩
  exact List.not_mem_nil hmem

end ArtPlatform
