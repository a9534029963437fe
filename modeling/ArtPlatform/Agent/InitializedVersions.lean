import ArtPlatform.Agent.ProjectInitialization
import Mathlib.Data.List.Count
import Mathlib.Data.List.Nodup

/-!
# The versions that an initialization records

The references of a project are its tags followed by its branches.  Each becomes a
version of the project, under the normalised name of the reference.  The modules found at
a reference become artifacts, or add its version to the artifact of their name.

Main results:

- Theorem `get_foldl_recordArtifact`: what is stored under a name after any sequence of
  computed artifacts.
- Theorem `initializedProject_recordsExactly_iff`: exactly when the project records what
  its references hold.
- Theorem `versions_share_name`: two references whose versions have one name.
-/

namespace ArtPlatform

/-! ## What should be recorded -/

/-- The versions of the project stand for its references, and every name found at some
reference has one artifact, with the versions of the references at which it was found. -/
structure RecordsExactly (references : List String)
    (found : String → List ComputedArtifact) (project : Project) : Prop where
  versions : ∀ reference, reference ∈ project.versions.map ProjectVersion.reference ↔
    reference ∈ references
  versionOnce : (project.versions.map ProjectVersion.reference).Nodup
  versionNames : ∀ v ∈ project.versions, ∀ w ∈ project.versions, v.version = w.version → v = w
  artifacts : ∀ name, name ∈ project.artifacts.map ProjectArtifact.name ↔
    ∃ reference ∈ references, ∃ c ∈ found reference, c.name = name
  artifactOnce : (project.artifacts.map ProjectArtifact.name).Nodup
  artifactVersions : ∀ artifact ∈ project.artifacts, ∀ v, v ∈ artifact.versions ↔
    v ∈ project.versions ∧ ∃ c ∈ found v.reference, c.name = artifact.name
  artifactVersionOnce : ∀ artifact ∈ project.artifacts, artifact.versions.Nodup

/-! ## A sequence of computed artifacts -/

/-- An artifact that was computed at a reference of some version. -/
abbrev Finding :=
  Option ProjectVersion × ComputedArtifact

def findingsOf (name : String) (findings : List Finding) : List Finding :=
  findings.filter fun finding => finding.2.name = name

def recordFinding (artifacts : LinkedMap String ProjectArtifact) (finding : Finding) :
    LinkedMap String ProjectArtifact :=
  recordArtifact finding.1 artifacts finding.2

/-- The artifact that is stored for the findings of one name: the first one's path and
technologies, and the versions of all. -/
def artifactOf : List Finding → Option ProjectArtifact
  | [] => none
  | first :: rest =>
      some ⟨first.2.name, first.2.path, first.2.technologies,
        (first :: rest).flatMap fun finding => finding.1.toList⟩

theorem artifactOf_append_singleton (findings : List Finding) (finding : Finding) :
    artifactOf (findings ++ [finding]) =
      match artifactOf findings with
      | some artifact =>
          some { artifact with versions := artifact.versions ++ finding.1.toList }
      | none =>
          some ⟨finding.2.name, finding.2.path, finding.2.technologies, finding.1.toList⟩ := by
  cases findings with
  | nil => simp [artifactOf]
  | cons first rest => simp [artifactOf]

theorem get_recordFinding (artifacts : LinkedMap String ProjectArtifact) (finding : Finding)
    (name : String) :
    (recordFinding artifacts finding).get name =
      if name = finding.2.name then
        match artifacts.get name with
        | some artifact =>
            some { artifact with versions := artifact.versions ++ finding.1.toList }
        | none =>
            some ⟨finding.2.name, finding.2.path, finding.2.technologies, finding.1.toList⟩
      else artifacts.get name := by
  unfold recordFinding recordArtifact
  by_cases hname : name = finding.2.name
  · subst hname
    cases artifacts.get finding.2.name <;> simp [LinkedMap.get_put]
  · split <;> simp [LinkedMap.get_put, hname]

/-- Each name is stored with the artifact of its findings. -/
theorem get_foldl_recordArtifact (findings : List Finding) (name : String) :
    (findings.foldl recordFinding .empty).get name = artifactOf (findingsOf name findings) := by
  induction findings using List.reverseRecOn with
  | nil => rfl
  | append_singleton findings finding ih =>
      rw [List.foldl_concat, get_recordFinding, ih]
      by_cases hname : finding.2.name = name
      · rw [if_pos hname.symm]
        have hfilter : findingsOf name (findings ++ [finding]) =
            findingsOf name findings ++ [finding] := by
          simp [findingsOf, hname]
        rw [hfilter, artifactOf_append_singleton]
      · rw [if_neg (Ne.symm hname)]
        have hfilter : findingsOf name (findings ++ [finding]) = findingsOf name findings := by
          simp [findingsOf, hname]
        rw [hfilter]

/-- The values of a map of artifacts, by what it finds under their names. -/
theorem mem_values_of_get {artifacts : LinkedMap String ProjectArtifact}
    {artifact : ProjectArtifact}
    (hnames : ∀ name a, artifacts.get name = some a → a.name = name) :
    artifact ∈ artifacts.values ↔ artifacts.get artifact.name = some artifact := by
  rw [LinkedMap.get_eq_some_iff, LinkedMap.values, List.mem_map]
  constructor
  · rintro ⟨e, he, rfl⟩
    have hname := hnames e.1 e.2 (LinkedMap.get_eq_some_iff.mpr he)
    rw [hname]
    exact he
  · intro hmem
    exact ⟨_, hmem, rfl⟩

/-! ## The versions of the references -/

section Initialization

variable (toLowerCase : String → String) (found : String → List ComputedArtifact)
  (references : List String)

def versionOf (reference : String) : ProjectVersion :=
  ⟨reference, normalizeNameToId toLowerCase reference⟩

variable {toLowerCase found references}

theorem versionOf_injective : Function.Injective (versionOf toLowerCase) :=
  fun _ _ h => congrArg ProjectVersion.reference h

theorem get_referenceVersions (toLowerCase : String → String) {reference : String} (h : reference ∈ references) :
    (referenceVersions toLowerCase references).get reference =
      some (versionOf toLowerCase reference) := by
  have hkey : reference ∈ (references.map fun r => (r, versionOf toLowerCase r)).map Prod.fst := by
    simpa using h
  obtain ⟨v, hv, hmem⟩ := LinkedMap.exists_get_ofEntries hkey
  obtain ⟨r, -, hr⟩ := List.mem_map.mp hmem
  simp only [Prod.mk.injEq] at hr
  rw [← hr.1, hr.2]
  rw [← hr.1] at hv
  exact hv

theorem entry_eq_of_mem_referenceVersions {e : String × ProjectVersion}
    (h : e ∈ (referenceVersions toLowerCase references).entries) :
    e.1 ∈ references ∧ e.2 = versionOf toLowerCase e.1 := by
  obtain ⟨r, hr, rfl⟩ := List.mem_map.mp (LinkedMap.mem_of_mem_ofEntries h)
  exact ⟨hr, rfl⟩

theorem mem_values_referenceVersions {v : ProjectVersion} :
    v ∈ (referenceVersions toLowerCase references).values ↔
      ∃ reference ∈ references, v = versionOf toLowerCase reference := by
  rw [LinkedMap.values, List.mem_map]
  constructor
  · rintro ⟨e, he, rfl⟩
    have hentry := entry_eq_of_mem_referenceVersions he
    exact ⟨e.1, hentry.1, hentry.2⟩
  · rintro ⟨reference, hreference, rfl⟩
    exact ⟨_, LinkedMap.get_eq_some_iff.mp (get_referenceVersions _ hreference), rfl⟩

theorem reference_values_referenceVersions :
    (referenceVersions toLowerCase references).values.map ProjectVersion.reference =
      (referenceVersions toLowerCase references).entries.map Prod.fst := by
  rw [LinkedMap.values, List.map_map]
  apply List.map_congr_left
  intro e he
  rw [Function.comp, (entry_eq_of_mem_referenceVersions he).2]
  rfl

/-! ## The findings of an initialization -/

/-- The references at which a name was found, once for each time. -/
def occurrences (found : String → List ComputedArtifact) (references : List String)
    (name : String) : List String :=
  references.flatMap fun reference =>
    ((found reference).filter fun c => c.name = name).map fun _ => reference

def findings (versions : LinkedMap String ProjectVersion)
    (found : String → List ComputedArtifact) (references : List String) : List Finding :=
  references.flatMap fun reference =>
    (found reference).map fun c => (versions.get reference, c)

theorem collectArtifacts_eq (toLowerCase : String → String) (technologies : List String)
    (projectPath : String) (checkout : String → ProjectTree)
    (versions : LinkedMap String ProjectVersion) (references : List String) :
    collectArtifacts toLowerCase technologies projectPath checkout versions references =
      (findings versions (fun reference =>
        computeArtifacts toLowerCase technologies projectPath (checkout reference))
          references).foldl recordFinding .empty := by
  simp only [collectArtifacts, findings, List.foldl_flatMap, List.foldl_map]
  rfl

theorem mem_occurrences {name reference : String} :
    reference ∈ occurrences found references name ↔
      reference ∈ references ∧ ∃ c ∈ found reference, c.name = name := by
  simp only [occurrences, List.mem_flatMap, List.mem_map, List.mem_filter, decide_eq_true_eq]
  constructor
  · rintro ⟨r, hr, c, ⟨hc, hname⟩, rfl⟩
    exact ⟨hr, c, hc, hname⟩
  · rintro ⟨hr, c, hc, hname⟩
    exact ⟨reference, hr, c, ⟨hc, hname⟩, rfl⟩

/-- A name is found as often as the reference is listed, times the modules of that name. -/
theorem count_occurrences (name reference : String) :
    (occurrences found references name).count reference =
      references.count reference * (found reference).countP fun c => c.name = name := by
  induction references with
  | nil => simp [occurrences]
  | cons r references ih =>
      have hcons : occurrences found (r :: references) name =
          (((found r).filter fun c => c.name = name).map fun _ => r) ++
            occurrences found references name := rfl
      rw [hcons, List.count_append, ih, List.count_cons]
      by_cases hr : r = reference
      · subst hr
        have hmap : (((found r).filter fun c => c.name = name).map fun _ => r).count r =
            (found r).countP fun c => c.name = name := by
          rw [List.map_const', List.count_replicate_self, List.countP_eq_length_filter]
        rw [hmap, if_pos (by simp), Nat.add_mul, Nat.one_mul, Nat.add_comm]
      · have hmap : (((found r).filter fun c => c.name = name).map fun _ => r).count reference =
            0 := by
          rw [List.map_const']
          exact List.count_eq_zero_of_not_mem fun hmem => hr (List.eq_of_mem_replicate hmem).symm
        rw [hmap, if_neg (by simpa using hr), Nat.zero_add, Nat.add_zero]

/-- No name is found twice at a reference exactly when the references that hold modules are
listed once, and the modules of each have different names. -/
theorem nodup_occurrences_iff :
    (∀ name, (occurrences found references name).Nodup) ↔
      ∀ reference ∈ references, ∀ c ∈ found reference,
        references.count reference = 1 ∧
          (found reference).countP (fun d => d.name = c.name) = 1 := by
  constructor
  · intro h reference hreference c hc
    have hle := List.nodup_iff_count_le_one.mp (h c.name) reference
    rw [count_occurrences] at hle
    have hlisted : 0 < references.count reference := List.count_pos_iff.mpr hreference
    have hnamed : 0 < (found reference).countP fun d => d.name = c.name :=
      List.countP_pos_iff.mpr ⟨c, hc, by simp⟩
    constructor
    · have := Nat.le_mul_of_pos_right (references.count reference) hnamed
      omega
    · have := Nat.le_mul_of_pos_left ((found reference).countP fun d => d.name = c.name) hlisted
      omega
  · intro h name
    apply List.nodup_iff_count_le_one.mpr
    intro reference
    by_cases hmem : reference ∈ occurrences found references name
    · obtain ⟨hreference, c, hc, rfl⟩ := mem_occurrences.mp hmem
      obtain ⟨hlisted, hnamed⟩ := h reference hreference c hc
      simp [count_occurrences, hlisted, hnamed]
    · rw [List.count_eq_zero_of_not_mem hmem]
      exact Nat.zero_le 1

variable (toLowerCase found references)

/-- The versions of the findings of a name are those of the references at which it was
found. -/
theorem versions_findingsOf (name : String) {rs : List String} (hrs : rs ⊆ references) :
    ((findingsOf name (findings (referenceVersions toLowerCase references) found rs)).flatMap
        fun finding => finding.1.toList) =
      (occurrences found rs name).map (versionOf toLowerCase) := by
  induction rs with
  | nil => rfl
  | cons r rs ih =>
      have hfindings : findings (referenceVersions toLowerCase references) found (r :: rs) =
          ((found r).map fun c => ((referenceVersions toLowerCase references).get r, c)) ++
            findings (referenceVersions toLowerCase references) found rs := rfl
      have hoccurrences : occurrences found (r :: rs) name =
          (((found r).filter fun c => c.name = name).map fun _ => r) ++
            occurrences found rs name := rfl
      have hget := get_referenceVersions toLowerCase (hrs List.mem_cons_self)
      have hrest := ih fun r' hr' => hrs (List.mem_cons_of_mem r hr')
      rw [hfindings, hoccurrences, hget, findingsOf, List.filter_append, List.flatMap_append,
        List.map_append, ← hrest, findingsOf, List.filter_map, List.flatMap_map, List.map_map]
      congr 1
      exact List.map_eq_flatMap.symm

/-! ## The stored artifacts -/

/-- An artifact is stored for each name that was found, with its versions. -/
theorem get_foldl_findings (name : String) :
    match ((findings (referenceVersions toLowerCase references) found references).foldl
        recordFinding .empty).get name with
    | some artifact =>
        artifact.name = name ∧ occurrences found references name ≠ [] ∧
          artifact.versions = (occurrences found references name).map (versionOf toLowerCase)
    | none => occurrences found references name = [] := by
  have hversions := versions_findingsOf toLowerCase found references name (List.Subset.refl references)
  rw [get_foldl_recordArtifact]
  cases hfindings : findingsOf name
      (findings (referenceVersions toLowerCase references) found references) with
  | nil =>
      rw [hfindings] at hversions
      exact List.map_eq_nil_iff.mp hversions.symm
  | cons first rest =>
      have hmem : first ∈ findingsOf name
          (findings (referenceVersions toLowerCase references) found references) := by
        rw [hfindings]
        exact List.mem_cons_self
      simp only [findingsOf, findings, List.mem_filter, List.mem_flatMap, List.mem_map,
        decide_eq_true_eq] at hmem
      obtain ⟨⟨reference, hreference, c, hc, rfl⟩, hname⟩ := hmem
      rw [hfindings] at hversions
      exact ⟨hname, List.ne_nil_of_mem (mem_occurrences.mpr ⟨hreference, c, hc, hname⟩),
        hversions⟩

variable {toLowerCase found references}

/-- What is known of a stored artifact. -/
theorem of_get_stored {name : String} {artifact : ProjectArtifact}
    (h : ((findings (referenceVersions toLowerCase references) found references).foldl
      recordFinding .empty).get name = some artifact) :
    artifact.name = name ∧ occurrences found references name ≠ [] ∧
      artifact.versions = (occurrences found references name).map (versionOf toLowerCase) := by
  have hstored := get_foldl_findings toLowerCase found references name
  rw [h] at hstored
  exact hstored

variable (toLowerCase) (checkout : String → ProjectTree) (project : Project)
  (fetched : ProjectTree) (references)

/-- The modules found at a reference of the project. -/
def foundAt (reference : String) : List ComputedArtifact :=
  computeArtifacts toLowerCase (loadTechnologies project.externalId.id fetched)
    project.externalId.id (checkout reference)

variable {toLowerCase checkout project fetched references}

theorem initializedProject_versions :
    (initializedProject toLowerCase checkout project fetched references).versions =
      (referenceVersions toLowerCase references).values :=
  rfl

theorem initializedProject_artifacts :
    (initializedProject toLowerCase checkout project fetched references).artifacts =
      ((findings (referenceVersions toLowerCase references)
        (foundAt toLowerCase checkout project fetched) references).foldl
          recordFinding .empty).values := by
  have h := collectArtifacts_eq toLowerCase
    (loadTechnologies project.externalId.id fetched) project.externalId.id checkout
    (referenceVersions toLowerCase references) references
  exact congrArg LinkedMap.values h

/-- The stored artifacts are exactly those of the names that were found. -/
theorem mem_initializedProject_artifacts {artifact : ProjectArtifact} :
    artifact ∈ (initializedProject toLowerCase checkout project fetched references).artifacts ↔
      ((findings (referenceVersions toLowerCase references)
        (foundAt toLowerCase checkout project fetched) references).foldl
          recordFinding .empty).get artifact.name = some artifact := by
  rw [initializedProject_artifacts]
  apply mem_values_of_get
  exact fun name a hget => (of_get_stored hget).1

/-- The versions of a stored artifact. -/
theorem versions_of_mem_artifacts {artifact : ProjectArtifact}
    (h : artifact ∈
      (initializedProject toLowerCase checkout project fetched references).artifacts) :
    artifact.versions = (occurrences (foundAt toLowerCase checkout project fetched) references
      artifact.name).map (versionOf toLowerCase) := by
  exact (of_get_stored (mem_initializedProject_artifacts.mp h)).2.2

/-- Every name that was found has a stored artifact. -/
theorem exists_artifact_of_occurrences_ne_nil {name : String}
    (h : occurrences (foundAt toLowerCase checkout project fetched) references name ≠ []) :
    ∃ artifact ∈
        (initializedProject toLowerCase checkout project fetched references).artifacts,
      artifact.name = name := by
  have hstored := get_foldl_findings toLowerCase
    (foundAt toLowerCase checkout project fetched) references name
  cases hget : ((findings (referenceVersions toLowerCase references)
      (foundAt toLowerCase checkout project fetched) references).foldl
        recordFinding .empty).get name with
  | none =>
      rw [hget] at hstored
      exact absurd hstored h
  | some artifact =>
      rw [hget] at hstored
      refine ⟨artifact, ?_, hstored.1⟩
      rw [mem_initializedProject_artifacts, hstored.1]
      exact hget

/-- And only such a name has one. -/
theorem occurrences_ne_nil_of_mem_artifacts {artifact : ProjectArtifact}
    (h : artifact ∈
      (initializedProject toLowerCase checkout project fetched references).artifacts) :
    occurrences (foundAt toLowerCase checkout project fetched) references artifact.name ≠ [] := by
  exact (of_get_stored (mem_initializedProject_artifacts.mp h)).2.1

theorem nodup_artifact_names :
    ((initializedProject toLowerCase checkout project fetched references).artifacts.map
      ProjectArtifact.name).Nodup := by
  rw [initializedProject_artifacts, LinkedMap.values, List.map_map]
  have hkeys : ∀ m : LinkedMap String ProjectArtifact,
      (∀ name a, m.get name = some a → a.name = name) →
        m.entries.map (ProjectArtifact.name ∘ Prod.snd) = m.entries.map Prod.fst := by
    intro m hm
    apply List.map_congr_left
    intro e he
    exact hm e.1 e.2 (LinkedMap.get_eq_some_iff.mpr he)
  rw [hkeys]
  · exact LinkedMap.nodup _
  · exact fun name a hget => (of_get_stored hget).1

/-! ## Exactness -/

/-- What an exact record tells of the references: no two of them have one identifier, and
no name is found at one of them twice. -/
theorem RecordsExactly.apart
    (h : RecordsExactly references (foundAt toLowerCase checkout project fetched)
      (initializedProject toLowerCase checkout project fetched references)) :
    (∀ r ∈ references, ∀ r' ∈ references,
      normalizeNameToId toLowerCase r = normalizeNameToId toLowerCase r' → r = r') ∧
    ∀ name, (occurrences (foundAt toLowerCase checkout project fetched) references name).Nodup := by
  constructor
  · intro r hr r' hr' hid
    have hv : versionOf toLowerCase r = versionOf toLowerCase r' := by
      apply h.versionNames
      · exact mem_values_referenceVersions.mpr ⟨r, hr, rfl⟩
      · exact mem_values_referenceVersions.mpr ⟨r', hr', rfl⟩
      · exact hid
    exact versionOf_injective hv
  · intro name
    by_cases hname : occurrences (foundAt toLowerCase checkout project fetched) references
        name = []
    · rw [hname]
      exact List.nodup_nil
    · obtain ⟨artifact, hmem, rfl⟩ := exists_artifact_of_occurrences_ne_nil hname
      have hnodup := h.artifactVersionOnce artifact hmem
      rw [versions_of_mem_artifacts hmem] at hnodup
      exact hnodup.of_map _

theorem recordsExactly_of_apart
    (hids : ∀ r ∈ references, ∀ r' ∈ references,
      normalizeNameToId toLowerCase r = normalizeNameToId toLowerCase r' → r = r')
    (hnodup : ∀ name,
      (occurrences (foundAt toLowerCase checkout project fetched) references name).Nodup) :
    RecordsExactly references (foundAt toLowerCase checkout project fetched)
      (initializedProject toLowerCase checkout project fetched references) := by
  constructor
  · intro reference
    rw [initializedProject_versions, List.mem_map]
    constructor
    · rintro ⟨v, hv, rfl⟩
      obtain ⟨r, hr, rfl⟩ := mem_values_referenceVersions.mp hv
      exact hr
    · intro hreference
      exact ⟨_, mem_values_referenceVersions.mpr ⟨reference, hreference, rfl⟩, rfl⟩
  · rw [initializedProject_versions, reference_values_referenceVersions]
    exact LinkedMap.nodup _
  · intro v hv w hw hversion
    obtain ⟨r, hr, rfl⟩ := mem_values_referenceVersions.mp hv
    obtain ⟨r', hr', rfl⟩ := mem_values_referenceVersions.mp hw
    rw [hids r hr r' hr' hversion]
  · intro name
    rw [List.mem_map]
    constructor
    · rintro ⟨artifact, hmem, rfl⟩
      obtain ⟨reference, hocc⟩ :=
        List.exists_mem_of_ne_nil _ (occurrences_ne_nil_of_mem_artifacts hmem)
      exact ⟨reference, mem_occurrences.mp hocc⟩
    · rintro ⟨reference, hfound⟩
      exact exists_artifact_of_occurrences_ne_nil
        (List.ne_nil_of_mem (mem_occurrences.mpr hfound))
  · exact nodup_artifact_names
  · intro artifact hmem v
    rw [versions_of_mem_artifacts hmem, List.mem_map, initializedProject_versions]
    constructor
    · rintro ⟨reference, hocc, rfl⟩
      obtain ⟨hreference, hfound⟩ := mem_occurrences.mp hocc
      exact ⟨mem_values_referenceVersions.mpr ⟨reference, hreference, rfl⟩, hfound⟩
    · rintro ⟨hv, hfound⟩
      obtain ⟨reference, hreference, rfl⟩ := mem_values_referenceVersions.mp hv
      exact ⟨reference, mem_occurrences.mpr ⟨hreference, hfound⟩, rfl⟩
  · intro artifact hmem
    rw [versions_of_mem_artifacts hmem]
    exact (hnodup artifact.name).map versionOf_injective

/-- An initialization records what the references hold exactly when different references
have different identifiers, a reference with modules is listed once, and its modules have
different names. -/
theorem initializedProject_recordsExactly_iff (toLowerCase : String → String)
    (checkout : String → ProjectTree) (project : Project) (fetched : ProjectTree)
    (references : List String) :
    RecordsExactly references (foundAt toLowerCase checkout project fetched)
        (initializedProject toLowerCase checkout project fetched references) ↔
      (∀ r ∈ references, ∀ r' ∈ references,
        normalizeNameToId toLowerCase r = normalizeNameToId toLowerCase r' → r = r') ∧
      ∀ r ∈ references, ∀ c ∈ foundAt toLowerCase checkout project fetched r,
        references.count r = 1 ∧
          (foundAt toLowerCase checkout project fetched r).countP
            (fun d => d.name = c.name) = 1 := by
  rw [← nodup_occurrences_iff]
  constructor
  · exact RecordsExactly.apart
  · rintro ⟨hids, hnodup⟩
    exact recordsExactly_of_apart hids hnodup

end Initialization

/-! ## Two branches of one identifier -/

namespace BranchSample

def project : Project where
  id := 1
  name := "shop"
  gitResourceId := ⟨1, "git", .git⟩
  initializationResourceId := ⟨2, "cluster", .openShift⟩
  openShiftConfiguration := none
  notificationsConfiguration := none
  externalId := ⟨"shop", ⟨2, "cluster", .openShift⟩⟩
  creationTimeStamp := 0

def branches : List String :=
  ["feature/cart", "feature-cart"]

end BranchSample

open BranchSample in
/-- The versions of two branches have one name. -/
theorem versions_share_name :
    ¬ RecordsExactly branches (foundAt asciiLowerCase (fun _ => []) project [])
      (initializedProject asciiLowerCase (fun _ => []) project [] branches) := by
  intro h
  have hsame := h.versionNames ⟨"feature/cart", "feature-cart"⟩ (by decide)
    ⟨"feature-cart", "feature-cart"⟩ (by decide) rfl
  exact absurd hsame (by decide)

end ArtPlatform
