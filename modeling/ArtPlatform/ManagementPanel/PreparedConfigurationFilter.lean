import ArtPlatform.Foundation.Selection
import ArtPlatform.ManagementPanel.PanelDatabase

/-!
# Filtering prepared configurations

The prepared configurations that a filter criteria asks for.  The filter has a path for
each criterion that is present first, and the path leaves out the tests for which it
expects nothing to test.  The tests by names are made only on the path by projects.

Main results:

- Theorem `filter_eq`: the tests that are made for each criteria.
- Theorem `preparedConfigurationFilter_conjunction_iff`: the result holds the
  configurations that satisfy the criteria exactly when some project is requested or the
  names do not exclude anything.
-/

namespace ArtPlatform

open Selection

/-- The criteria are sets; one that is absent is empty. -/
structure PreparedConfigurationFilterCriteria where
  projectIds : List Nat := []
  profiles : List String := []
  names : List String := []

/-- What is shown of a stored configuration. -/
def PreparedConfiguration.identifier (configuration : PreparedConfiguration) :
    PreparedConfigurationIdentifier where
  id := configuration.id
  projectId := configuration.projectId
  name := configuration.name
  profile := configuration.profile
  configuration := configuration.configuration

/-- The stored configurations in the order of the space. -/
def getPreparedConfigurationIds (configurations : Space PreparedConfiguration) :
    List PreparedConfigurationIdentifier :=
  configurations.selectAll.map PreparedConfiguration.identifier

theorem nodup_getPreparedConfigurationIds (configurations : Space PreparedConfiguration) :
    (getPreparedConfigurationIds configurations).Nodup := by
  refine List.Nodup.of_map PreparedConfigurationIdentifier.id ?_
  unfold getPreparedConfigurationIds
  rw [List.map_map]
  exact configurations.nodup

namespace PreparedConfigurationFilterCriteria

variable (criteria : PreparedConfigurationFilterCriteria)

def filterByProjects (ids : List PreparedConfigurationIdentifier) :
    List PreparedConfigurationIdentifier :=
  filterBy criteria.projectIds (fun id => id.projectId) ids

def filterByNames (ids : List PreparedConfigurationIdentifier) :
    List PreparedConfigurationIdentifier :=
  filterBy criteria.names (fun id => id.name) ids

def filterByProfiles (ids : List PreparedConfigurationIdentifier) :
    List PreparedConfigurationIdentifier :=
  filterBy criteria.profiles (fun id => id.profile) ids

def filter (configurations : Space PreparedConfiguration) :
    List PreparedConfigurationIdentifier :=
  let ids := getPreparedConfigurationIds configurations
  if !criteria.projectIds.isEmpty then
    criteria.filterByNames (criteria.filterByProfiles (criteria.filterByProjects ids))
  else if !criteria.profiles.isEmpty then
    criteria.filterByProfiles (criteria.filterByProjects ids)
  else if !criteria.names.isEmpty then criteria.filterByProjects ids
  else ids

/-! ## The conjunction -/

/-- The configuration satisfies the criteria on projects and profiles. -/
def admitsProfile (id : PreparedConfigurationIdentifier) : Bool :=
  admits criteria.projectIds id.projectId && admits criteria.profiles id.profile

def admitsName (id : PreparedConfigurationIdentifier) : Bool :=
  admits criteria.names id.name

/-- The tests that are made: those of names only with a project. -/
theorem filter_eq (configurations : Space PreparedConfiguration) :
    criteria.filter configurations =
      (getPreparedConfigurationIds configurations).filter fun id =>
        criteria.admitsProfile id && (criteria.projectIds.isEmpty || criteria.admitsName id) := by
  unfold filter filterByNames filterByProfiles filterByProjects
  simp only [filterBy_eq, List.filter_filter, admitsProfile, admitsName]
  by_cases hprojects : criteria.projectIds = []
  · by_cases hprofiles : criteria.profiles = []
    · simp [hprojects, hprofiles]
    · simp [hprojects, hprofiles]
  · have hpresent := List.isEmpty_eq_false_iff.mpr hprojects
    simp only [hpresent, Bool.not_false, ↓reduceIte, Bool.false_or]
    refine List.filter_congr fun id _ => ?_
    rw [Bool.and_comm, Bool.and_comm (admits criteria.projectIds _)]

/-- The filter answers with the configurations that satisfy every criterion, each once,
exactly when a project is requested, or every stored configuration with a requested
profile has a requested name. -/
theorem preparedConfigurationFilter_conjunction_iff
    (criteria : PreparedConfigurationFilterCriteria)
    (configurations : Space PreparedConfiguration) :
    (criteria.filter configurations).Perm
        ((getPreparedConfigurationIds configurations).filter fun id =>
          criteria.admitsProfile id && criteria.admitsName id) ↔
      criteria.projectIds ≠ [] ∨ ∀ id ∈ getPreparedConfigurationIds configurations,
        criteria.admitsProfile id = true → criteria.admitsName id = true := by
  rw [filter_eq]
  by_cases hprojects : criteria.projectIds = []
  · simp only [hprojects, List.isEmpty_nil, Bool.true_or, Bool.and_true, ne_eq, not_true,
      false_or]
    exact perm_filter_and_iff _ _ _
  · have hpresent := List.isEmpty_eq_false_iff.mpr hprojects
    simp [hprojects, hpresent]

/-- Two configurations of a project. -/
private def sampleConfigurations : Space PreparedConfiguration :=
  (Space.empty.put ⟨1, 1, "test", "db", "url: a"⟩).put ⟨2, 1, "test", "cache", "url: b"⟩

/-- Asked for a name alone, the filter answers with all configurations. -/
theorem names_ignored :
    ({ names := ["db"] } : PreparedConfigurationFilterCriteria).filter sampleConfigurations =
        [⟨2, 1, "test", "cache", "url: b"⟩, ⟨1, 1, "test", "db", "url: a"⟩] ∧
      ¬ (({ names := ["db"] } : PreparedConfigurationFilterCriteria).filter
          sampleConfigurations).Perm
        ((getPreparedConfigurationIds sampleConfigurations).filter fun id =>
          ({ names := ["db"] } : PreparedConfigurationFilterCriteria).admitsProfile id &&
            ({ names := ["db"] } : PreparedConfigurationFilterCriteria).admitsName id) := by
  refine ⟨rfl, fun hperm => ?_⟩
  exact absurd hperm.length_eq (by decide)

end PreparedConfigurationFilterCriteria

end ArtPlatform
