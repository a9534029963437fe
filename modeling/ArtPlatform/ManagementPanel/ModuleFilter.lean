import ArtPlatform.Foundation.Selection
import ArtPlatform.ManagementPanel.ModuleOrder

/-!
# Filtering modules

The modules that a filter criteria asks for.  The filter retrieves the modules by the
listed ids, else by the listed projects, else all of them, and then tests what is left
of the criteria.  A retrieval by a list goes through the list, so an id or a project
that is listed twice brings its modules twice.

Main results:

- Theorem `mapM_getModuleInformation`: the retrieval by ids, key by key.
- Theorem `filter_eq_of_retrieved`: each path is a retrieval and a conjunction of tests.
- Theorem `moduleFilter_conjunction_iff`: the result holds the modules that satisfy the
  criteria, each once, exactly when none of them is listed twice.
-/

namespace ArtPlatform

open Selection

/-- A criterion that is absent is empty. -/
structure ModuleFilterCriteria where
  projectIds : List Nat := []
  states : List String := []
  ids : List Nat := []
  versions : List String := []
  sorted : Bool := false

/-! ## Retrieval -/

namespace PanelStore

def getModulesInformation (s : PanelStore) : List ModuleInformation :=
  s.modules.selectAll.map Module.information

/-- The missing quote in the message is the source's. -/
def getModuleInformation (s : PanelStore) (id : Nat) :
    Except PlatformException ModuleInformation :=
  orElseThrow ((s.tryGetModule id).map Module.information)
    ⟨.moduleDoesNotExists, s!"Module with id '{id} does not exists"⟩

/-- `getModulesInformation(ids)`. -/
def getListedModulesInformation (s : PanelStore) (ids : List Nat) :
    Except PlatformException (List ModuleInformation) :=
  ids.mapM s.getModuleInformation

def getProjectModulesInformation (s : PanelStore) (projectId : Nat) :
    List ModuleInformation :=
  (s.getProjectModules projectId).map Module.information

/-- `getProjectModulesInformation(projectIds)`. -/
def getProjectsModulesInformation (s : PanelStore) (projectIds : List Nat) :
    List ModuleInformation :=
  projectIds.flatMap s.getProjectModulesInformation

end PanelStore

/-! ## The filter -/

/-- The state that a filter by states looks for: of a started operation the one in
progress. -/
def ModuleState.filtered : ModuleState → ModuleState
  | .installationStarted => .installing
  | .updateStarted => .updating
  | .stopStarted => .stopping
  | .restartStarted => .restarting
  | .uninstallStarted => .uninstalling
  | state => state

namespace ModuleFilterCriteria

variable (criteria : ModuleFilterCriteria)

def filterByProjects (modules : List ModuleInformation) : List ModuleInformation :=
  filterBy criteria.projectIds (fun m => m.projectId) modules

def filterByStates (modules : List ModuleInformation) : List ModuleInformation :=
  filterBy criteria.states (fun m => m.state.filtered.code) modules

def filterByVersion (modules : List ModuleInformation) : List ModuleInformation :=
  filterBy criteria.versions (fun m => m.artifact.version) modules

def sort (modules : List ModuleInformation) : List ModuleInformation :=
  if criteria.sorted then sortModules modules else modules

def filter (s : PanelStore) : Except PlatformException (List ModuleInformation) :=
  let modulesInformation := s.getModulesInformation
  if !criteria.ids.isEmpty then do
    let modules ← s.getListedModulesInformation criteria.ids
    pure (criteria.sort (criteria.filterByVersion (criteria.filterByStates
      (criteria.filterByProjects modules))))
  else if !criteria.projectIds.isEmpty then
    .ok (criteria.sort (criteria.filterByVersion (criteria.filterByStates
      (s.getProjectsModulesInformation criteria.projectIds))))
  else if !criteria.states.isEmpty then
    .ok (criteria.sort (criteria.filterByVersion
      (criteria.filterByStates modulesInformation)))
  else if !criteria.versions.isEmpty then
    .ok (criteria.sort (criteria.filterByVersion modulesInformation))
  else .ok (criteria.sort modulesInformation)

/-! ## The conjunction -/

/-- The module satisfies the criteria on states and versions. -/
def admitsState (m : ModuleInformation) : Bool :=
  admits criteria.states m.state.filtered.code && admits criteria.versions m.artifact.version

/-- The module satisfies every criterion. -/
def admitsModule (m : ModuleInformation) : Bool :=
  admits criteria.ids m.id && admits criteria.projectIds m.projectId &&
    criteria.admitsState m

/-- The lists that the modules are retrieved by name the module at most once. -/
def ListsOnce (m : ModuleInformation) : Prop :=
  if criteria.ids = [] then criteria.projectIds.count m.projectId ≤ 1
  else criteria.ids.count m.id ≤ 1

instance (m : ModuleInformation) : Decidable (criteria.ListsOnce m) :=
  inferInstanceAs (Decidable (if criteria.ids = [] then
    criteria.projectIds.count m.projectId ≤ 1 else criteria.ids.count m.id ≤ 1))

theorem filterByProjects_eq (modules : List ModuleInformation) :
    criteria.filterByProjects modules =
      modules.filter fun m => admits criteria.projectIds m.projectId :=
  filterBy_eq _ _ _

/-- The tests on states and versions. -/
theorem filterByVersion_filterByStates (modules : List ModuleInformation) :
    criteria.filterByVersion (criteria.filterByStates modules) =
      modules.filter criteria.admitsState := by
  unfold filterByVersion filterByStates
  rw [filterBy_eq, filterBy_eq, List.filter_filter]
  refine List.filter_congr fun m _ => ?_
  rw [admitsState, Bool.and_comm]

theorem sort_perm (modules : List ModuleInformation) :
    (criteria.sort modules).Perm modules := by
  unfold sort
  split
  · exact LegacyMergeSort.legacyMergeSort_perm _ _
  · exact List.Perm.refl _

end ModuleFilterCriteria

/-! ## What is retrieved -/

namespace PanelStore

variable {s : PanelStore}

theorem nodup_getModulesInformation (s : PanelStore) : s.getModulesInformation.Nodup := by
  have hids : s.getModulesInformation.map ModuleInformation.id =
      s.modules.rows.map Module.id := by
    unfold getModulesInformation Space.selectAll
    rw [List.map_map]
    rfl
  refine List.Nodup.of_map ModuleInformation.id ?_
  rw [hids]
  exact s.modules.nodup

/-- A stored module is the only one of its id. -/
theorem filter_id_getModulesInformation {id : Nat} {m : Module}
    (h : s.tryGetModule id = some m) :
    (s.getModulesInformation.filter fun info => info.id = id) = [m.information] := by
  have hrow : m ∈ s.modules.rows := Space.mem_rows_of_get h
  have hid : m.id = id := Space.key_of_get h
  refine List.perm_singleton.mp ?_
  rw [List.perm_ext_iff_of_nodup ((nodup_getModulesInformation s).filter _)
    (List.nodup_singleton _)]
  intro info
  rw [List.mem_filter, List.mem_singleton]
  constructor
  · rintro ⟨hinfo, hinfoId⟩
    obtain ⟨m', hm', rfl⟩ := List.mem_map.mp hinfo
    have hinfoId' : m'.id = id := of_decide_eq_true hinfoId
    rw [s.modules.row_eq_of_key_eq hm' hrow (hinfoId'.trans hid.symm)]
  · rintro rfl
    exact ⟨List.mem_map_of_mem hrow, decide_eq_true hid⟩

/-- The retrieval by ids of stored modules goes through the ids. -/
theorem getListedModulesInformation_eq {ids : List Nat}
    (h : ∀ id ∈ ids, (s.tryGetModule id).isSome = true) :
    s.getListedModulesInformation ids =
      .ok (byKeys s.getModulesInformation ModuleInformation.id ids) := by
  unfold getListedModulesInformation
  induction ids with
  | nil => rfl
  | cons id ids ih =>
      obtain ⟨m, hm⟩ := Option.isSome_iff_exists.mp (h id List.mem_cons_self)
      have hget : s.getModuleInformation id = .ok m.information := by
        simp [getModuleInformation, hm, orElseThrow]
      have hrest := ih fun id' hid' => h id' (List.mem_cons_of_mem id hid')
      rw [List.mapM_cons, hget, hrest, byKeys_cons, filter_id_getModulesInformation hm]
      rfl

/-- The retrieval by projects goes through the projects. -/
theorem getProjectsModulesInformation_eq (s : PanelStore) (projectIds : List Nat) :
    s.getProjectsModulesInformation projectIds =
      byKeys s.getModulesInformation ModuleInformation.projectId projectIds := by
  unfold getProjectsModulesInformation byKeys
  congr 1
  funext projectId
  unfold getProjectModulesInformation getProjectModules getModulesInformation
  rw [List.filter_map]
  rfl

end PanelStore

/-! ## The result -/

namespace ModuleFilterCriteria

variable {criteria : ModuleFilterCriteria} {s : PanelStore}

/-- Each path is a retrieval, the tests that are left, and the sort. -/
theorem filter_eq
    (hids : ∀ id ∈ criteria.ids, (s.tryGetModule id).isSome = true) :
    criteria.filter s = .ok (criteria.sort (
      if criteria.ids = [] then
        if criteria.projectIds = [] then s.getModulesInformation.filter criteria.admitsState
        else (byKeys s.getModulesInformation ModuleInformation.projectId
          criteria.projectIds).filter criteria.admitsState
      else (byKeys s.getModulesInformation ModuleInformation.id criteria.ids).filter
        fun m => admits criteria.projectIds m.projectId && criteria.admitsState m)) := by
  unfold filter
  by_cases hnoIds : criteria.ids = []
  · by_cases hnoProjects : criteria.projectIds = []
    · -- The last three paths leave out tests that there is nothing to test for.
      have htests := criteria.filterByVersion_filterByStates s.getModulesInformation
      simp only [hnoIds, hnoProjects, List.isEmpty_nil, Bool.not_true, Bool.false_eq_true,
        ↓reduceIte, ← htests]
      unfold filterByVersion filterByStates filterBy
      by_cases hstates : criteria.states.isEmpty = true <;>
        by_cases hversions : criteria.versions.isEmpty = true <;>
        simp [hstates, hversions]
    · have hprojects := List.isEmpty_eq_false_iff.mpr hnoProjects
      simp only [hnoIds, hnoProjects, hprojects, List.isEmpty_nil, Bool.not_true,
        Bool.not_false, Bool.false_eq_true, ↓reduceIte, filterByVersion_filterByStates,
        PanelStore.getProjectsModulesInformation_eq]
  · have hlisted := List.isEmpty_eq_false_iff.mpr hnoIds
    simp only [hnoIds, hlisted, Bool.not_false, ↓reduceIte, filterByVersion_filterByStates,
      PanelStore.getListedModulesInformation_eq hids, filterByProjects_eq, List.filter_filter]
    refine congrArg (fun modules => Except.ok (criteria.sort modules)) ?_
    refine List.filter_congr fun m _ => ?_
    rw [Bool.and_comm]

end ModuleFilterCriteria

open ModuleFilterCriteria in
/-- The filter answers with the modules that satisfy every criterion, each once,
exactly when none of them is listed twice, by its id when ids are listed and by its
project otherwise. -/
theorem moduleFilter_conjunction_iff (criteria : ModuleFilterCriteria) (s : PanelStore)
    (hids : ∀ id ∈ criteria.ids, (s.tryGetModule id).isSome = true) :
    (∃ modules, criteria.filter s = .ok modules ∧
        modules.Perm (s.getModulesInformation.filter criteria.admitsModule)) ↔
      ∀ m ∈ s.getModulesInformation, criteria.admitsModule m = true →
        criteria.ListsOnce m := by
  have hnodup := s.nodup_getModulesInformation
  rw [filter_eq hids]
  simp only [Except.ok.injEq, exists_eq_left']
  rw [(criteria.sort_perm _).congr_left]
  unfold admitsModule ListsOnce
  by_cases hnoIds : criteria.ids = []
  · by_cases hnoProjects : criteria.projectIds = []
    · simp [hnoIds, hnoProjects]
    · simp only [hnoIds, hnoProjects, ↓reduceIte, admits_nil, Bool.true_and,
        admits_of_ne_nil hnoProjects]
      exact perm_filter_byKeys_iff hnodup _
  · simp only [hnoIds, ↓reduceIte, admits_of_ne_nil hnoIds, Bool.and_assoc]
    exact perm_filter_byKeys_iff hnodup _

/-! ## Repeated ids -/

private def filteredStore : PanelStore :=
  PanelStore.empty.putModule (createModule id SampleModule.installation 1 0)

/-- A module whose id is listed once comes once. -/
theorem moduleFilter_conjunction_iff_listed :
    ∃ modules, ({ ids := [1] } : ModuleFilterCriteria).filter filteredStore = .ok modules ∧
      modules.Perm (filteredStore.getModulesInformation.filter
        ({ ids := [1] } : ModuleFilterCriteria).admitsModule) :=
  (moduleFilter_conjunction_iff { ids := [1] } filteredStore (by decide)).mpr (by decide)

/-- A module whose id is listed twice comes twice. -/
theorem module_listed_twice :
    ({ ids := [1, 1] } : ModuleFilterCriteria).filter filteredStore =
        .ok [(createModule id SampleModule.installation 1 0).information,
          (createModule id SampleModule.installation 1 0).information] ∧
      ∀ modules, ({ ids := [1, 1] } : ModuleFilterCriteria).filter filteredStore =
          .ok modules →
        ¬ modules.Perm (filteredStore.getModulesInformation.filter
          ({ ids := [1, 1] } : ModuleFilterCriteria).admitsModule) := by
  have hresult : ({ ids := [1, 1] } : ModuleFilterCriteria).filter filteredStore =
      .ok [(createModule id SampleModule.installation 1 0).information,
        (createModule id SampleModule.installation 1 0).information] := rfl
  refine ⟨hresult, fun modules hmodules hperm => ?_⟩
  have hlength := hperm.length_eq
  rw [← Except.ok.inj (hresult.symm.trans hmodules)] at hlength
  exact absurd hlength (by decide)

end ArtPlatform
