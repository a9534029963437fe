import ArtPlatform.Foundation.Selection
import ArtPlatform.Foundation.StableOrder
import ArtPlatform.ManagementPanel.Store

/-!
# Filtering assemblies

The assemblies that a filter criteria asks for: those of the listed projects, project by
project, else all of them; then what is left of the criteria, the sort by start and the
limit.  A project that is listed twice brings its assemblies twice, and they count for
the limit twice.

Main results:

- Theorem `filter_eq`: each path is a retrieval, the tests, the sort and the limit.
- Theorem `assemblyFilter_conjunction_iff`: the result holds the first assemblies that
  satisfy the criteria, each once, exactly when an assembly that is listed again has its
  second place behind the limit.
-/

namespace ArtPlatform

open Selection StableOrder

structure AssemblyInformation where
  id : Nat
  projectId : Nat
  technology : String
  version : ProjectVersion
  state : AssemblyState
  startTimeStamp : Nat
  endTimeStamp : Option Nat
  resourceId : ResourceIdentifier
  logId : Nat
  artifacts : List AssembledArtifact
deriving DecidableEq, Repr

/-- What is shown of a stored assembly. -/
def Assembly.information (a : Assembly) : AssemblyInformation where
  id := a.id
  projectId := a.projectId
  technology := a.technology
  version := a.version
  state := a.state
  startTimeStamp := a.startTimeStamp
  endTimeStamp := a.endTimeStamp
  resourceId := a.resourceId
  logId := a.logId
  artifacts := a.artifacts

/-- A criterion that is absent is empty. -/
structure AssemblyFilterCriteria where
  projectIds : List Nat := []
  states : List String := []
  versions : List String := []
  sorted : Bool := false
  count : Option Int := none

/-- What a stream raises for a negative limit. -/
structure IllegalArgumentException where
  message : String
deriving DecidableEq, Repr

/-! ## Retrieval -/

namespace PanelStore

def getAssembliesInformation (s : PanelStore) : List AssemblyInformation :=
  s.assemblies.selectAll.map Assembly.information

def getProjectAssembliesInformation (s : PanelStore) (projectId : Nat) :
    List AssemblyInformation :=
  (s.assemblies.rows.filter fun a => a.projectId = projectId).map Assembly.information

/-- `getProjectAssembliesInformation(projectIds)`. -/
def getProjectsAssembliesInformation (s : PanelStore) (projectIds : List Nat) :
    List AssemblyInformation :=
  projectIds.flatMap s.getProjectAssembliesInformation

theorem nodup_getAssembliesInformation (s : PanelStore) :
    s.getAssembliesInformation.Nodup := by
  apply List.Nodup.of_map AssemblyInformation.id
  unfold getAssembliesInformation
  rw [List.map_map]
  exact s.assemblies.nodup

/-- The retrieval by projects goes through the projects. -/
theorem getProjectsAssembliesInformation_eq (s : PanelStore) (projectIds : List Nat) :
    s.getProjectsAssembliesInformation projectIds =
      byKeys s.getAssembliesInformation AssemblyInformation.projectId projectIds := by
  unfold getProjectsAssembliesInformation byKeys
  congr 1
  funext projectId
  unfold getProjectAssembliesInformation getAssembliesInformation
  rw [List.filter_map]
  rfl

end PanelStore

/-! ## The filter -/

namespace AssemblyFilterCriteria

variable (criteria : AssemblyFilterCriteria)

def filterByProjects (assemblies : List AssemblyInformation) : List AssemblyInformation :=
  filterBy criteria.projectIds (fun a => a.projectId) assemblies

def filterByStates (assemblies : List AssemblyInformation) : List AssemblyInformation :=
  filterBy criteria.states (fun a => a.state.code) assemblies

def filterByVersions (assemblies : List AssemblyInformation) : List AssemblyInformation :=
  filterBy criteria.versions (fun a => a.version.version) assemblies

def sort (assemblies : List AssemblyInformation) : List AssemblyInformation :=
  if criteria.sorted then
    LegacyMergeSort.legacyMergeSort (compareByDescending fun a => a.startTimeStamp) assemblies
  else assemblies

def limit (assemblies : List AssemblyInformation) :
    Except IllegalArgumentException (List AssemblyInformation) :=
  match criteria.count with
  | some count =>
      if count < 0 then .error ⟨toString count⟩ else .ok (assemblies.take count.toNat)
  | none => .ok assemblies

def filter (s : PanelStore) : Except IllegalArgumentException (List AssemblyInformation) :=
  let assemblies := s.getAssembliesInformation
  if !criteria.projectIds.isEmpty then
    criteria.limit (criteria.sort (criteria.filterByVersions (criteria.filterByStates
      (criteria.filterByProjects (s.getProjectsAssembliesInformation criteria.projectIds)))))
  else if !criteria.states.isEmpty then
    criteria.limit (criteria.sort (criteria.filterByVersions (criteria.filterByStates
      (criteria.filterByProjects assemblies))))
  else if !criteria.versions.isEmpty then
    criteria.limit (criteria.sort (criteria.filterByVersions (criteria.filterByStates
      (criteria.filterByProjects assemblies))))
  else criteria.limit (criteria.sort assemblies)

/-! ## The conjunction -/

/-- The assembly satisfies the criteria on states and versions. -/
def admitsState (a : AssemblyInformation) : Bool :=
  admits criteria.states a.state.code && admits criteria.versions a.version.version

/-- The assembly satisfies every criterion. -/
def admitsAssembly (a : AssemblyInformation) : Bool :=
  admits criteria.projectIds a.projectId && criteria.admitsState a

/-- What the assemblies are ordered by: their start when a sort is requested. -/
def sortKey (a : AssemblyInformation) : Nat :=
  if criteria.sorted then a.startTimeStamp else 0

/-- The assemblies that satisfy the criteria as they are listed: project by project when
projects are requested. -/
def listed (s : PanelStore) : List AssemblyInformation :=
  if criteria.projectIds = [] then s.getAssembliesInformation.filter criteria.admitsState
  else byKeys (s.getAssembliesInformation.filter criteria.admitsState)
    AssemblyInformation.projectId criteria.projectIds

/-- The answer that is asked for: the first of the assemblies that satisfy every
criterion, each once, the latest first when a sort is requested. -/
def Answers (s : PanelStore) (assemblies : List AssemblyInformation) : Prop :=
  ∃ whole : List AssemblyInformation,
    whole.Perm (s.getAssembliesInformation.filter criteria.admitsAssembly) ∧
    (criteria.sorted = true →
      whole.Pairwise fun a b => b.startTimeStamp ≤ a.startTimeStamp) ∧
    assemblies = firsts (criteria.count.map Int.toNat) whole

/-- The limit is no negative number. -/
def ValidCount : Prop :=
  ∀ count, criteria.count = some count → 0 ≤ count

variable {criteria : AssemblyFilterCriteria} {s : PanelStore}

/-- The tests on states and versions. -/
theorem filterByVersions_filterByStates (assemblies : List AssemblyInformation) :
    criteria.filterByVersions (criteria.filterByStates assemblies) =
      assemblies.filter criteria.admitsState := by
  unfold filterByVersions filterByStates
  rw [filterBy_eq, filterBy_eq, List.filter_filter]
  refine List.filter_congr fun a _ => ?_
  rw [admitsState, Bool.and_comm]

/-- The assemblies of listed projects pass the test on projects. -/
theorem filterByProjects_byKeys (assemblies : List AssemblyInformation) :
    criteria.filterByProjects
        (byKeys assemblies AssemblyInformation.projectId criteria.projectIds) =
      byKeys assemblies AssemblyInformation.projectId criteria.projectIds := by
  unfold filterByProjects
  rw [filterBy_eq]
  apply List.filter_eq_self.mpr
  intro a ha
  have hlisted := (mem_byKeys.mp ha).2
  simp [admits, hlisted]

/-- Each path is a retrieval, the tests, the sort and the limit. -/
theorem filter_eq (criteria : AssemblyFilterCriteria) (s : PanelStore) :
    criteria.filter s = criteria.limit (criteria.sort (criteria.listed s)) := by
  unfold filter listed
  simp only [filterByVersions_filterByStates, PanelStore.getProjectsAssembliesInformation_eq,
    filterByProjects_byKeys, filter_byKeys]
  by_cases hprojects : criteria.projectIds = []
  · have hall : criteria.filterByProjects s.getAssembliesInformation =
        s.getAssembliesInformation := by
      simp [filterByProjects, filterBy, hprojects]
    -- Without states and versions there is nothing to test.
    have htrue : criteria.states = [] → criteria.versions = [] →
        s.getAssembliesInformation.filter criteria.admitsState =
          s.getAssembliesInformation := by
      intro hstates hversions
      apply List.filter_eq_self.mpr
      intro a _
      simp [admitsState, hstates, hversions]
    simp only [hprojects, hall, List.isEmpty_nil, Bool.not_true, Bool.false_eq_true, ↓reduceIte,
      Bool.not_eq_true', List.isEmpty_eq_false_iff]
    split
    · rfl
    · rename_i hstates
      split
      · rfl
      · rename_i hversions
        rw [htrue (not_not.mp hstates) (not_not.mp hversions)]
  · simp [hprojects]

/-- The limit raises for a negative number, and keeps the first otherwise. -/
theorem limit_eq_ok_iff {assemblies shown : List AssemblyInformation} :
    criteria.limit assemblies = .ok shown ↔
      criteria.ValidCount ∧ firsts (criteria.count.map Int.toNat) assemblies = shown := by
  unfold limit ValidCount firsts
  cases criteria.count with
  | none => simp
  | some count =>
      by_cases hnegative : count < 0
      · simp [hnegative]
      · simp [hnegative, Int.not_lt.mp hnegative]

/-- The sort arranges what is listed. -/
theorem arranged_sort (criteria : AssemblyFilterCriteria)
    (assemblies : List AssemblyInformation) :
    Arranged criteria.sortKey assemblies (criteria.sort assemblies) := by
  unfold sort sortKey
  by_cases hsorted : criteria.sorted = true
  · simp only [hsorted, ↓reduceIte]
    exact arranged_legacyMergeSort _ _
  · simp only [hsorted]
    exact arranged_const _

/-- What is listed is what satisfies the criteria. -/
theorem mem_listed (a : AssemblyInformation) :
    a ∈ criteria.listed s ↔
      a ∈ s.getAssembliesInformation.filter criteria.admitsAssembly := by
  unfold listed admitsAssembly
  by_cases hprojects : criteria.projectIds = []
  · simp [hprojects]
  · simp only [hprojects, ↓reduceIte, mem_byKeys, List.mem_filter,
      admits_of_ne_nil hprojects, Bool.and_eq_true, List.contains_iff_mem]
    tauto

/-- The order that is asked for is the one by the key. -/
theorem answers_iff (assemblies : List AssemblyInformation) :
    criteria.Answers s assemblies ↔
      ∃ whole : List AssemblyInformation,
        whole.Perm (s.getAssembliesInformation.filter criteria.admitsAssembly) ∧
        (whole.Pairwise fun a b => criteria.sortKey b ≤ criteria.sortKey a) ∧
        assemblies = firsts (criteria.count.map Int.toNat) whole := by
  unfold Answers sortKey
  by_cases hsorted : criteria.sorted = true
  · simp [hsorted]
  · simp [hsorted, List.pairwise_of_forall]

/-- The filter answers with the first of the assemblies that satisfy every criterion, each
once, exactly when the count is not negative, and an assembly that is listed again has at
least as many assemblies before it, in the order that is shown, as are asked for. -/
theorem assemblyFilter_conjunction_iff (criteria : AssemblyFilterCriteria) (s : PanelStore) :
    (∃ assemblies, criteria.filter s = .ok assemblies ∧ criteria.Answers s assemblies) ↔
      criteria.ValidCount ∧
        ∀ front a back, criteria.listed s = front ++ a :: back → a ∈ front →
          ∃ count, criteria.count = some count ∧
            count ≤ place criteria.sortKey (criteria.listed s) front a := by
  have harranged := criteria.arranged_sort (criteria.listed s)
  have hrows : (s.getAssembliesInformation.filter criteria.admitsAssembly).Nodup :=
    s.nodup_getAssembliesInformation.filter _
  simp only [filter_eq, limit_eq_ok_iff, and_assoc, exists_and_left, exists_eq_left',
    answers_iff]
  apply and_congr_right
  intro hvalid
  rw [harranged.exists_whole_iff hrows (fun a => mem_listed a), harranged.nodup_firsts_iff]
  refine forall_congr' fun front => forall_congr' fun a => forall_congr' fun back =>
    forall_congr' fun _ => forall_congr' fun _ => ?_
  cases hcount : criteria.count with
  | none => simp
  | some count =>
      have hnonneg := hvalid count hcount
      simp only [Option.map_some, Option.some.injEq, exists_eq_left']
      omega

/-- One assembly of a project. -/
private def oneAssembly : PanelStore :=
  PanelStore.empty.putAssembly
    { id := 1
      projectId := 1
      technology := "gradle"
      version := ⟨"refs/heads/main", "main"⟩
      resourceId := ⟨1, "cluster", .openShift⟩
      logId := 1
      startTimeStamp := 5 }

/-- An assembly whose project is listed twice comes twice. -/
theorem assembly_listed_twice :
    ({ projectIds := [1, 1] } : AssemblyFilterCriteria).filter oneAssembly =
        .ok (oneAssembly.getAssembliesInformation ++ oneAssembly.getAssembliesInformation) ∧
      ∀ assemblies,
        ({ projectIds := [1, 1] } : AssemblyFilterCriteria).filter oneAssembly =
          .ok assemblies →
        ¬ ({ projectIds := [1, 1] } : AssemblyFilterCriteria).Answers oneAssembly
          assemblies := by
  have hresult : ({ projectIds := [1, 1] } : AssemblyFilterCriteria).filter oneAssembly =
      .ok (oneAssembly.getAssembliesInformation ++ oneAssembly.getAssembliesInformation) := rfl
  refine ⟨hresult, ?_⟩
  rintro assemblies hassemblies ⟨whole, hwhole, -, hfirst⟩
  rw [← Except.ok.inj (hresult.symm.trans hassemblies)] at hfirst
  have hlength := hwhole.length_eq
  rw [show whole = _ from hfirst.symm] at hlength
  exact absurd hlength (by decide)

end AssemblyFilterCriteria

end ArtPlatform
