import ArtPlatform.Foundation.LegacyMergeSort
import ArtPlatform.ManagementPanel.ModuleService
import Mathlib.Data.List.Pairwise

/-!
# The order of shown modules

The list of modules that the panel shows is sorted by a comparator that looks at two
states first and at the time stamps of the last updates when the states are equal.  The
states fall into groups, and the comparator orders two groups as they are shown.
Inside a group it decides by the time stamp only between modules of one state; between
two states of one group, and between equal time stamps, it puts either module first.

Main results:

- Theorem `compareModules_pos_iff`: when the comparator puts the next module first.
- Theorem `inGroups_sortModules`: a list whose groups are not mixed is sorted.
- Theorem `moduleSort_proper_iff`: the comparator is a total preorder on a list, and
  the list is sorted, exactly when no two modules tie.
-/

namespace ArtPlatform

open LegacyMergeSort

structure ModuleInformation where
  id : Nat
  name : String
  projectId : Nat
  externalId : ExternalIdentifier
  internalIp : Option String
  resourceId : ResourceIdentifier
  artifact : AssembledArtifact
  url : Option ModuleUrl
  parameters : Option String
  count : Nat
  state : ModuleState
  updateTimeStamp : Nat
  ports : List Nat
  portMappings : List PortMapping
  preparedConfigurations : List PreparedConfigurationIdentifier
  manualConfigurations : List StringFile
  additionalFiles : List PlatformFileIdentifier
deriving DecidableEq, Repr

/-- What is shown of a stored module. -/
def Module.information (m : Module) : ModuleInformation where
  id := m.id
  name := m.name
  projectId := m.projectId
  externalId := m.externalId
  internalIp := m.internalIp
  resourceId := m.resourceId
  artifact := m.artifact
  url := m.url
  parameters := m.parameters
  count := m.count
  state := m.state
  updateTimeStamp := m.updateTimeStamp
  ports := m.ports
  portMappings := m.portMappings
  preparedConfigurations := m.preparedConfigurations
  manualConfigurations := m.manualConfigurations
  additionalFiles := m.additionalFiles

@[simp]
theorem Module.information_id (m : Module) : m.information.id = m.id :=
  rfl

/-! ## The comparator -/

/-- The comparison of two different states. -/
def compareStates (current next : ModuleState) : Int :=
  match next with
  | .invalid => -1
  | .notInstalled =>
      match current with
      | .invalid => 1
      | _ => -1
  | .stopped =>
      match current with
      | .invalid | .notInstalled => 1
      | _ => -1
  | .run =>
      match current with
      | .invalid | .notInstalled | .stopped => 1
      | _ => -1
  | .updateStarted | .updating | .stopStarted | .stopping | .restartStarted | .restarting
  | .uninstallStarted | .uninstalling =>
      match current with
      | .invalid | .notInstalled | .run | .stopped => 1
      | _ => -1
  | .installationStarted | .installing =>
      match current with
      | .invalid | .notInstalled | .stopped | .updateStarted | .updating | .stopStarted
      | .stopping | .restartStarted | .restarting | .uninstallStarted | .uninstalling
      | .run => 1
      | _ => -1

def compareModules (current next : ModuleInformation) : Int :=
  if current.state = next.state then
    if next.updateTimeStamp > current.updateTimeStamp then 1 else -1
  else compareStates current.state next.state

/-- `stream.sorted` with the comparator. -/
def sortModules (modules : List ModuleInformation) : List ModuleInformation :=
  legacyMergeSort compareModules modules

/-! ## Groups of states -/

/-- The place of a state's group among the shown modules. -/
def ModuleState.group : ModuleState → Nat
  | .installationStarted | .installing => 0
  | .updateStarted | .updating | .stopStarted | .stopping | .restartStarted | .restarting
  | .uninstallStarted | .uninstalling => 1
  | .run => 2
  | .stopped => 3
  | .notInstalled => 4
  | .invalid => 5

/-- Of two states the comparator looks at the groups. -/
theorem compareStates_eq (current next : ModuleState) :
    compareStates current next = if next.group < current.group then 1 else -1 := by
  cases current <;> cases next <;> rfl

/-- The module comes later in the list: its group does, or it has the state of the
other one and an older time stamp. -/
def ModuleInformation.Follows (current next : ModuleInformation) : Prop :=
  next.state.group < current.state.group ∨
    current.state = next.state ∧ current.updateTimeStamp < next.updateTimeStamp

instance (current next : ModuleInformation) : Decidable (current.Follows next) :=
  inferInstanceAs (Decidable (_ ∨ _))

variable {a b c : ModuleInformation} {modules : List ModuleInformation}

theorem compareModules_eq (a b : ModuleInformation) :
    compareModules a b = if a.Follows b then 1 else -1 := by
  unfold compareModules ModuleInformation.Follows
  by_cases hstate : a.state = b.state
  · simp [hstate]
  · simp [hstate, compareStates_eq]

/-- When the comparator puts the next module first. -/
theorem compareModules_pos_iff (a b : ModuleInformation) :
    0 < compareModules a b ↔ a.Follows b := by
  rw [compareModules_eq]
  split <;> simp_all

/-- The comparator never answers that two modules tie. -/
theorem compareModules_ne_zero (a b : ModuleInformation) : compareModules a b ≠ 0 := by
  rw [compareModules_eq]
  split <;> decide

theorem ModuleInformation.Follows.trans (hab : a.Follows b) (hbc : b.Follows c) :
    a.Follows c := by
  unfold ModuleInformation.Follows at *
  rcases hab with hab | ⟨hab, htime⟩
  · rcases hbc with hbc | ⟨hbc, -⟩
    · exact .inl (hbc.trans hab)
    · exact .inl (hbc ▸ hab)
  · rcases hbc with hbc | ⟨hbc, htime'⟩
    · exact .inl (hab ▸ hbc)
    · exact .inr ⟨hab.trans hbc, htime.trans htime'⟩

/-! ## A proper sort -/

/-- What the JDK asks of a comparator, on the elements of a list: two elements compare
with opposite signs, greater is transitive, and elements that tie compare alike. -/
structure ComparesProperly (modules : List ModuleInformation) : Prop where
  opposite : modules.Pairwise fun a b =>
    (compareModules a b).sign = -(compareModules b a).sign
  trans : ∀ a ∈ modules, ∀ b ∈ modules, ∀ c ∈ modules,
    0 < compareModules a b → 0 < compareModules b c → 0 < compareModules a c
  ties : ∀ a ∈ modules, ∀ b ∈ modules, ∀ c ∈ modules,
    compareModules a b = 0 → (compareModules a c).sign = (compareModules b c).sign

/-- Ordered by groups, and within a group by the time stamps, the latest first. -/
def InGroups (modules : List ModuleInformation) : Prop :=
  modules.Pairwise fun a b => a.state.group < b.state.group ∨
    a.state.group = b.state.group ∧ b.updateTimeStamp ≤ a.updateTimeStamp

/-- Two modules of one group have one state, and were updated at different times. -/
def ModuleInformation.Apart (a b : ModuleInformation) : Prop :=
  a.state.group = b.state.group →
    a.state = b.state ∧ a.updateTimeStamp ≠ b.updateTimeStamp

/-- Two modules compare with opposite signs exactly when they are apart. -/
theorem opposite_iff (a b : ModuleInformation) :
    (compareModules a b).sign = -(compareModules b a).sign ↔ a.Apart b := by
  rw [compareModules_eq, compareModules_eq]
  unfold ModuleInformation.Apart ModuleInformation.Follows
  by_cases hstate : a.state = b.state
  · simp only [hstate, true_and, lt_self_iff_false, false_or, forall_const]
    rcases Nat.lt_trichotomy a.updateTimeStamp b.updateTimeStamp with h | h | h
    · simp [h, h.not_gt, h.ne]
    · simp [h]
    · simp [h, h.not_gt, h.ne']
  · have hstate' : ¬ b.state = a.state := fun h => hstate h.symm
    simp only [hstate, hstate', false_and, or_false, imp_false]
    rcases Nat.lt_trichotomy a.state.group b.state.group with h | h | h
    · simp [h, h.not_gt, h.ne]
    · simp [h]
    · simp [h, h.not_gt, h.ne']

theorem comparesProperly_iff (modules : List ModuleInformation) :
    ComparesProperly modules ↔ modules.Pairwise ModuleInformation.Apart := by
  constructor
  · intro h
    exact h.opposite.imp fun hab => (opposite_iff _ _).mp hab
  · intro h
    refine ⟨h.imp fun hab => (opposite_iff _ _).mpr hab, ?_, ?_⟩
    · intro a _ b _ c _ hab hbc
      rw [compareModules_pos_iff] at *
      exact hab.trans hbc
    · intro a _ b _ c _ hab
      exact absurd hab (compareModules_ne_zero a b)

/-- The order by groups and time stamps as a comparator. -/
def compareGroups (a b : ModuleInformation) : Int :=
  if a.state.group < b.state.group ∨
      a.state.group = b.state.group ∧ b.updateTimeStamp ≤ a.updateTimeStamp then 0 else 1

theorem compareGroups_le_zero_iff (a b : ModuleInformation) :
    compareGroups a b ≤ 0 ↔ a.state.group < b.state.group ∨
      a.state.group = b.state.group ∧ b.updateTimeStamp ≤ a.updateTimeStamp := by
  unfold compareGroups
  split <;> simp_all

theorem preorders_compareGroups : Preorders compareGroups where
  trans a b c hab hbc := by
    rw [compareGroups_le_zero_iff] at *
    omega
  total a b := by
    rw [compareGroups_le_zero_iff, compareGroups_le_zero_iff]
    omega

/-- Without mixed groups the comparator follows the groups and the time stamps. -/
theorem compareModules_le_zero_iff (h : a.state.group = b.state.group → a.state = b.state) :
    compareModules a b ≤ 0 ↔ compareGroups a b ≤ 0 := by
  have hfollows := compareModules_pos_iff a b
  rw [compareGroups_le_zero_iff, ← not_lt, hfollows]
  unfold ModuleInformation.Follows
  by_cases hgroup : a.state.group = b.state.group
  · simp [h hgroup]
  · have hstate : ¬ a.state = b.state := fun heq => hgroup (congrArg ModuleState.group heq)
    simp only [hstate, hgroup, false_and, or_false]
    omega

/-- A list in which no group is mixed is sorted. -/
theorem inGroups_sortModules
    (h : ∀ a ∈ modules, ∀ b ∈ modules, a.state.group = b.state.group → a.state = b.state) :
    InGroups (sortModules modules) := by
  have hsame : sortModules modules = legacyMergeSort compareGroups modules :=
    legacyMergeSort_congr fun a ha b hb => compareModules_le_zero_iff (h a ha b hb)
  rw [hsame]
  exact (inOrder_legacyMergeSort preorders_compareGroups modules).imp
    fun hab => (compareGroups_le_zero_iff _ _).mp hab

/-- The comparator is a total preorder on a list, and the sorted list is the list in
groups, exactly when any two of its modules that fall in one group have one state and
different time stamps. -/
theorem moduleSort_proper_iff (modules : List ModuleInformation) :
    (ComparesProperly modules ∧ (sortModules modules).Perm modules ∧
        InGroups (sortModules modules)) ↔
      modules.Pairwise ModuleInformation.Apart := by
  rw [comparesProperly_iff]
  constructor
  · exact fun h => h.1
  · intro hapart
    refine ⟨hapart, legacyMergeSort_perm _ _, inGroups_sortModules ?_⟩
    have hsymm : Std.Symm fun a b : ModuleInformation =>
        a.state.group = b.state.group → a.state = b.state :=
      ⟨fun a b hab hgroup => (hab hgroup.symm).symm⟩
    have hunmixed : modules.Pairwise fun a b =>
        a.state.group = b.state.group → a.state = b.state :=
      hapart.imp fun hab hgroup => (hab hgroup).1
    intro a ha b hb
    exact List.Pairwise.forall_of_forall (fun a _ _ => rfl) hunmixed ha hb

private def shownModule (state : ModuleState) (updateTimeStamp : Nat) : ModuleInformation :=
  { (createModule id SampleModule.installation 1 0).information with
    state := state
    updateTimeStamp := updateTimeStamp }

/-- Of a module that is stopping and one that has been updating since, either comes
first, so the older one stays first. -/
theorem changing_modules_mixed :
    compareModules (shownModule .stopping 1) (shownModule .updating 2) = -1 ∧
      compareModules (shownModule .updating 2) (shownModule .stopping 1) = -1 ∧
      ¬ ComparesProperly [shownModule .stopping 1, shownModule .updating 2] ∧
      ¬ InGroups (sortModules [shownModule .stopping 1, shownModule .updating 2]) := by
  have hsorted : sortModules [shownModule .stopping 1, shownModule .updating 2] =
      [shownModule .stopping 1, shownModule .updating 2] := by
    unfold sortModules
    rw [legacyMergeSort_of_short _ (by decide)]
    rfl
  refine ⟨rfl, rfl, fun h => ?_, fun h => ?_⟩
  · have hopposite := (List.pairwise_cons.mp h.opposite).1 (shownModule .updating 2) (by simp)
    exact absurd hopposite (by decide)
  · rw [hsorted] at h
    have hordered := (List.pairwise_cons.mp h).1 (shownModule .updating 2) (by simp)
    exact absurd hordered (by decide)

end ArtPlatform
