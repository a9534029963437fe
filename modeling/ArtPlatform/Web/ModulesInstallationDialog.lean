import ArtPlatform.Foundation.LinkedMap
import ArtPlatform.Web.ManagedGrid
import ArtPlatform.Web.ModuleConfigurationValidator
import ArtPlatform.Web.SearcherHost

/-!
# The installation dialog

The dialog keeps a configurator and a panel for every artifact that is selected.  The button
is enabled by what validates the configurators: all of them behind a selection, and behind an
edit the edited one.

Main results:

- Theorem `installs_selected_iff`: the dialog has exactly the configurators of the selected
  artifacts, and its button is enabled only if all of them are valid, exactly if every event
  meets a condition on the state before it.
- Theorem `invalid_configuration_enabled`: a valid edit beside an invalid configuration.
-/

namespace ArtPlatform.Web

open EventRun CallStack

/-- What a new configurator configures for an artifact, given the modules of the selected
project and the id of the project. -/
structure DraftFactory (N : Type) where
  draft : ModuleValidation.AssembledArtifact → List ModuleValidation.ModuleInformation → Nat →
    ModuleValidation.ModuleConfigurationDraft N
  artifact_draft : ∀ artifact modules projectId,
    (draft artifact modules projectId).artifact = artifact

/-- `#configurators` and `#modules`. -/
structure ModulePanels (N : Type) where
  configurators : LinkedMap Text (ModuleValidation.ModuleConfigurationDraft N) := .empty
  grid : ManagedGrid Text := {}

/-- The dialog with the requests that have not been answered; of a project its id. -/
structure ModulesInstallationDialog (N : Type) where
  project : Option Nat
  selectedProject : Nat
  artifacts : List ModuleValidation.AssembledArtifact
  modules : List ModuleValidation.ModuleInformation := []
  searcher : ManagedSearcher ModuleValidation.AssembledArtifact
  panels : ModulePanels N := {}
  disabled : Bool := true
  loadingModules : Bool := true
  loadingArtifacts : Nat

inductive DialogEvent (N : Type)
  | selectIndexes (indexes : List Nat)
  | selectAll
  | edit (name : Text) (configuration : ModuleValidation.ModuleConfigurationDraft N)
  | projectSelected (projectId : Nat)
  | modulesLoaded (modules : List ModuleValidation.ModuleInformation)
  | artifactsLoaded (artifacts : List ModuleValidation.AssembledArtifact)

inductive DialogCall
  | searcher (call : SearcherCall ModuleValidation.AssembledArtifact)
  | selectArtifacts (artifacts : List ModuleValidation.AssembledArtifact)

/-- `assembledArtifactsSearcher`; the comparator is `equal`. -/
def assembledArtifactsSearcher : SearcherProperties ModuleValidation.AssembledArtifact where
  comparator := fun current other => current = other
  itemValue := id
  isDefined := fun _ => true

namespace ModulesInstallationDialog

variable {N : Type}

/-- A panel is the widget of a grid item that has the name of the artifact as its key. -/
def panel (name : Text) : Widget Text where
  id := 0
  key := name

/-- A configurator and a panel for an artifact, if there are none of its name. -/
def addConfigurator (draft : ModuleValidation.AssembledArtifact →
    ModuleValidation.ModuleConfigurationDraft N) (panels : ModulePanels N)
    (artifact : ModuleValidation.AssembledArtifact) : ModulePanels N :=
  if artifact.name ∈ panels.grid.keys then panels
  else
    { configurators := panels.configurators.put artifact.name (draft artifact)
      grid := panels.grid.pushWidget (panel artifact.name) none }

/-- A panel whose artifact is not selected goes with its configurator. -/
def dropConfigurator (artifacts : List ModuleValidation.AssembledArtifact)
    (panels : ModulePanels N) (widget : Widget Text) : ModulePanels N :=
  if artifacts.any fun artifact => artifact.name = widget.key then panels
  else
    { configurators := panels.configurators.remove widget.key
      grid := panels.grid.removeWidget widget }

def selectPanels (draft : ModuleValidation.AssembledArtifact →
    ModuleValidation.ModuleConfigurationDraft N) (panels : ModulePanels N)
    (artifacts : List ModuleValidation.AssembledArtifact) : ModulePanels N :=
  let pushed := artifacts.foldl (addConfigurator draft) panels
  pushed.grid.widgets.foldl (dropConfigurator artifacts) pushed

variable [DecidableEq N] [Zero N] (f : DraftFactory N) (s : ModulesInstallationDialog N)

/-- `#project().id` -/
def projectId : Nat :=
  s.project.getD s.selectedProject

def validate (configuration : ModuleValidation.ModuleConfigurationDraft N) : Bool :=
  ModuleValidation.validateModuleConfiguration configuration s.projectId s.modules

def validateConfigurations : ModulesInstallationDialog N :=
  if s.panels.configurators.entries.isEmpty then { s with disabled := true }
  else { s with disabled := s.panels.configurators.values.any fun draft => !s.validate draft }

/-- The modules for a new configurator are those of the project selected in the selector. -/
def newDraft (artifact : ModuleValidation.AssembledArtifact) :
    ModuleValidation.ModuleConfigurationDraft N :=
  f.draft artifact (s.modules.filter fun module => module.projectId = s.selectedProject)
    s.projectId

def selectArtifacts (artifacts : List ModuleValidation.AssembledArtifact) :
    ModulesInstallationDialog N :=
  { s with panels := selectPanels (s.newDraft f) s.panels artifacts }.validateConfigurations

def setSearcher (searcher : ManagedSearcher ModuleValidation.AssembledArtifact) :
    ModulesInstallationDialog N :=
  { s with searcher := searcher }

/-- The consumers of `selected` are that of the searcher and `#selectArtifacts`. -/
def call (s : ModulesInstallationDialog N) :
    DialogCall → Option (ModulesInstallationDialog N × List DialogCall)
  | .searcher searcherCall =>
      (ManagedSearcher.call assembledArtifactsSearcher s.searcher searcherCall).map fun result =>
        (s.setSearcher result.1,
          hostCalls .searcher .selectArtifacts searcherCall result.2)
  | .selectArtifacts artifacts => some (s.selectArtifacts f artifacts, [])

/-- What the dialog lets happen, and the answers that are under way. -/
def Possible (s : ModulesInstallationDialog N) : DialogEvent N → Prop
  | .selectIndexes indexes => ∀ index ∈ indexes, index < s.searcher.items.length
  | .selectAll => True
  | .edit name configuration =>
      (s.panels.configurators.get name).any fun draft => configuration.artifact = draft.artifact
  | .projectSelected _ => s.project = none
  | .modulesLoaded _ => s.loadingModules = true
  | .artifactsLoaded _ => 0 < s.loadingArtifacts

instance (s : ModulesInstallationDialog N) :
    (event : DialogEvent N) → Decidable (s.Possible event)
  | .selectIndexes indexes =>
      inferInstanceAs (Decidable (∀ index ∈ indexes, index < s.searcher.items.length))
  | .selectAll => .isTrue trivial
  | .edit _ _ => inferInstanceAs (Decidable (_ = true))
  | .projectSelected _ => inferInstanceAs (Decidable (s.project = none))
  | .modulesLoaded _ => inferInstanceAs (Decidable (s.loadingModules = true))
  | .artifactsLoaded _ => inferInstanceAs (Decidable (0 < s.loadingArtifacts))

/-- `#configurators.clear`, then `#modules.clear`. -/
def clearPanels : ModulesInstallationDialog N :=
  { s with panels := {} }

/-- The answer with the artifacts of a project, which the searcher is given. -/
def reloadArtifacts (artifacts : List ModuleValidation.AssembledArtifact) :
    Option (ModulesInstallationDialog N) :=
  let unique := LinkedMap.uniqueBy ModuleValidation.AssembledArtifact.name artifacts
  let loaded := { s with artifacts := unique, loadingArtifacts := s.loadingArtifacts - 1 }
  (exec (call f) 32 loaded [.searcher (.setAvailableValues unique)]).map clearPanels

def step (s : ModulesInstallationDialog N) (event : DialogEvent N) :
    Option (ModulesInstallationDialog N) :=
  if s.Possible event then
    match event with
    | .selectIndexes indexes => exec (call f) 32 s [.searcher (.setSelectedIndexes indexes)]
    | .selectAll => exec (call f) 32 s [.searcher (.setSelected s.artifacts)]
    | .edit name configuration =>
        some { s with
          panels := { s.panels with
            configurators := s.panels.configurators.modify name fun _ => configuration }
          disabled := !s.validate configuration }
    | .projectSelected projectId =>
        if projectId = s.selectedProject then some s
        else some { s with
          selectedProject := projectId
          loadingArtifacts := s.loadingArtifacts + 1 }
    | .modulesLoaded modules => some { s with modules := modules, loadingModules := false }
    | .artifactsLoaded artifacts => s.reloadArtifacts f artifacts
  else none

/-- The dialog when it is loaded, with the first of the projects. -/
def opened (project : Option Nat) (firstProject : Nat)
    (artifacts : Option (List ModuleValidation.AssembledArtifact)) :
    ModulesInstallationDialog N where
  project := project
  selectedProject := firstProject
  artifacts := artifacts.getD []
  searcher := .configuration assembledArtifactsSearcher (artifacts.getD []) none
  loadingArtifacts := if artifacts.isNone then 1 else 0

/-! ## What is installed -/

/-- The configurators and the panels are those of the selected artifacts, and the button is
enabled only if there are some and all of them are valid. -/
structure InstallsSelected (s : ModulesInstallationDialog N) : Prop where
  configurators : (s.panels.configurators.values.map
    ModuleValidation.ModuleConfigurationDraft.artifact).Perm s.searcher.values
  keys : ∀ entry ∈ s.panels.configurators.entries, entry.1 = entry.2.artifact.name
  panels : (s.panels.grid.widgets.map Widget.key).Perm
    (s.searcher.values.map ModuleValidation.AssembledArtifact.name)
  enabled : s.disabled = false → s.panels.configurators.values ≠ [] ∧
    ∀ draft ∈ s.panels.configurators.values, s.validate draft = true

/-- No module of the project has the name of a configured one. -/
def NamesFree (projectId : Nat) (modules : List ModuleValidation.ModuleInformation) : Prop :=
  ∀ draft ∈ s.panels.configurators.values, ∀ module ∈ modules, module.projectId = projectId →
    module.name ≠ ModuleValidation.createModuleName draft

/-- The condition on an event and the state before it. -/
def Careful (s : ModulesInstallationDialog N) : DialogEvent N → Prop
  | .selectIndexes _ | .selectAll => True
  | .edit name configuration => s.validate configuration = false ∨
      ∀ entry ∈ s.panels.configurators.entries, entry.1 ≠ name → s.validate entry.2 = true
  | .projectSelected projectId => s.disabled = true ∨ s.NamesFree projectId s.modules
  | .modulesLoaded modules => s.disabled = true ∨ s.NamesFree s.projectId modules
  | .artifactsLoaded artifacts => ∀ artifact ∈ s.searcher.values,
      artifact ∉ LinkedMap.uniqueBy ModuleValidation.AssembledArtifact.name artifacts

end ModulesInstallationDialog

/-! ## Panels and configurators -/

namespace ManagedGrid

variable {K : Type} [DecidableEq K] {s : ManagedGrid K}

theorem keys_removeKey (h : s.keys.Nodup) (key : K) :
    (s.removeKey key).keys = s.keys.filter fun current => current ≠ key := by
  have hfind : s.keys.idxOf? key = s.keys.findIdx? fun current => decide (current = key) := rfl
  have herase : (s.removeKey key).keys = s.keys.erase key := by
    rw [List.erase_eq_eraseIdx, hfind, removeKey]
    cases s.keys.findIdx? fun current => decide (current = key) <;> rfl
  rw [herase, h.erase_eq_filter]
  refine List.filter_congr fun current _ => ?_
  by_cases hsame : current = key <;> simp [hsame]

/-- Where the keys are those of the widgets, they still are when one is removed. -/
theorem widgets_removeKey (h : s.widgets.map Widget.key = s.keys) (key : K) :
    (s.removeKey key).widgets.map Widget.key = (s.removeKey key).keys := by
  rw [removeKey]
  split
  next => exact h
  next index _ =>
    change ((s.items.eraseIdx index).map GridItem.widget).map Widget.key = s.keys.eraseIdx index
    rw [← List.eraseIdx_map, ← List.eraseIdx_map, ← h]
    rfl

omit [DecidableEq K] in
theorem widgets_pushWidget (s : ManagedGrid K) (widget : Widget K) :
    (s.pushWidget widget none).widgets = s.widgets ++ [widget] := by
  simp [pushWidget, widgets, decorated, gridItem]

end ManagedGrid

namespace ModulesInstallationDialog

variable {N : Type} {panels : ModulePanels N}
  {draft : ModuleValidation.AssembledArtifact → ModuleValidation.ModuleConfigurationDraft N}
  {artifacts : List ModuleValidation.AssembledArtifact}

/-- Every panel has its configurator, which is for an artifact of that name. -/
structure Paired (panels : ModulePanels N) : Prop where
  keys : panels.grid.keys = panels.configurators.entries.map Prod.fst
  widgets : panels.grid.widgets.map Widget.key = panels.grid.keys
  names : ∀ entry ∈ panels.configurators.entries, entry.1 = entry.2.artifact.name

theorem paired_empty : Paired ({} : ModulePanels N) :=
  ⟨rfl, rfl, by simp [LinkedMap.empty]⟩

theorem paired_addConfigurator (h : Paired panels)
    (hdraft : ∀ artifact, (draft artifact).artifact = artifact)
    (artifact : ModuleValidation.AssembledArtifact) :
    Paired (addConfigurator draft panels artifact) := by
  rw [addConfigurator]
  split
  next => exact h
  next hnew =>
    have hentries := @LinkedMap.entries_put_of_fresh _ _ _ panels.configurators artifact.name
      (draft artifact) (h.keys ▸ hnew)
    refine ⟨?_, ?_, fun entry hentry => ?_⟩
    · rw [hentries, List.map_append, ← h.keys]
      rfl
    · rw [ManagedGrid.widgets_pushWidget, List.map_append, h.widgets]
      rfl
    · rw [hentries, List.mem_append, List.mem_singleton] at hentry
      rcases hentry with hold | rfl
      · exact h.names entry hold
      · exact congrArg ModuleValidation.AssembledArtifact.name (hdraft artifact).symm

/-- The entries behind an addition: those before, and one of the artifact. -/
theorem mem_addConfigurator (h : Paired panels) (artifact : ModuleValidation.AssembledArtifact)
    {entry : Text × ModuleValidation.ModuleConfigurationDraft N} :
    entry ∈ (addConfigurator draft panels artifact).configurators.entries ↔
      entry ∈ panels.configurators.entries ∨
        (artifact.name ∉ panels.grid.keys ∧ entry = (artifact.name, draft artifact)) := by
  rw [addConfigurator]
  split
  next hold => simp [hold]
  next hnew =>
    rw [LinkedMap.entries_put_of_fresh (h.keys ▸ hnew), List.mem_append, List.mem_singleton,
      and_iff_right hnew]

variable (artifacts) in
theorem foldl_addConfigurator (h : Paired panels)
    (hdraft : ∀ artifact, (draft artifact).artifact = artifact) :
    Paired (artifacts.foldl (addConfigurator draft) panels) ∧
      (∀ entry ∈ (artifacts.foldl (addConfigurator draft) panels).configurators.entries,
        entry ∈ panels.configurators.entries ∨ entry.2.artifact ∈ artifacts) ∧
      (∀ entry ∈ panels.configurators.entries,
        entry ∈ (artifacts.foldl (addConfigurator draft) panels).configurators.entries) ∧
      ∀ artifact ∈ artifacts, artifact.name ∈
        (artifacts.foldl (addConfigurator draft) panels).grid.keys := by
  induction artifacts generalizing panels with
  | nil =>
      exact ⟨h, fun entry hentry => .inl hentry, fun entry hentry => hentry,
        fun artifact hartifact => absurd hartifact List.not_mem_nil⟩
  | cons artifact artifacts ih =>
      obtain ⟨hpaired, hmem, hold, hall⟩ := ih (paired_addConfigurator h hdraft artifact)
      have hfirst : ∃ entry ∈ (addConfigurator draft panels artifact).configurators.entries,
          entry.1 = artifact.name := by
        by_cases hknown : artifact.name ∈ panels.grid.keys
        · rw [h.keys] at hknown
          obtain ⟨entry, hentry, hname⟩ := List.mem_map.mp hknown
          exact ⟨entry, (mem_addConfigurator h artifact).mpr (.inl hentry), hname⟩
        · exact ⟨_, (mem_addConfigurator h artifact).mpr (.inr ⟨hknown, rfl⟩), rfl⟩
      refine ⟨hpaired, fun entry hentry => ?_, fun entry hentry => ?_, fun other hother => ?_⟩
      · rcases hmem entry hentry with hbefore | hlater
        · refine ((mem_addConfigurator h artifact).mp hbefore).imp_right ?_
          rintro ⟨-, rfl⟩
          exact List.mem_cons.mpr (.inl (hdraft artifact))
        · exact .inr (List.mem_cons_of_mem artifact hlater)
      · exact hold entry ((mem_addConfigurator h artifact).mpr (.inl hentry))
      · rcases List.mem_cons.mp hother with rfl | hother
        · obtain ⟨entry, hentry, hname⟩ := hfirst
          rw [List.foldl_cons, hpaired.keys, ← hname]
          exact List.mem_map_of_mem (hold entry hentry)
        · exact hall other hother

variable (artifacts) in
theorem paired_dropConfigurator (h : Paired panels) (widget : Widget Text) :
    Paired (dropConfigurator artifacts panels widget) := by
  rw [dropConfigurator]
  split
  · exact h
  · refine ⟨?_, ManagedGrid.widgets_removeKey h.widgets widget.key, fun entry hentry => ?_⟩
    · change (panels.grid.removeKey widget.key).keys = _
      have hnodup : panels.grid.keys.Nodup := h.keys ▸ panels.configurators.nodup
      rw [ManagedGrid.keys_removeKey hnodup, h.keys, List.filter_map]
      rfl
    · exact h.names entry (LinkedMap.mem_entries_remove.mp hentry).1

theorem mem_dropConfigurator (widget : Widget Text)
    {entry : Text × ModuleValidation.ModuleConfigurationDraft N} :
    entry ∈ (dropConfigurator artifacts panels widget).configurators.entries ↔
      entry ∈ panels.configurators.entries ∧
        (entry.1 = widget.key → ∃ artifact ∈ artifacts, artifact.name = widget.key) := by
  rw [dropConfigurator]
  split
  next hselected =>
    rw [List.any_eq_true] at hselected
    simp only [decide_eq_true_eq] at hselected
    exact ⟨fun hentry => ⟨hentry, fun _ => hselected⟩, fun h => h.1⟩
  next hselected =>
    rw [List.any_eq_true] at hselected
    simp only [decide_eq_true_eq] at hselected
    rw [LinkedMap.mem_entries_remove]
    exact and_congr_right fun _ => ⟨fun hne heq => absurd heq hne, fun h heq => hselected (h heq)⟩

variable (artifacts) in
theorem foldl_dropConfigurator (h : Paired panels) (widgets : List (Widget Text)) :
    Paired (widgets.foldl (dropConfigurator artifacts) panels) ∧ ∀ entry,
      entry ∈ (widgets.foldl (dropConfigurator artifacts) panels).configurators.entries ↔
        entry ∈ panels.configurators.entries ∧ (entry.1 ∈ widgets.map Widget.key →
          ∃ artifact ∈ artifacts, artifact.name = entry.1) := by
  induction widgets generalizing panels with
  | nil => exact ⟨h, fun entry => by simp⟩
  | cons widget widgets ih =>
      obtain ⟨hpaired, hmem⟩ := ih (paired_dropConfigurator artifacts h widget)
      refine ⟨hpaired, fun entry => ?_⟩
      rw [List.foldl_cons, hmem, mem_dropConfigurator, List.map_cons, List.mem_cons]
      grind

variable (artifacts) in
/-- Behind a selection the configurators are those before and the new ones, of the names of
the selected artifacts. -/
theorem selectPanels_spec (h : Paired panels)
    (hdraft : ∀ artifact, (draft artifact).artifact = artifact) :
    Paired (selectPanels draft panels artifacts) ∧
      (∀ entry ∈ (selectPanels draft panels artifacts).configurators.entries,
        (entry ∈ panels.configurators.entries ∨ entry.2.artifact ∈ artifacts) ∧
          ∃ artifact ∈ artifacts, artifact.name = entry.1) ∧
      ∀ artifact ∈ artifacts, ∃ entry ∈
        (selectPanels draft panels artifacts).configurators.entries, entry.1 = artifact.name := by
  obtain ⟨hpushed, hmem, -, hall⟩ := foldl_addConfigurator artifacts h hdraft
  obtain ⟨hpaired, hkept⟩ := foldl_dropConfigurator artifacts hpushed
    (artifacts.foldl (addConfigurator draft) panels).grid.widgets
  rw [hpushed.widgets, hpushed.keys] at hkept
  refine ⟨hpaired, fun entry hentry => ?_, fun artifact hartifact => ?_⟩
  · obtain ⟨hbefore, hselected⟩ := (hkept entry).mp hentry
    exact ⟨hmem entry hbefore, hselected (List.mem_map_of_mem hbefore)⟩
  · have hkey := hall artifact hartifact
    rw [hpushed.keys] at hkey
    obtain ⟨entry, hentry, hname⟩ := List.mem_map.mp hkey
    exact ⟨entry, (hkept entry).mpr ⟨hentry, fun _ => ⟨artifact, hartifact, hname.symm⟩⟩, hname⟩

variable [DecidableEq N] [Zero N] {f : DraftFactory N} {s t : ModulesInstallationDialog N}

/-! ## The button -/

/-- The button is enabled only if there are configurators and all of them are valid. -/
def Guarded (s : ModulesInstallationDialog N) : Prop :=
  s.disabled = false → s.panels.configurators.values ≠ [] ∧
    ∀ draft ∈ s.panels.configurators.values, s.validate draft = true

theorem guarded_validateConfigurations (s : ModulesInstallationDialog N) :
    s.validateConfigurations.Guarded := by
  intro henabled
  rw [validateConfigurations] at henabled ⊢
  split
  next hempty =>
    rw [if_pos hempty] at henabled
    cases henabled
  next hempty =>
    rw [if_neg hempty, List.any_eq_false] at henabled
    refine ⟨fun hnil => hempty ?_, fun draft hdraft => ?_⟩
    · rw [List.isEmpty_iff]
      exact List.map_eq_nil_iff.mp hnil
    · have hvalid := henabled draft hdraft
      rwa [Bool.not_eq_true', Bool.not_eq_false] at hvalid

theorem selectArtifacts_eq (f : DraftFactory N) (s : ModulesInstallationDialog N)
    (artifacts : List ModuleValidation.AssembledArtifact) :
    ∃ disabled, s.selectArtifacts f artifacts =
      { s with
        panels := selectPanels (s.newDraft f) s.panels artifacts
        disabled := disabled } := by
  rw [selectArtifacts, validateConfigurations]
  split
  · exact ⟨_, rfl⟩
  · exact ⟨_, rfl⟩

/-- A valid configuration for other modules: only its name is looked up among them. -/
theorem validate_iff_of_valid {configuration : ModuleValidation.ModuleConfigurationDraft N}
    {projectId projectId' : Nat} {modules modules' : List ModuleValidation.ModuleInformation}
    (h : ModuleValidation.validateModuleConfiguration configuration projectId modules = true) :
    ModuleValidation.validateModuleConfiguration configuration projectId' modules' = true ↔
      ∀ module ∈ modules', module.projectId = projectId' →
        module.name ≠ ModuleValidation.createModuleName configuration := by
  rw [ModuleValidation.validateModuleConfiguration_iff, ModuleValidation.nameValid_iff] at h ⊢
  obtain ⟨⟨hname, hlength, -⟩, hrest⟩ := h
  exact ⟨fun hvalid => hvalid.1.2.2, fun hfree => ⟨⟨hname, hlength, hfree⟩, hrest⟩⟩

/-- Other modules, or another project, leave the button right exactly if it is disabled or
no name is taken. -/
theorem guarded_iff_namesFree (h : s.Guarded) (hpanels : t.panels = s.panels)
    (hdisabled : t.disabled = s.disabled) :
    t.Guarded ↔ s.disabled = true ∨ s.NamesFree t.projectId t.modules := by
  cases hbutton : s.disabled with
  | true => simp [Guarded, hdisabled, hbutton]
  | false =>
      obtain ⟨hne, hvalid⟩ := h hbutton
      rw [Guarded, hdisabled, hbutton, hpanels, or_iff_right (by decide)]
      constructor
      · intro hguarded draft hdraft
        exact (validate_iff_of_valid (hvalid draft hdraft)).mp ((hguarded rfl).2 draft hdraft)
      · intro hfree _
        refine ⟨hne, fun draft hdraft => ?_⟩
        exact (validate_iff_of_valid (hvalid draft hdraft)).mpr (hfree draft hdraft)

/-! ## Selections -/

/-- What a selection of these artifacts does to the panels and to the button. -/
structure Reselected (s t : ModulesInstallationDialog N)
    (chosen : List ModuleValidation.AssembledArtifact) : Prop where
  paired : Paired t.panels
  guarded : t.Guarded
  names : ∀ entry ∈ t.panels.configurators.entries, ∃ artifact ∈ chosen, artifact.name = entry.1
  artifacts : ∀ items : List ModuleValidation.AssembledArtifact,
    (items.map ModuleValidation.AssembledArtifact.name).Nodup →
    (∀ entry ∈ s.panels.configurators.entries, entry.2.artifact ∈ items) →
    (∀ artifact ∈ chosen, artifact ∈ items) → ∀ artifact,
      artifact ∈ t.panels.configurators.values.map
        ModuleValidation.ModuleConfigurationDraft.artifact ↔ artifact ∈ chosen

theorem reselected_selectArtifacts (h : Paired s.panels)
    {chosen : List ModuleValidation.AssembledArtifact}
    (hchosen : ∀ artifact, artifact ∈ artifacts ↔ artifact ∈ chosen) :
    Reselected s (s.selectArtifacts f artifacts) chosen := by
  have hdraft : ∀ artifact, (s.newDraft f artifact).artifact = artifact :=
    fun artifact => f.artifact_draft artifact _ _
  obtain ⟨hpaired, hmem, hall⟩ := selectPanels_spec artifacts h hdraft
  obtain ⟨disabled, hresult⟩ := selectArtifacts_eq f s artifacts
  have hguarded : (s.selectArtifacts f artifacts).Guarded := guarded_validateConfigurations _
  refine ⟨by rwa [hresult], hguarded, ?_, ?_⟩
  · rw [hresult]
    intro entry hentry
    obtain ⟨artifact, hartifact, hname⟩ := (hmem entry hentry).2
    exact ⟨artifact, (hchosen artifact).mp hartifact, hname⟩
  · intro items hnames hbefore hitems artifact
    rw [hresult, LinkedMap.values, List.map_map, List.mem_map]
    -- among the items a name belongs to one artifact
    have hsame : ∀ entry ∈ (selectPanels (s.newDraft f) s.panels artifacts).configurators.entries,
        ∀ artifact ∈ artifacts, artifact.name = entry.1 → entry.2.artifact = artifact := by
      intro entry hentry artifact hartifact hname
      have hitem : entry.2.artifact ∈ items := by
        rcases (hmem entry hentry).1 with hold | hnew
        · exact hbefore entry hold
        · exact hitems _ ((hchosen _).mp hnew)
      refine List.inj_on_of_nodup_map hnames hitem (hitems _ ((hchosen artifact).mp hartifact)) ?_
      rw [hname, hpaired.names entry hentry]
    constructor
    · rintro ⟨entry, hentry, rfl⟩
      obtain ⟨artifact, hartifact, hname⟩ := (hmem entry hentry).2
      rw [Function.comp_apply, hsame entry hentry artifact hartifact hname]
      exact (hchosen artifact).mp hartifact
    · intro hartifact
      obtain ⟨entry, hentry, hname⟩ := hall artifact ((hchosen artifact).mpr hartifact)
      exact ⟨entry, hentry,
        hsame entry hentry artifact ((hchosen artifact).mpr hartifact) hname.symm⟩

/-- The second consumer may be told the same artifacts again. -/
theorem Reselected.again {chosen : List ModuleValidation.AssembledArtifact}
    (h : Reselected s t chosen)
    (hchosen : ∀ artifact, artifact ∈ artifacts ↔ artifact ∈ chosen) :
    Reselected s (t.selectArtifacts f artifacts) chosen := by
  have hagain := reselected_selectArtifacts (f := f) h.paired hchosen
  refine ⟨hagain.paired, hagain.guarded, hagain.names, ?_⟩
  intro items hnames hbefore hitems
  refine hagain.artifacts items hnames (fun entry hentry => ?_) hitems
  refine hitems _ ((h.artifacts items hnames hbefore hitems entry.2.artifact).mp ?_)
  exact List.mem_map_of_mem (List.mem_map_of_mem hentry)

theorem reselected_foldl (h : Paired s.panels) {chosen : List ModuleValidation.AssembledArtifact}
    {told : List (List ModuleValidation.AssembledArtifact)} (hne : told ≠ [])
    (htold : ∀ artifacts ∈ told, ∀ artifact, artifact ∈ artifacts ↔ artifact ∈ chosen) :
    Reselected s (told.foldl (selectArtifacts f) s) chosen := by
  induction told using List.reverseRecOn with
  | nil => exact absurd rfl hne
  | append_singleton told artifacts ih =>
      rw [List.foldl_concat]
      have hlast := htold artifacts (List.mem_append_right _ List.mem_cons_self)
      by_cases hnone : told = []
      · rw [hnone]
        exact reselected_selectArtifacts h hlast
      · exact (ih hnone fun artifacts hmem =>
          htold artifacts (List.mem_append_left _ hmem)).again hlast

/-- What is told changes nothing but the panels and the button. -/
theorem foldl_selectArtifacts_eq (f : DraftFactory N) (s : ModulesInstallationDialog N)
    (told : List (List ModuleValidation.AssembledArtifact)) :
    ∃ panels disabled, told.foldl (selectArtifacts f) s =
      { s with panels := panels, disabled := disabled } := by
  induction told generalizing s with
  | nil => exact ⟨s.panels, s.disabled, rfl⟩
  | cons artifacts told ih =>
      obtain ⟨disabled, hfirst⟩ := selectArtifacts_eq f s artifacts
      obtain ⟨panels', disabled', hrest⟩ := ih (s.selectArtifacts f artifacts)
      refine ⟨panels', disabled', ?_⟩
      rw [List.foldl_cons, hrest, hfirst]

/-! ## The invariant -/

/-- The searcher has the artifacts, which have different names, and its selection is exact;
the panels have their configurators. -/
structure Formed (s : ModulesInstallationDialog N) : Prop where
  ready : s.searcher.Ready
  consistent : s.searcher.Consistent
  items : s.searcher.items = s.artifacts
  names : (s.artifacts.map ModuleValidation.AssembledArtifact.name).Nodup
  nodup : s.searcher.values.Nodup
  paired : Paired s.panels

theorem tellsApart (items : List ModuleValidation.AssembledArtifact) :
    ManagedSearcher.TellsApart assembledArtifactsSearcher items := by
  intro item _ value _
  simp [assembledArtifactsSearcher]

theorem equivalence_comparator :
    Equivalence fun a b => assembledArtifactsSearcher.comparator a b = true := by
  simpa [assembledArtifactsSearcher] using eq_equivalence

/-- The dialog as the host of its searcher. -/
def dialogHost (f : DraftFactory N) :
    SearcherHost assembledArtifactsSearcher (ModulesInstallationDialog N) DialogCall where
  call := call f
  Has := fun s searcher => s.searcher = searcher
  put := setSearcher
  embed := .searcher
  tell := .selectArtifacts
  told := selectArtifacts f
  has_put := fun _ _ => rfl
  put_put := fun _ _ _ => rfl
  call_embed := by
    rintro s _ c searcher' inner rfl hcall
    simp only [call, hcall, Option.map_some]
  call_tell := fun _ _ => rfl

omit [DecidableEq N] [Zero N] in
/-- The keys of the configurators are the names of their artifacts. -/
theorem map_name_configurators (h : Paired panels) :
    (panels.configurators.values.map ModuleValidation.ModuleConfigurationDraft.artifact).map
      ModuleValidation.AssembledArtifact.name = panels.configurators.entries.map Prod.fst := by
  rw [LinkedMap.values, List.map_map, List.map_map]
  exact List.map_congr_left fun entry hentry => (h.names entry hentry).symm

/-- Of a dialog that is formed, the property is that the artifacts of the configurators are
the selected ones, and that the button is right. -/
theorem installsSelected_iff (h : Formed s) :
    s.InstallsSelected ↔ (∀ artifact, artifact ∈ s.panels.configurators.values.map
      ModuleValidation.ModuleConfigurationDraft.artifact ↔ artifact ∈ s.searcher.values) ∧
      s.Guarded := by
  constructor
  · intro hinstalls
    exact ⟨fun artifact => hinstalls.configurators.mem_iff, hinstalls.enabled⟩
  · intro ⟨hsame, hguarded⟩
    have hnodup := s.panels.configurators.nodup
    rw [← map_name_configurators h.paired] at hnodup
    have hperm := (List.perm_ext_iff_of_nodup hnodup.of_map h.nodup).mpr hsame
    refine ⟨hperm, h.paired.names, ?_, hguarded⟩
    rw [h.paired.widgets, h.paired.keys, ← map_name_configurators h.paired]
    exact hperm.map _

/-- Another selection: of a dialog that is formed, the configurators are again those of the
selected artifacts. -/
theorem exists_select (h : Formed s) {c : SearcherCall ModuleValidation.AssembledArtifact}
    {values : List ModuleValidation.AssembledArtifact} {indexes : List Nat}
    (hsettles : ManagedSearcher.Settles assembledArtifactsSearcher 9 s.searcher c
      s.searcher.items indexes values)
    (hexactly : Exactly s.searcher.items indexes values) (hnodup : values.Nodup)
    (hleads : ManagedSearcher.LeadsTo assembledArtifactsSearcher values s.searcher c) :
    ∃ t, exec (call f) 32 s [.searcher c] = some t ∧ Formed t ∧
      (s.InstallsSelected → t.InstallsSelected) := by
  obtain ⟨t, hexec, searcher', hholds, told, rfl, hsame, htold⟩ :=
    ((dialogHost f).ends (fun _ => rfl) tellsApart hsettles hleads rfl).exec
      (show 2 * 9 ≤ 32 by omega)
  refine ⟨_, hexec, ?_⟩
  obtain ⟨hitems, hindexes, hvalues⟩ := hholds.eq
  have hconsistent : searcher'.Consistent := by
    rwa [ManagedSearcher.Consistent, hitems, hindexes, hvalues]
  by_cases hnone : told = []
  · -- the selection is the same as before
    subst hnone
    have hbefore : searcher'.values = s.searcher.values := by
      rw [ManagedSearcher.values, hsame rfl, ManagedSearcher.values]
    have hformed : Formed (s.setSearcher searcher') :=
      ⟨⟨_, _, rfl, hholds.indexes, hholds.values⟩, hconsistent, hitems.trans h.items, h.names,
        hvalues.symm ▸ hnodup, h.paired⟩
    refine ⟨hformed, fun hinstalls => ?_⟩
    refine (installsSelected_iff hformed).mpr ⟨fun artifact => ?_, hinstalls.enabled⟩
    exact (((installsSelected_iff h).mp hinstalls).1 artifact).trans (by rw [← hbefore]; rfl)
  · have hpaired : Paired (s.setSearcher searcher').panels := h.paired
    have hreselected := reselected_foldl (f := f) hpaired hnone htold
    obtain ⟨panels, disabled, hframe⟩ := foldl_selectArtifacts_eq f (s.setSearcher searcher') told
    have hformed : Formed (told.foldl (selectArtifacts f) (s.setSearcher searcher')) := by
      refine ⟨?_, ?_, ?_, ?_, ?_, hreselected.paired⟩
      · rw [hframe]
        exact ⟨_, _, rfl, hholds.indexes, hholds.values⟩
      · rwa [hframe]
      · rw [hframe]
        exact hitems.trans h.items
      · rw [hframe]
        exact h.names
      · rw [hframe]
        exact hvalues.symm ▸ hnodup
    refine ⟨hformed, fun hinstalls => (installsSelected_iff hformed).mpr
      ⟨fun artifact => ?_, hreselected.guarded⟩⟩
    have hchosen := hreselected.artifacts s.artifacts h.names (fun entry hentry => ?_)
      (fun artifact hartifact => ?_) artifact
    · rw [hchosen, hframe, ← hvalues]
      rfl
    · rw [← h.items]
      exact ManagedSearcher.mem_items_of_consistent h.consistent
        ((((installsSelected_iff h).mp hinstalls).1 _).mp
          (List.mem_map_of_mem (List.mem_map_of_mem hentry)))
    · rw [← h.items, ← hitems]
      exact ManagedSearcher.mem_items_of_consistent hconsistent (hvalues.symm ▸ hartifact)

/-- Where no artifact is selected, what is told leaves the button disabled. -/
theorem disabled_of_none (h : s.InstallsSelected) (hpaired : Paired s.panels)
    {searcher : ManagedSearcher ModuleValidation.AssembledArtifact}
    (hpanels : t.panels = s.panels) (hdisabled : t.disabled = s.disabled)
    {told : List (List ModuleValidation.AssembledArtifact)}
    (hsame : told = [] → searcher.values = s.searcher.values) (hnone : searcher.values = [])
    (htold : ∀ artifacts ∈ told, ∀ artifact, artifact ∈ artifacts ↔ artifact ∈ searcher.values) :
    (told.foldl (selectArtifacts f) t).disabled = true := by
  by_contra henabled
  rw [Bool.not_eq_true] at henabled
  by_cases htoldNone : told = []
  · rw [htoldNone, List.foldl_nil, hdisabled] at henabled
    refine (h.enabled henabled).1 ?_
    have hperm := h.configurators
    rw [← hsame htoldNone, hnone, List.perm_nil] at hperm
    exact List.map_eq_nil_iff.mp hperm
  · have hreselected := reselected_foldl (f := f) (hpanels.symm ▸ hpaired) htoldNone htold
    obtain ⟨draft, hdraft⟩ := List.exists_mem_of_ne_nil _ (hreselected.guarded henabled).1
    obtain ⟨entry, hentry, -⟩ := List.mem_map.mp hdraft
    obtain ⟨artifact, hartifact, -⟩ := hreselected.names entry hentry
    rw [hnone] at hartifact
    cases hartifact

/-- The dialog whose searcher has been given other artifacts, when the configurators are
cleared. -/
theorem formed_clearPanels (h : Formed s) (hpanels : t.panels = s.panels)
    (hdisabled : t.disabled = s.disabled) (hready : t.searcher.Ready)
    (hconsistent : t.searcher.Consistent) (hitems : t.searcher.items = t.artifacts)
    (hnames : (t.artifacts.map ModuleValidation.AssembledArtifact.name).Nodup)
    (hnodup : t.searcher.values.Nodup)
    (hleft : ∀ artifact, artifact ∈ t.searcher.values ↔
      artifact ∈ s.searcher.values ∧ artifact ∈ t.artifacts)
    {told : List (List ModuleValidation.AssembledArtifact)}
    (hsame : told = [] → t.searcher.values = s.searcher.values)
    (htold : ∀ artifacts ∈ told, ∀ artifact,
      artifact ∈ artifacts ↔ artifact ∈ t.searcher.values) :
    Formed (told.foldl (selectArtifacts f) t).clearPanels ∧ (s.InstallsSelected →
      ((told.foldl (selectArtifacts f) t).clearPanels.InstallsSelected ↔
        ∀ artifact ∈ s.searcher.values, artifact ∉ t.artifacts)) := by
  obtain ⟨panels, disabled, hframe⟩ := foldl_selectArtifacts_eq f t told
  have hsearcher : (told.foldl (selectArtifacts f) t).searcher = t.searcher := by rw [hframe]
  have hformed : Formed (told.foldl (selectArtifacts f) t).clearPanels := by
    rw [hframe]
    exact ⟨hready, hconsistent, hitems, hnames, hnodup, paired_empty⟩
  refine ⟨hformed, fun hinstalls => (installsSelected_iff hformed).trans ?_⟩
  rw [show (told.foldl (selectArtifacts f) t).clearPanels.searcher = t.searcher from hsearcher]
  constructor
  · intro ⟨hempty, _⟩ artifact hartifact hunique
    cases (hempty artifact).mpr ((hleft artifact).mpr ⟨hartifact, hunique⟩)
  · intro hgone
    have hnone : t.searcher.values = [] := by
      refine List.eq_nil_iff_forall_not_mem.mpr fun artifact hartifact => ?_
      obtain ⟨hold, hunique⟩ := (hleft artifact).mp hartifact
      exact hgone artifact hold hunique
    rw [hnone]
    refine ⟨fun artifact => Iff.rfl, fun henabled => ?_⟩
    have hdisabled' := disabled_of_none (f := f) hinstalls h.paired hpanels hdisabled hsame hnone
      htold
    exact absurd (hdisabled'.symm.trans henabled) (by decide)

/-- Behind an answer with artifacts there are no configurators, and the artifacts selected
before that are among them stay selected. -/
theorem exists_reload (h : Formed s) (artifacts : List ModuleValidation.AssembledArtifact) :
    ∃ t, s.reloadArtifacts f artifacts = some t ∧ Formed t ∧
      (s.InstallsSelected → (t.InstallsSelected ↔ s.Careful (.artifactsLoaded artifacts))) := by
  obtain ⟨current, selected, hholds⟩ := h.ready
  obtain ⟨-, -, hselected⟩ := hholds.eq
  have hexactly := hholds.consistent_iff.mp h.consistent
  rw [reloadArtifacts, Careful]
  have hnames := LinkedMap.nodup_map_uniqueBy ModuleValidation.AssembledArtifact.name artifacts
  generalize LinkedMap.uniqueBy ModuleValidation.AssembledArtifact.name artifacts = unique at hnames
  -- the searcher is given the new artifacts first
  have hfirst : call f { s with artifacts := unique, loadingArtifacts := s.loadingArtifacts - 1 }
      (.searcher (.setAvailableValues unique)) =
      some ({ s with
          artifacts := unique
          loadingArtifacts := s.loadingArtifacts - 1
          searcher := { s.searcher with items := unique } },
        [.searcher (.setSelectedIndexes
          (ManagedSearcher.firstIndexes assembledArtifactsSearcher unique selected))]) := by
    have hmap : unique.map assembledArtifactsSearcher.itemValue = unique := List.map_id unique
    simp only [call, ManagedSearcher.call, hholds.values, hmap, Option.map_some]
    rfl
  have hgiven : ManagedSearcher.Holds { s.searcher with items := unique } unique current selected :=
    ⟨rfl, hholds.indexes, hholds.values⟩
  have hfound : ManagedSearcher.firstIndexes assembledArtifactsSearcher unique selected = current →
      Exactly unique current selected := by
    intro hsame
    have hlength := congrArg List.length hexactly
    rw [List.length_map, List.length_map, ← hsame] at hlength
    exact hsame ▸ ManagedSearcher.exactly_firstIndexes_of_length tellsApart hlength
  obtain ⟨indexes, values, hsettles, hexactly', hmem, hnodup⟩ :=
    ManagedSearcher.settles_selectIndexes hgiven hfound
      ManagedSearcher.firstIndexes_lt (fun _ => rfl) equivalence_comparator (tellsApart unique)
  have hleft : ∀ artifact, artifact ∈ values ↔ artifact ∈ selected ∧ artifact ∈ unique :=
    fun artifact => (hmem artifact).trans
      (ManagedSearcher.mem_valuesAt_firstIndexes (fun _ => rfl) tellsApart)
  have hleads : ManagedSearcher.LeadsTo assembledArtifactsSearcher values
      { s.searcher with items := unique } (.setSelectedIndexes
        (ManagedSearcher.firstIndexes assembledArtifactsSearcher unique selected)) :=
    ⟨fun artifact hartifact => ((hleft artifact).mp hartifact).2,
      fun artifact => (hmem artifact).symm⟩
  have hends := ends_of_inner hfirst
    ((dialogHost f).ends (fun _ => rfl) tellsApart hsettles hleads rfl)
  obtain ⟨u, hexec, searcher', hholds', told, rfl, hsame, htold⟩ :=
    hends.exec (show 2 * 9 + 1 ≤ 32 by omega)
  obtain ⟨hitems', hindexes', hvalues'⟩ := hholds'.eq
  refine ⟨_, by rw [hexec, Option.map_some], ?_⟩
  rw [← hvalues'] at hleft htold hnodup
  rw [← hselected] at hleft hnodup
  have hkept : told = [] → searcher'.values = s.searcher.values := by
    intro hnil
    rw [ManagedSearcher.values, hsame hnil, ManagedSearcher.values]
  have hconsistent : searcher'.Consistent := by
    rwa [ManagedSearcher.Consistent, hitems', hindexes', hvalues']
  have hready : searcher'.Ready := ⟨_, _, rfl, hholds'.indexes, hholds'.values⟩
  exact formed_clearPanels (t := { s with
      artifacts := unique
      loadingArtifacts := s.loadingArtifacts - 1
      searcher := searcher' }) h rfl rfl hready hconsistent hitems'
    hnames (hnodup hnames.of_map h.nodup) hleft hkept htold

/-! ## Edits -/

omit [DecidableEq N] [Zero N] in
/-- An edit keeps the artifact of its configurator. -/
theorem paired_edit (h : Paired panels) {name : Text}
    {before after : ModuleValidation.ModuleConfigurationDraft N}
    (hget : panels.configurators.get name = some before)
    (hartifact : after.artifact = before.artifact) :
    Paired { panels with configurators := panels.configurators.modify name fun _ => after } ∧
      (panels.configurators.modify name fun _ => after).values.map
          ModuleValidation.ModuleConfigurationDraft.artifact =
        panels.configurators.values.map ModuleValidation.ModuleConfigurationDraft.artifact := by
  have hname := h.names _ (LinkedMap.get_eq_some_iff.mp hget)
  refine ⟨⟨?_, h.widgets, fun entry hentry => ?_⟩, ?_⟩
  · change panels.grid.keys = (panels.configurators.entries.map _).map Prod.fst
    rw [h.keys, List.map_map]
    refine List.map_congr_left fun entry _ => ?_
    by_cases hsame : entry.1 = name <;> simp [hsame]
  · rcases LinkedMap.mem_entries_modify.mp hentry with ⟨hold, -⟩ | ⟨value, -, rfl⟩
    · exact h.names entry hold
    · exact hname.trans (congrArg ModuleValidation.AssembledArtifact.name hartifact.symm)
  · rw [LinkedMap.values, LinkedMap.values, LinkedMap.modify, List.map_map, List.map_map,
      List.map_map]
    refine List.map_congr_left fun entry hentry => ?_
    by_cases hsame : entry.1 = name
    · have hentry' : panels.configurators.get name = some entry.2 :=
        LinkedMap.get_eq_some_iff.mpr (hsame ▸ hentry)
      cases hget.symm.trans hentry'
      simp [hsame, hartifact]
    · simp [hsame]

/-- An edit leaves the button right exactly if it is not valid, or the others all are. -/
theorem guarded_edit_iff {name : Text}
    {before after : ModuleValidation.ModuleConfigurationDraft N}
    (hget : s.panels.configurators.get name = some before) :
    Guarded { s with
        panels := { s.panels with
          configurators := s.panels.configurators.modify name fun _ => after }
        disabled := !s.validate after } ↔ s.Careful (.edit name after) := by
  have hmem : (name, after) ∈ (s.panels.configurators.modify name fun _ => after).entries :=
    LinkedMap.mem_entries_modify.mpr (.inr ⟨before, LinkedMap.get_eq_some_iff.mp hget, rfl⟩)
  rw [Careful, Guarded]
  cases hvalid : s.validate after with
  | false => simp
  | true =>
      rw [or_iff_right (by decide)]
      constructor
      · intro hguarded entry hentry hne
        refine (hguarded rfl).2 entry.2 (List.mem_map_of_mem ?_)
        exact LinkedMap.mem_entries_modify.mpr (.inl ⟨hentry, hne⟩)
      · intro hothers _
        refine ⟨List.ne_nil_of_mem (List.mem_map_of_mem hmem), fun draft hdraft => ?_⟩
        obtain ⟨entry, hentry, rfl⟩ := List.mem_map.mp hdraft
        rcases LinkedMap.mem_entries_modify.mp hentry with ⟨hold, hne⟩ | ⟨value, -, rfl⟩
        · exact hothers entry hold hne
        · exact hvalid

/-! ## Runs -/

/-- Where only the project or the modules change, the button is right exactly if it is
disabled or no name is taken. -/
theorem formed_other (h : Formed s) (hpanels : t.panels = s.panels)
    (hdisabled : t.disabled = s.disabled) (hsearcher : t.searcher = s.searcher)
    (hartifacts : t.artifacts = s.artifacts) :
    Formed t ∧ (s.InstallsSelected →
      (t.InstallsSelected ↔ s.disabled = true ∨ s.NamesFree t.projectId t.modules)) := by
  have hformed : Formed t := by
    constructor
    · exact hsearcher ▸ h.ready
    · exact hsearcher ▸ h.consistent
    · rw [hsearcher, hartifacts, h.items]
    · exact hartifacts ▸ h.names
    · exact hsearcher ▸ h.nodup
    · exact hpanels ▸ h.paired
  refine ⟨hformed, fun hinstalls => ?_⟩
  obtain ⟨hsame, hguarded⟩ := (installsSelected_iff h).mp hinstalls
  rw [installsSelected_iff hformed, hpanels, hsearcher, and_iff_right hsame]
  exact guarded_iff_namesFree hguarded hpanels hdisabled

/-- One step of a dialog that is formed, by its event. -/
theorem exists_step (h : Formed s) {event : DialogEvent N} (hpossible : s.Possible event) :
    ∃ t, s.step f event = some t ∧ Formed t ∧
      (s.InstallsSelected → (t.InstallsSelected ↔ s.Careful event)) := by
  unfold step
  rw [if_pos hpossible]
  obtain ⟨current, selected, hholds⟩ := h.ready
  have hexactly := hholds.consistent_iff.mp h.consistent
  obtain ⟨-, -, hselected⟩ := hholds.eq
  cases event with
  | selectIndexes indexes =>
      have hnodup : s.searcher.items.Nodup := h.items ▸ h.names.of_map
      obtain ⟨indexes', values, hsettles, hexactly', hmem, hvalues⟩ :=
        ManagedSearcher.settles_selectIndexes hholds (fun _ => hexactly) hpossible
          (fun _ => rfl) equivalence_comparator (tellsApart _)
      have hleads : ManagedSearcher.LeadsTo assembledArtifactsSearcher values s.searcher
          (.setSelectedIndexes indexes) := by
        refine ⟨fun artifact hartifact => ?_, fun artifact => (hmem artifact).symm⟩
        obtain ⟨index, -, hitem⟩ := (ManagedSearcher.mem_of_exactly hexactly').mp hartifact
        exact List.mem_of_getElem? hitem
      obtain ⟨t, hexec, hformed, hinstalls⟩ :=
        exists_select (f := f) h hsettles hexactly' (hvalues hnodup (hselected ▸ h.nodup)) hleads
      exact ⟨t, hexec, hformed, fun hbefore => iff_of_true (hinstalls hbefore) trivial⟩
  | selectAll =>
      obtain ⟨indexes, hsettles, hexactly'⟩ :=
        ManagedSearcher.settles_selectItems hholds hexactly (fun _ => rfl) (tellsApart _)
      obtain ⟨t, hexec, hformed, hinstalls⟩ := exists_select (f := f) h
        (Ends.mono hsettles (by omega)) hexactly' (h.items ▸ h.names.of_map)
        ⟨fun _ hartifact => hartifact, fun _ => Iff.rfl⟩
      exact ⟨t, h.items ▸ hexec, hformed, fun hbefore => iff_of_true (hinstalls hbefore) trivial⟩
  | edit name configuration =>
      obtain ⟨before, hget, hartifact⟩ := (Option.any_eq_true _ _).mp hpossible
      rw [decide_eq_true_eq] at hartifact
      obtain ⟨hpaired, hartifacts⟩ := paired_edit h.paired hget hartifact
      have hformed : Formed { s with
          panels := { s.panels with
            configurators := s.panels.configurators.modify name fun _ => configuration }
          disabled := !s.validate configuration } :=
        ⟨h.ready, h.consistent, h.items, h.names, h.nodup, hpaired⟩
      refine ⟨_, rfl, hformed, fun hinstalls => ?_⟩
      rw [installsSelected_iff hformed, guarded_edit_iff hget]
      refine and_iff_right fun artifact => ?_
      rw [hartifacts]
      exact ((installsSelected_iff h).mp hinstalls).1 artifact
  | projectSelected projectId =>
      have hproject : s.project = none := hpossible
      have hcareful : ∀ t : ModulesInstallationDialog N, t.projectId = projectId →
          t.modules = s.modules → (s.Careful (.projectSelected projectId) ↔
            s.disabled = true ∨ s.NamesFree t.projectId t.modules) := by
        intro t hid hmodules
        rw [hid, hmodules]
        rfl
      dsimp only
      split
      next hsame =>
        obtain ⟨hformed, hiff⟩ := formed_other (t := s) h rfl rfl rfl rfl
        refine ⟨s, rfl, hformed, fun hinstalls => (hiff hinstalls).trans (hcareful s ?_ rfl).symm⟩
        rw [ModulesInstallationDialog.projectId, hproject, hsame]
        rfl
      next =>
        refine ⟨_, rfl, ?_⟩
        obtain ⟨hformed, hiff⟩ := formed_other (t := { s with
          selectedProject := projectId
          loadingArtifacts := s.loadingArtifacts + 1 }) h rfl rfl rfl rfl
        refine ⟨hformed, fun hinstalls => (hiff hinstalls).trans (hcareful { s with
          selectedProject := projectId
          loadingArtifacts := s.loadingArtifacts + 1 } ?_ rfl).symm⟩
        rw [ModulesInstallationDialog.projectId, hproject]
        rfl
  | modulesLoaded modules =>
      refine ⟨_, rfl, ?_⟩
      exact formed_other (t := { s with modules := modules, loadingModules := false })
        h rfl rfl rfl rfl
  | artifactsLoaded artifacts => exact exists_reload h artifacts

theorem formed_opened (project : Option Nat) (firstProject : Nat)
    {artifacts : Option (List ModuleValidation.AssembledArtifact)}
    (hnames : ((artifacts.getD []).map ModuleValidation.AssembledArtifact.name).Nodup) :
    Formed (opened project firstProject artifacts : ModulesInstallationDialog N) ∧
      (opened project firstProject artifacts : ModulesInstallationDialog N).InstallsSelected := by
  have hformed : Formed (opened project firstProject artifacts : ModulesInstallationDialog N) :=
    ⟨ManagedSearcher.ready_configuration .., rfl, List.map_id _, hnames, List.nodup_nil,
      paired_empty⟩
  refine ⟨hformed, (installsSelected_iff hformed).mpr ⟨fun artifact => Iff.rfl, fun henabled => ?_⟩⟩
  cases henabled

end ModulesInstallationDialog

/-- In every run from a dialog whose artifacts have different names, the dialog always has
exactly the configurators of the selected artifacts, and an enabled button only if they are
valid, if and only if every event meets the condition; no possible event is refused. -/
theorem installs_selected_iff {N : Type} [DecidableEq N] [Zero N] (f : DraftFactory N)
    (project : Option Nat) (firstProject : Nat)
    (artifacts : Option (List ModuleValidation.AssembledArtifact)) (events : List (DialogEvent N))
    {s : ModulesInstallationDialog N}
    (hnames : ((artifacts.getD []).map ModuleValidation.AssembledArtifact.name).Nodup)
    (hrun : run (ModulesInstallationDialog.step f)
      (ModulesInstallationDialog.opened project firstProject artifacts) events = some s) :
    (Always (ModulesInstallationDialog.step f)
        (ModulesInstallationDialog.opened project firstProject artifacts) events
        ModulesInstallationDialog.InstallsSelected ↔
      EachStep (ModulesInstallationDialog.step f)
        (ModulesInstallationDialog.opened project firstProject artifacts) events
        ModulesInstallationDialog.Careful) ∧
      ∀ event, s.Possible event → ∃ t, ModulesInstallationDialog.step f s event = some t := by
  obtain ⟨hformed, hinstalls⟩ :=
    ModulesInstallationDialog.formed_opened (N := N) project firstProject hnames
  have hstep : ∀ (u : ModulesInstallationDialog N) event v, u.Formed → u.step f event = some v →
      v.Formed ∧ (u.InstallsSelected → (v.InstallsSelected ↔ u.Careful event)) := by
    intro u event v hu hv
    have hpossible : u.Possible event := by
      by_contra hnot
      unfold ModulesInstallationDialog.step at hv
      rw [if_neg hnot] at hv
      cases hv
    obtain ⟨t, ht, hnext⟩ := ModulesInstallationDialog.exists_step (f := f) hu hpossible
    cases ht.symm.trans hv
    exact hnext
  constructor
  · refine always_iff_eachStep_of (P := fun _ _ => True) hinstalls hformed hrun
      (fun _ _ _ _ _ => trivial) (fun u event v hu _ hv => (hstep u event v hu hv).1) ?_
    exact fun u event v hu _ hbefore hv => (hstep u event v hu hv).2 hbefore
  · intro event hpossible
    have hlast := EventRun.invariant_of_run hformed hrun
      fun u event v hu hv => (hstep u event v hu hv).1
    obtain ⟨t, ht, -⟩ := ModulesInstallationDialog.exists_step (f := f) hlast hpossible
    exact ⟨t, ht⟩

/-- A configurator starts without anything but the artifact. -/
def emptyDrafts : DraftFactory Nat where
  draft := fun artifact _ _ => { artifact := artifact }
  artifact_draft := fun _ _ _ => rfl

def artifactA : ModuleValidation.AssembledArtifact where
  name := units ['a', 'b', 'c']
  version := units ['1']
  externalId := { id := "a", resourceId := { id := 1, name := "files", type := .artifacts } }

def artifactB : ModuleValidation.AssembledArtifact where
  name := units ['a', 'b', 'd']
  version := units ['1']
  externalId := { id := "b", resourceId := { id := 1, name := "files", type := .artifacts } }

/-- One artifact is selected, then the other one too. -/
theorem installs_selected_iff_two_artifacts :
    ∃ s, run (ModulesInstallationDialog.step emptyDrafts)
        (ModulesInstallationDialog.opened none 1 (some [artifactA, artifactB]))
        [.selectIndexes [1], .selectIndexes [1, 0]] = some s ∧
      (Always (ModulesInstallationDialog.step emptyDrafts)
          (ModulesInstallationDialog.opened none 1 (some [artifactA, artifactB]))
          [.selectIndexes [1], .selectIndexes [1, 0]]
          ModulesInstallationDialog.InstallsSelected ↔
        EachStep (ModulesInstallationDialog.step emptyDrafts)
          (ModulesInstallationDialog.opened none 1 (some [artifactA, artifactB]))
          [.selectIndexes [1], .selectIndexes [1, 0]]
          ModulesInstallationDialog.Careful) ∧
      ∀ event, s.Possible event →
        ∃ t, ModulesInstallationDialog.step emptyDrafts s event = some t :=
  ⟨_, rfl, installs_selected_iff emptyDrafts none 1 (some [artifactA, artifactB])
    [.selectIndexes [1], .selectIndexes [1, 0]] (by decide) rfl⟩

/-- The first configuration is made invalid, and then the second one is edited. -/
theorem invalid_configuration_enabled :
    ∃ s, run (ModulesInstallationDialog.step emptyDrafts)
        (ModulesInstallationDialog.opened none 1 (some [artifactA, artifactB]))
        [.selectIndexes [0, 1],
          .edit artifactA.name { artifact := artifactA, hasParameters := true },
          .edit artifactB.name { artifact := artifactB }] = some s ∧
      s.disabled = false ∧ ¬ s.InstallsSelected := by
  refine ⟨_, rfl, by decide, fun h => ?_⟩
  have hvalid := (h.enabled (by decide)).2 { artifact := artifactA, hasParameters := true }
    (by decide)
  revert hvalid
  decide

end ArtPlatform.Web
