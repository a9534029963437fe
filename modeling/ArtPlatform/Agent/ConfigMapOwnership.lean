import ArtPlatform.Agent.OpenShiftInstaller

/-!
# Whose config map it is

A module has a config map for its configuration files and one for filebeat, named
after its deployment.  An installation or an update deletes every config map whose
name starts as that of the module's filebeat, which may be another module's.

Main results:

- Theorem `belongs_iff`: the names of the config maps that a module's installations
  and updates create.
- Theorem `configMaps_kept_iff`: exactly when a change of one module keeps the config
  maps of another.
- Theorem `neighbour_loses_configMap`: an update that deletes another module's.
-/

namespace ArtPlatform

namespace Agent

inductive ModuleChange
  | install (request : AgentModuleInstallRequest)
  | update (request : AgentModuleUpdateRequest)

def ModuleChange.module : ModuleChange → Module
  | .install request => request.module
  | .update request => request.newModule

/-- The name of the deployment that the change addresses. -/
def ModuleChange.deploymentName : ModuleChange → String
  | .install request => request.module.externalId.id
  | .update request => request.newModule.name

/-- The config maps after an update, also when a step after the configuration of the
pod's config maps has failed. -/
def OpenShiftUpdater.configMapsAfter (u : OpenShiftUpdater) (client : OpenShiftClient)
    (ns : OpenShiftNamespace) : Space ConfigMap :=
  match ns.deploymentConfigs.get u.name with
  | none => u.configuredConfigMaps ns.configMaps
  | some current =>
      if u.skipChangesCheck then u.configuredConfigMaps ns.configMaps
      else
        match u.unchanged client current ns with
        | .ok false => u.configuredConfigMaps ns.configMaps
        | .ok true | .error _ => ns.configMaps

theorem OpenShiftUpdater.configureNetwork_configMaps {u : OpenShiftUpdater}
    {ns ns' : OpenShiftNamespace} (h : u.configureNetwork ns = .ok ns') :
    ns'.configMaps = ns.configMaps := by
  unfold configureNetwork at h
  split at h
  · cases h
    rfl
  · rcases exists_of_bind_eq_ok h with ⟨routes, -, hok⟩
    cases hok
    rfl

theorem updateDeploymentConfig_configMaps (name : String)
    (configuration : OpenShiftDeploymentConfiguration) (ns : OpenShiftNamespace) :
    (updateDeploymentConfig name configuration ns).configMaps = ns.configMaps := by
  unfold updateDeploymentConfig
  split
  · rfl
  · rfl

theorem OpenShiftUpdater.fullUpdate_configMaps {u : OpenShiftUpdater}
    {triggers : OpenShiftUpdater.Triggers} {ns ns' : OpenShiftNamespace}
    (h : u.fullUpdate triggers ns = .ok ns') :
    ns'.configMaps = u.configuredConfigMaps ns.configMaps := by
  rcases exists_of_bind_eq_ok h with ⟨⟨configuration, configured⟩, hpod, hok⟩
  cases hok
  rcases exists_of_bind_eq_ok hpod with ⟨networked, hnetwork, hok⟩
  cases hok
  rw [updateDeploymentConfig_configMaps, configureNetwork_configMaps hnetwork]
  rfl

theorem OpenShiftUpdater.fastUpdate_configMaps {u : OpenShiftUpdater}
    {current : DeploymentConfig} {ns ns' : OpenShiftNamespace}
    (h : u.fastUpdate current ns = .ok ns') : ns'.configMaps = ns.configMaps := by
  rw [u.fastUpdate_eq] at h
  obtain ⟨routes, -, rfl⟩ := exists_of_map_eq_ok h
  dsimp only
  split
  · exact updateDeploymentConfig_configMaps _ _ _
  · rfl

/-- An update that succeeds leaves these config maps. -/
theorem OpenShiftUpdater.updateDeployment_configMaps {u : OpenShiftUpdater}
    {client : OpenShiftClient} {triggers : OpenShiftUpdater.Triggers}
    {ns ns' : OpenShiftNamespace} (h : u.updateDeployment client triggers ns = .ok ns') :
    ns'.configMaps = u.configMapsAfter client ns := by
  unfold configMapsAfter
  cases hget : ns.deploymentConfigs.get u.name with
  | none =>
      rw [u.updateDeployment_eq_fullUpdate triggers ns client (.inl hget)] at h
      exact fullUpdate_configMaps h
  | some current =>
      cases hskip : u.skipChangesCheck with
      | true =>
          rw [u.updateDeployment_eq_fullUpdate triggers ns client (.inr hskip)] at h
          simpa using fullUpdate_configMaps h
      | false =>
          rw [u.updateDeployment_eq_shortcut triggers ns client hget hskip] at h
          rcases exists_of_bind_eq_ok h with ⟨unchanged, hcheck, hway⟩
          cases unchanged with
          | true =>
              simp only [hcheck, Bool.false_eq_true, ↓reduceIte]
              exact fastUpdate_configMaps hway
          | false =>
              simp only [hcheck, Bool.false_eq_true, ↓reduceIte]
              exact fullUpdate_configMaps hway

/-! ## The config maps that belong to a module -/

section Ownership

variable (resource : OpenShiftResource) (client : OpenShiftClient)

def ModuleChange.configMapsAfter (change : ModuleChange) (ns : OpenShiftNamespace) :
    Space ConfigMap :=
  match change with
  | .install request => (installOnOpenShift resource request).installedConfigMaps ns.configMaps
  | .update request => (updateOnOpenShift resource request).configMapsAfter client ns

/-- What a change leaves under a name that does not start as that of the filebeat of
its module. -/
theorem get_configMapsAfter {change : ModuleChange} (ns : OpenShiftNamespace) {k : String}
    (hfilebeat : ¬ startsWith k (ownedName change.deploymentName FILEBEAT) = true)
    (hconfigs : k ≠ ownedName change.deploymentName CONFIGS_CAMEL_CASE) :
    (change.configMapsAfter resource client ns).get k = ns.configMaps.get k := by
  cases change with
  | install request =>
      refine (OpenShiftInstaller.get_installedConfigMaps _ _ k).trans ?_
      refine (if_neg hfilebeat).trans (if_neg ?_)
      rintro ⟨hname, -⟩
      exact hconfigs hname
  | update request =>
      have hconfigured : ((updateOnOpenShift resource request).configuredConfigMaps
          ns.configMaps).get k = ns.configMaps.get k := by
        refine (OpenShiftUpdater.get_configuredConfigMaps _ _ k).trans ?_
        refine (if_neg hfilebeat).trans ?_
        exact (OpenShiftUpdater.get_configuredConfigs _ _ k).trans (if_neg hconfigs)
      unfold ModuleChange.configMapsAfter OpenShiftUpdater.configMapsAfter
      dsimp only
      split
      · exact hconfigured
      · split
        · exact hconfigured
        · split
          · exact hconfigured
          · rfl
          · rfl

/-- Under another name that starts so, a change leaves nothing, unless it finds nothing
to do. -/
theorem get_configMapsAfter_of_startsWith {change : ModuleChange} (ns : OpenShiftNamespace)
    {k : String} (hfilebeat : startsWith k (ownedName change.deploymentName FILEBEAT) = true)
    (hne : k ≠ ownedName change.deploymentName FILEBEAT) :
    (change.configMapsAfter resource client ns).get k = none ∨
      (change.configMapsAfter resource client ns).get k = ns.configMaps.get k := by
  cases change with
  | install request =>
      refine .inl ((OpenShiftInstaller.get_installedConfigMaps _ _ k).trans ?_)
      exact (if_pos hfilebeat).trans (if_neg hne)
  | update request =>
      have hconfigured : ((updateOnOpenShift resource request).configuredConfigMaps
          ns.configMaps).get k = none := by
        refine (OpenShiftUpdater.get_configuredConfigMaps _ _ k).trans ?_
        exact (if_pos hfilebeat).trans (if_neg hne)
      unfold ModuleChange.configMapsAfter OpenShiftUpdater.configMapsAfter
      dsimp only
      split
      · exact .inl hconfigured
      · split
        · exact .inl hconfigured
        · split
          · exact .inl hconfigured
          · exact .inr rfl
          · exact .inr rfl

/-- A config map belongs to a module when an installation or an update of the module,
whatever it requests, can create one of that name. -/
def Belongs (m : Module) (k : String) : Prop :=
  ∃ change : ModuleChange, change.module.name = m.name ∧
    change.module.externalId = m.externalId ∧
    ∃ ns : OpenShiftNamespace, ns.configMaps.get k = none ∧
      ((change.configMapsAfter resource client ns).get k).isSome = true

/-- The names under which the module's installations and updates look for their
deployment. -/
def deploymentNames (m : Module) : List String :=
  [m.externalId.id, m.name]

theorem deploymentName_mem {change : ModuleChange} {m : Module}
    (hname : change.module.name = m.name) (hid : change.module.externalId = m.externalId) :
    change.deploymentName ∈ deploymentNames m := by
  cases change with
  | install request =>
      have hdeployment : (ModuleChange.install request).deploymentName = m.externalId.id :=
        congrArg ExternalIdentifier.id hid
      rw [hdeployment]
      exact List.mem_cons_self
  | update request =>
      have hdeployment : (ModuleChange.update request).deploymentName = m.name := hname
      rw [hdeployment]
      exact List.mem_cons_of_mem _ List.mem_cons_self

/-- A change that creates both config maps. -/
def installing (m : Module) : AgentModuleInstallRequest where
  projectId := m.externalId
  module := m
  additionalFiles := []
  configurationFiles := [⟨"application.yml", ""⟩]
  applications := some ⟨some ⟨"filebeat", 5044, ""⟩⟩
  probesConfiguration := none

def updating (m : Module) : AgentModuleUpdateRequest where
  projectId := m.externalId
  skipChangesCheck := none
  newModule := m
  additionalFiles := []
  configurationFiles := [⟨"application.yml", ""⟩]
  applications := some ⟨some ⟨"filebeat", 5044, ""⟩⟩
  probesConfiguration := none

theorem configs_ne_empty : toMap [("application.yml", "")] ≠ (∅ : StringMap String) := by
  intro hempty
  have hlookup := congrArg (fun configs => configs.lookup "application.yml") hempty
  simp [toMap] at hlookup

theorem not_startsWith_configs (name : String) :
    ¬ startsWith (ownedName name CONFIGS_CAMEL_CASE) (ownedName name FILEBEAT) = true := by
  unfold ownedName
  rw [startsWith_append]
  decide

theorem isSome_of_installing {m : Module} {k : String}
    (hk : k = ownedName m.externalId.id CONFIGS_CAMEL_CASE ∨
      k = ownedName m.externalId.id FILEBEAT) :
    (((ModuleChange.install (installing m)).configMapsAfter resource client
      emptyNamespace).get k).isSome = true := by
  have hget := (installOnOpenShift resource (installing m)).get_installedConfigMaps
    emptyNamespace.configMaps k
  refine (congrArg Option.isSome hget).trans ?_
  rcases hk with rfl | rfl
  · refine (congrArg Option.isSome (if_neg (not_startsWith_configs _))).trans ?_
    exact congrArg Option.isSome (if_pos ⟨rfl, configs_ne_empty⟩)
  · refine (congrArg Option.isSome (if_pos (startsWith_self _))).trans ?_
    exact congrArg Option.isSome (if_pos rfl)

theorem isSome_of_updating {m : Module} {k : String}
    (hk : k = ownedName m.name CONFIGS_CAMEL_CASE ∨ k = ownedName m.name FILEBEAT) :
    (((ModuleChange.update (updating m)).configMapsAfter resource client
      emptyNamespace).get k).isSome = true := by
  have hget := (updateOnOpenShift resource (updating m)).get_configuredConfigMaps
    emptyNamespace.configMaps k
  refine (congrArg Option.isSome hget).trans ?_
  rcases hk with rfl | rfl
  · refine (congrArg Option.isSome (if_neg (not_startsWith_configs _))).trans ?_
    refine (congrArg Option.isSome (OpenShiftUpdater.get_configuredConfigs _ _ _)).trans ?_
    refine (congrArg Option.isSome (if_pos rfl)).trans ?_
    exact congrArg Option.isSome (if_neg configs_ne_empty)
  · refine (congrArg Option.isSome (if_pos (startsWith_self _))).trans ?_
    exact congrArg Option.isSome (if_pos rfl)

/-- The config map names of a module. -/
theorem belongs_iff (m : Module) (k : String) :
    Belongs resource client m k ↔ ∃ name ∈ deploymentNames m,
      k = ownedName name CONFIGS_CAMEL_CASE ∨ k = ownedName name FILEBEAT := by
  constructor
  · rintro ⟨change, hname, hid, ns, hnone, hsome⟩
    refine ⟨change.deploymentName, deploymentName_mem hname hid, ?_⟩
    by_contra hother
    obtain ⟨hconfigs, hfilebeat⟩ := not_or.mp hother
    by_cases hstarts : startsWith k (ownedName change.deploymentName FILEBEAT) = true
    · rcases get_configMapsAfter_of_startsWith resource client ns hstarts hfilebeat with
        hget | hget
      · rw [hget] at hsome
        cases hsome
      · rw [hget, hnone] at hsome
        cases hsome
    · rw [get_configMapsAfter resource client ns hstarts hconfigs, hnone] at hsome
      cases hsome
  · rintro ⟨name, hname, hk⟩
    rcases List.mem_cons.mp hname with rfl | hname
    · exact ⟨.install (installing m), rfl, rfl, emptyNamespace, rfl,
        isSome_of_installing resource client hk⟩
    · rcases List.mem_singleton.mp hname with rfl
      exact ⟨.update (updating m), rfl, rfl, emptyNamespace, rfl,
        isSome_of_updating resource client hk⟩

/-! ## Keeping the config maps of another module -/

/-- A change leaves the config maps of the module as they are, in any namespace. -/
def KeepsConfigMaps (change : ModuleChange) (m : Module) : Prop :=
  ∀ k, Belongs resource client m k → ∀ ns : OpenShiftNamespace,
    (change.configMapsAfter resource client ns).get k = ns.configMaps.get k

end Ownership

/-- The module's deployment has another name under every change, which does not start
as that of the filebeat of the changed one. -/
def ModuleChange.NamesApart (change : ModuleChange) (m : Module) : Prop :=
  ∀ name ∈ deploymentNames m, name ≠ change.deploymentName ∧
    ¬ startsWith name (ownedName change.deploymentName FILEBEAT) = true

theorem ownedName_inj {name name' suffix suffix' : String} (h : '-' ∉ suffix.toList)
    (h' : '-' ∉ suffix'.toList) :
    ownedName name suffix = ownedName name' suffix' ↔ name = name' ∧ suffix = suffix' := by
  have hdash : String.singleton '-' = "-" := by decide
  unfold ownedName
  rw [← hdash]
  exact append_delimiter_inj h h'

/-- A name with a suffix starts as that of the filebeat of another deployment only when
the name itself does, or is the same. -/
theorem not_startsWith_ownedName {name other suffix : String} (hsuffix : '-' ∉ suffix.toList)
    (hne : name ≠ other) (hstarts : ¬ startsWith name (ownedName other FILEBEAT) = true) :
    ¬ startsWith (ownedName name suffix) (ownedName other FILEBEAT) = true := by
  intro h
  rw [startsWith_iff] at h
  have hname : name.toList <+: (ownedName name suffix).toList := by
    simp [ownedName]
  rcases List.prefix_or_prefix_of_prefix h hname with hin | ⟨rest, hrest⟩
  · exact hstarts ((startsWith_iff _ _).mpr hin)
  · have htail : rest <+: '-' :: suffix.toList := by
      rw [← hrest] at h
      simpa [ownedName] using h
    cases rest with
    | nil =>
        refine hstarts ((startsWith_iff _ _).mpr ?_)
        rw [← hrest, List.append_nil]
    | cons c rest =>
        obtain ⟨rfl, hrestSuffix⟩ := List.cons_prefix_cons.mp htail
        have hfree : '-' ∉ (String.ofList rest).toList := by
          intro hdash
          rw [String.toList_ofList] at hdash
          exact hsuffix (hrestSuffix.subset hdash)
        have hsplit : ownedName name (String.ofList rest) = ownedName other FILEBEAT := by
          apply String.toList_inj.mp
          rw [← hrest]
          simp [ownedName]
        exact hne ((ownedName_inj hfree (by decide)).mp hsplit).1

/-- A change that configures the config maps does not leave an empty one under a name
that starts as that of its filebeat. -/
theorem get_configMapsAfter_ne (resource : OpenShiftResource) (client : OpenShiftClient)
    {change : ModuleChange} {ns : OpenShiftNamespace} {k : String}
    (hnew : ns.deploymentConfigs.get change.deploymentName = none)
    (hfilebeat : startsWith k (ownedName change.deploymentName FILEBEAT) = true) :
    (change.configMapsAfter resource client ns).get k ≠ some ⟨k, ∅⟩ := by
  have hfilled : ∀ configuration : String,
      toMap [(FILEBEAT_CONFIG_FILE, configuration)] ≠ ∅ := by
    intro configuration hempty
    have hlookup := congrArg (fun configs => configs.lookup FILEBEAT_CONFIG_FILE) hempty
    simp [toMap] at hlookup
  have hwritten : ∀ u : OpenShiftUpdater,
      (if k = ownedName u.name FILEBEAT then u.filebeat.map u.filebeatConfigMap else none) ≠
        some ⟨k, ∅⟩ := by
    intro u
    split
    · cases u.filebeat with
      | none => simp
      | some filebeat =>
          intro hsome
          have hdata := congrArg ConfigMap.data (Option.some.inj hsome)
          exact hfilled _ hdata
    · simp
  cases change with
  | install request =>
      have hget := (installOnOpenShift resource request).get_installedConfigMaps
        ns.configMaps k
      intro hsome
      exact hwritten (installOnOpenShift resource request).podUpdater
        ((hget.trans (if_pos hfilebeat)).symm.trans hsome)
  | update request =>
      have hget := (updateOnOpenShift resource request).get_configuredConfigMaps
        ns.configMaps k
      have hafter : (ModuleChange.update request).configMapsAfter resource client ns =
          (updateOnOpenShift resource request).configuredConfigMaps ns.configMaps := by
        unfold ModuleChange.configMapsAfter OpenShiftUpdater.configMapsAfter
        have hnone : ns.deploymentConfigs.get (updateOnOpenShift resource request).name =
          none := hnew
        simp only [hnone]
      rw [hafter]
      intro hsome
      exact hwritten _ ((hget.trans (if_pos hfilebeat)).symm.trans hsome)

/-- A change keeps the config maps of another module exactly when the names of their
deployments are apart. -/
theorem configMaps_kept_iff (resource : OpenShiftResource) (client : OpenShiftClient)
    (change : ModuleChange) (m : Module) :
    KeepsConfigMaps resource client change m ↔ change.NamesApart m := by
  constructor
  · intro hkeeps name hname
    have hother : ¬ startsWith (ownedName name FILEBEAT)
        (ownedName change.deploymentName FILEBEAT) = true := by
      intro hstarts
      have hbelongs := (belongs_iff resource client m _).mpr ⟨name, hname, .inr rfl⟩
      let ns : OpenShiftNamespace :=
        { emptyNamespace with
          configMaps := Space.empty.put ⟨ownedName name FILEBEAT, ∅⟩ }
      have hget : ns.configMaps.get (ownedName name FILEBEAT) =
          some ⟨ownedName name FILEBEAT, ∅⟩ :=
        Space.get_put_self _ (⟨ownedName name FILEBEAT, ∅⟩ : ConfigMap)
      refine get_configMapsAfter_ne resource client (rfl : ns.deploymentConfigs.get _ = none) hstarts ?_
      rw [hkeeps _ hbelongs ns, hget]
    constructor
    · rintro rfl
      exact hother (startsWith_self _)
    · intro hstarts
      refine hother ((startsWith_iff _ _).mpr ?_)
      refine ((startsWith_iff _ _).mp hstarts).trans ?_
      simp [ownedName]
  · intro hapart k hk ns
    obtain ⟨name, hname, hcases⟩ := (belongs_iff resource client m k).mp hk
    obtain ⟨hne, hstarts⟩ := hapart name hname
    rcases hcases with rfl | rfl
    · refine get_configMapsAfter resource client ns
        (not_startsWith_ownedName (by decide) hne hstarts) ?_
      intro hsame
      exact hne ((ownedName_inj (by decide) (by decide)).mp hsame).1
    · refine get_configMapsAfter resource client ns
        (not_startsWith_ownedName (by decide) hne hstarts) ?_
      intro hsame
      exact hne ((ownedName_inj (by decide) (by decide)).mp hsame).1

/-! ## A neighbour -/

namespace SampleNeighbour

def module (name : String) : Module where
  id := 1
  name := name
  projectId := 1
  externalId := ⟨name, ⟨1, "cluster", .openShift⟩⟩
  resourceId := ⟨1, "cluster", .openShift⟩
  artifact := ⟨name, "1.0", ⟨name ++ ":1.0", ⟨2, "registry", .artifacts⟩⟩⟩
  url := none
  parameters := none
  count := 1
  probesConfiguration := none
  state := .run
  updateTimeStamp := 0
  ports := []
  preparedConfigurations := []
  manualConfigurations := []
  additionalFiles := []
  applications := []

/-- An update of `app` that asks for nothing but its image. -/
def request : AgentModuleUpdateRequest where
  projectId := ⟨"shop", ⟨1, "cluster", .openShift⟩⟩
  skipChangesCheck := none
  newModule := module "app"
  additionalFiles := []
  configurationFiles := []
  applications := none
  probesConfiguration := none

def resource : OpenShiftResource :=
  ⟨1, "apps.example.org"⟩

def client : OpenShiftClient where
  environmentVariables template :=
    (template.containers.head?.map Container.environment).getD []
  dockerImageURI image := image

/-- The namespace with the configuration files of the module `app-filebeat`. -/
def ns : OpenShiftNamespace :=
  { emptyNamespace with
    configMaps := Space.empty.put ⟨"app-filebeat-configs", toMap [("application.yml", "")]⟩ }

/-- Whether the module still has its configuration files after an update of `app`. -/
def keptAfterUpdate : Except Failure Bool :=
  ((updateOnOpenShift resource request).updateDeployment client ⟨"k3jQ81xz", ""⟩ ns).map
    fun ns' => (ns'.configMaps.get "app-filebeat-configs").isSome

end SampleNeighbour

/-- The update of `app` deletes the configuration files of `app-filebeat`. -/
theorem neighbour_loses_configMap :
    (SampleNeighbour.ns.configMaps.get "app-filebeat-configs").isSome = true ∧
      SampleNeighbour.keptAfterUpdate = .ok false ∧
      ¬ KeepsConfigMaps SampleNeighbour.resource SampleNeighbour.client
        (.update SampleNeighbour.request) (SampleNeighbour.module "app-filebeat") := by
  refine ⟨by decide +kernel, by decide +kernel, ?_⟩
  intro hkeeps
  have hbelongs : Belongs SampleNeighbour.resource SampleNeighbour.client
      (SampleNeighbour.module "app-filebeat") "app-filebeat-configs" :=
    (belongs_iff _ _ _ _).mpr ⟨"app-filebeat", by decide, .inl (by decide)⟩
  have hsame := congrArg Option.isSome (hkeeps _ hbelongs SampleNeighbour.ns)
  revert hsame
  decide +kernel

end Agent

end ArtPlatform
