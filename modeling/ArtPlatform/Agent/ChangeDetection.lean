import ArtPlatform.Agent.OpenShiftUpdater

/-!
# Change detection

The check before an update and the update itself look at a deployment with different
eyes.  Here the two ways of an update are compared by the objects of the module that
they leave behind: replicas, the containers of the module and of its applications,
volumes, config maps, secrets, services and routes, the random values of the trigger
variables left out.

Replica count, configuration files, service and route never tell the two ways apart.
The rest is what the comparisons may overlook: they ask for one common port, they
never look at probes, volumes and mounts, they take an absent file for an empty one,
and they compare pods where the update writes the template.

Main results:

- Theorem `sameModule_fullUpdate`: the random values do not matter.
- Theorem `changeDetection_agrees_iff`: exactly when the checked update agrees with
  the unchecked one.
- Theorem `added_port_overlooked`: a port added to a module with another port is never
  opened by the checked update.
-/

namespace ArtPlatform

namespace Agent

open OpenShiftUpdater

/-! ## What is compared -/

/-- What a container is compared by. -/
structure ContainerView where
  image : String
  arguments : List String
  ports : Finset ContainerPort
  environment : StringMap String
  volumeMounts : Finset VolumeMount
  livenessProbe : Option Probe
  readinessProbe : Option Probe
deriving DecidableEq

def Container.view (container : Container) : ContainerView where
  image := container.image
  arguments := container.commandArgs.getD []
  ports := container.ports
  environment := toMap (eraseTriggers container.environment)
  volumeMounts := container.volumeMounts
  livenessProbe := container.livenessProbe
  readinessProbe := container.readinessProbe

/-- The container of a name, as it is compared. -/
def PodTemplate.containerView (template : PodTemplate) (name : String) :
    Option ContainerView :=
  (template.containers.find? fun container => container.name = name).map Container.view

/-- The same module container, application container and volumes. -/
structure SameTemplate (name : String) (t t' : PodTemplate) : Prop where
  moduleContainer : t.containerView name = t'.containerView name
  applicationContainer : t.containerView FILEBEAT = t'.containerView FILEBEAT
  volumes : t.volumes = t'.volumes

/-- The deployments of one module in two namespaces. -/
structure SameDeployment (name : String) (d d' : DeploymentConfig) : Prop where
  replicas : d.replicas = d'.replicas
  template : SameTemplate name d.template d'.template

/-- Two namespaces with the same objects of a module. -/
structure SameModule (name : String) (ns ns' : OpenShiftNamespace) : Prop where
  deployment : Option.Rel (SameDeployment name) (ns.deploymentConfigs.get name)
    (ns'.deploymentConfigs.get name)
  configMaps : ∀ k, ns.configMaps.get k = ns'.configMaps.get k
  secrets : ∀ k, ns.secrets.get k = ns'.secrets.get k
  services : ∀ k, ns.services.get k = ns'.services.get k
  routes : ∀ k, ns.routes.get k = ns'.routes.get k

/-! ## Trigger values -/

/-- What is compared of a template depends on the names and views of its containers. -/
theorem containerView_congr {t t' : PodTemplate}
    (h : t.containers.map (fun container => (container.name, container.view)) =
      t'.containers.map fun container => (container.name, container.view)) (name : String) :
    t.containerView name = t'.containerView name := by
  have hnamed : ∀ template : PodTemplate, template.containerView name =
      ((template.containers.map fun container => (container.name, container.view)).find?
        fun named => named.1 = name).map Prod.snd := by
    intro template
    rw [List.find?_map, Option.map_map]
    rfl
  rw [hnamed, hnamed, h]

theorem map_putContainer_congr {β : Type} {f : Container → β} (containers : List Container)
    {c c' : Container} (hname : c.name = c'.name) (hf : f c = f c') :
    (putContainer containers c).map f = (putContainer containers c').map f := by
  unfold putContainer
  rw [hname]
  split
  · rw [List.map_map, List.map_map]
    refine List.map_congr_left fun d _ => ?_
    simp only [Function.comp]
    split
    · exact hf
    · rfl
  · rw [List.map_append, List.map_append, List.map_singleton, List.map_singleton, hf]

section Triggers

variable (u : OpenShiftUpdater) (triggers triggers' : Triggers)

theorem eraseTriggers_configuredVariables :
    eraseTriggers (u.configuredVariables triggers) =
      eraseTriggers (u.configuredVariables triggers') := by
  have hdeployment : isTrigger DEPLOYMENT_TRIGGER_VARIABLE_NAME = true := by decide +kernel
  have hfilebeat : isTrigger (APPLICATION_TRIGGER ++ "-" ++ FILEBEAT) = true := by
    decide +kernel
  unfold configuredVariables
  cases u.filebeat with
  | none => simp only [eraseTriggers_putEntry _ hdeployment]
  | some filebeat =>
      simp only [eraseTriggers_putEntry _ hdeployment, eraseTriggers_putEntry _ hfilebeat]

/-- The random values do not show in the template that is configured. -/
theorem sameTemplate_podConfiguration :
    SameTemplate u.name (buildPod (u.podConfiguration triggers))
      (buildPod (u.podConfiguration triggers')) := by
  have hcontainers : (buildPod (u.podConfiguration triggers)).containers.map
        (fun container => (container.name, container.view)) =
      (buildPod (u.podConfiguration triggers')).containers.map
        fun container => (container.name, container.view) := by
    simp only [buildPod, podConfiguration, List.map_map]
    refine map_putContainer_congr _ rfl ?_
    simp only [Function.comp, Container.view, moduleContainer,
      eraseTriggers_configuredVariables u triggers triggers']
  exact ⟨containerView_congr hcontainers u.name, containerView_congr hcontainers FILEBEAT, rfl⟩

end Triggers

/-! ## The two ways compared -/

namespace SameTemplate

variable {name : String} {t t' t'' : PodTemplate}

theorem symm (h : SameTemplate name t t') : SameTemplate name t' t :=
  ⟨h.moduleContainer.symm, h.applicationContainer.symm, h.volumes.symm⟩

theorem trans (h : SameTemplate name t t') (h' : SameTemplate name t' t'') :
    SameTemplate name t t'' :=
  ⟨h.moduleContainer.trans h'.moduleContainer,
    h.applicationContainer.trans h'.applicationContainer, h.volumes.trans h'.volumes⟩

end SameTemplate

/-- An update of a deployment config writes nothing else. -/
theorem updateDeploymentConfig_frame (name : String)
    (configuration : OpenShiftDeploymentConfiguration) (ns : OpenShiftNamespace) :
    updateDeploymentConfig name configuration ns =
      { ns with
        deploymentConfigs := (updateDeploymentConfig name configuration ns).deploymentConfigs } := by
  unfold updateDeploymentConfig
  split
  · rfl
  · rfl

/-- The deployment config after its update. -/
theorem get_updateDeploymentConfig (name : String)
    (configuration : OpenShiftDeploymentConfiguration) (ns : OpenShiftNamespace) :
    ∃ updated, (updateDeploymentConfig name configuration ns).deploymentConfigs.get name =
        some updated ∧ updated.replicas = configuration.replicas ∧
      (configuration.podConfiguration.containers ≠ [] →
        updated.template = buildPod configuration.podConfiguration) ∧
      ∀ current, ns.deploymentConfigs.get name = some current →
        configuration.podConfiguration.containers = [] → updated.template = current.template := by
  unfold updateDeploymentConfig
  cases hget : ns.deploymentConfigs.get name with
  | some current =>
      have hname : current.name = name := Space.key_of_get hget
      refine ⟨{ current with
        replicaSelector := configuration.replicaSelector
        replicas := configuration.replicas
        template :=
          if configuration.podConfiguration.containers = [] then current.template
          else buildPod configuration.podConfiguration }, ?_, rfl, ?_, ?_⟩
      · subst hname
        exact Space.get_put_self _ _
      · intro hne
        exact if_neg hne
      · intro current' hcurrent hnil
        cases hcurrent
        exact if_pos hnil
  | none =>
      refine ⟨buildDeploymentConfig name configuration, Space.get_put_self _ _, rfl, ?_, ?_⟩
      · intro _
        rfl
      · intro current hcurrent
        cases hcurrent

section Ways

variable (u : OpenShiftUpdater) (triggers triggers' : Triggers) (ns : OpenShiftNamespace)

theorem podConfiguration_containers_ne_nil :
    (u.podConfiguration triggers).containers ≠ [] := by
  simp only [podConfiguration]
  unfold putContainer
  split
  · rename_i hmem
    intro hnil
    rw [List.map_eq_nil_iff] at hnil
    rw [hnil] at hmem
    cases hmem
  · simp

/-- Two full updates leave the same module, whatever their random values. -/
theorem sameModule_fullUpdate (h : u.ports = [] → u.routePath = none) :
    Agrees (SameModule u.name) (u.fullUpdate triggers ns) (u.fullUpdate triggers' ns) := by
  rw [u.fullUpdate_eq _ _ h, u.fullUpdate_eq _ _ h, agrees_map_iff]
  intro routes _
  rw [updateDeploymentConfig_frame _ (u.deploymentConfiguration triggers),
    updateDeploymentConfig_frame _ (u.deploymentConfiguration triggers')]
  refine ⟨?_, fun _ => rfl, fun _ => rfl, fun _ => rfl, fun _ => rfl⟩
  obtain ⟨d, hd, hreplicas, htemplate, -⟩ := get_updateDeploymentConfig u.name
    (u.deploymentConfiguration triggers) _
  obtain ⟨d', hd', hreplicas', htemplate', -⟩ := get_updateDeploymentConfig u.name
    (u.deploymentConfiguration triggers') _
  rw [hd, hd']
  refine .some ⟨hreplicas.trans hreplicas'.symm, ?_⟩
  rw [htemplate (podConfiguration_containers_ne_nil u triggers),
    htemplate' (podConfiguration_containers_ne_nil u triggers')]
  exact sameTemplate_podConfiguration u triggers triggers'

/-- What the two ways leave is the same exactly when the template, the config maps and
the secrets are already as the full update would configure them. -/
theorem agrees_fastUpdate_iff (h : u.ports = [] → u.routePath = none)
    {current : DeploymentConfig} (hcurrent : ns.deploymentConfigs.get u.name = some current) :
    Agrees (SameModule u.name) (u.fastUpdate current ns) (u.fullUpdate triggers ns) ↔
      ∀ routes, u.updatedRoutes ns.routes = .ok routes →
        SameTemplate u.name current.template (buildPod (u.podConfiguration triggers)) ∧
        (∀ k, ns.configMaps.get k = (u.configuredConfigMaps ns.configMaps).get k) ∧
        ∀ k, ns.secrets.get k = (u.configuredFiles ns.secrets).get k := by
  rw [u.fullUpdate_eq _ _ h, u.fastUpdate_eq, agrees_map_iff]
  refine forall_congr' fun routes => imp_congr_right fun _ => ?_
  rw [updateDeploymentConfig_frame _ (u.deploymentConfiguration triggers)]
  obtain ⟨full, hfull, hfullReplicas, hfullTemplate, -⟩ := get_updateDeploymentConfig u.name
    (u.deploymentConfiguration triggers)
    { ns with
      configMaps := u.configuredConfigMaps ns.configMaps
      secrets := u.configuredFiles ns.secrets
      services := u.updatedServices ns.services
      routes := routes }
  -- The fast way sets the replicas and keeps the template and the other objects.
  obtain ⟨fast, hfast, hfastReplicas, hfastTemplate⟩ : ∃ fast,
      (if current.replicas ≠ u.replicationsCount then
        updateDeploymentConfig u.name { replicas := u.replicationsCount } ns
        else ns).deploymentConfigs.get u.name = some fast ∧
      fast.replicas = u.replicationsCount ∧ fast.template = current.template := by
    split
    · obtain ⟨fast, hfast, hreplicas, -, htemplate⟩ := get_updateDeploymentConfig u.name
        { replicas := u.replicationsCount } ns
      exact ⟨fast, hfast, hreplicas, htemplate current hcurrent rfl⟩
    · rename_i hreplicas
      exact ⟨current, hcurrent, not_not.mp hreplicas, rfl⟩
  have hframe : (if current.replicas ≠ u.replicationsCount then
        updateDeploymentConfig u.name { replicas := u.replicationsCount } ns
        else ns).configMaps = ns.configMaps ∧
      (if current.replicas ≠ u.replicationsCount then
        updateDeploymentConfig u.name { replicas := u.replicationsCount } ns
        else ns).secrets = ns.secrets := by
    split
    · rw [updateDeploymentConfig_frame]
      exact ⟨rfl, rfl⟩
    · exact ⟨rfl, rfl⟩
  have htemplate := hfullTemplate (podConfiguration_containers_ne_nil u triggers)
  constructor
  · intro hsame
    have hdeployment := hsame.deployment
    simp only [hfast, hfull] at hdeployment
    cases hdeployment with
    | some hdeployment =>
        refine ⟨?_, ?_, ?_⟩
        · have hsameTemplate := hdeployment.template
          rwa [hfastTemplate, htemplate] at hsameTemplate
        · intro k
          have hk := hsame.configMaps k
          rwa [hframe.1] at hk
        · intro k
          have hk := hsame.secrets k
          rwa [hframe.2] at hk
  · rintro ⟨hsameTemplate, hconfigMaps, hsecrets⟩
    refine ⟨?_, ?_, ?_, fun _ => rfl, fun _ => rfl⟩
    · simp only [hfast, hfull]
      refine .some ⟨hfastReplicas.trans hfullReplicas.symm, ?_⟩
      rwa [hfastTemplate, htemplate]
    · intro k
      rw [hframe.1]
      exact hconfigMaps k
    · intro k
      rw [hframe.2]
      exact hsecrets k

end Ways

/-! ## What the comparisons leave open -/

namespace OpenShiftUpdater

variable (client : OpenShiftClient) (u : OpenShiftUpdater) (current : DeploymentConfig)
  (ns : OpenShiftNamespace)

/-- What the comparisons do not establish is already as the update would configure it:
the template, the config maps under names of applications, no empty config map where
no configuration files are requested, and a key in the secret for every empty file. -/
structure UpToDate : Prop where
  template : SameTemplate u.name current.template (buildPod (u.podConfiguration ⟨"", ""⟩))
  applications : ∀ k, startsWith k (ownedName u.name FILEBEAT) = true →
    ns.configMaps.get k =
      if k = ownedName u.name FILEBEAT then u.filebeat.map u.filebeatConfigMap else none
  configs : u.configs = ∅ → ns.configMaps.get (ownedName u.name CONFIGS_CAMEL_CASE) = none
  emptyFiles : ∀ secret, ns.secrets.get (ownedName u.name FILES_CAMEL_CASE) = some secret →
    ∀ k, u.files.lookup k = some [] → k ∈ secret.data

/-- The port of the route can be read where it is compared. -/
def RouteReadable : Prop :=
  ∀ path, u.routePath.filter (fun path => !isBlank path) = some path →
    ∀ route, ns.routes.get u.name = some route → route.host = u.hostName path →
      route.path = extractPath path "" → route.port ≠ none

/-- The check of an existing deployment does not fail, and where it finds no changes
the objects that it does not establish are up to date. -/
def ChangesDetected : Prop :=
  ∀ current, ns.deploymentConfigs.get u.name = some current → u.RouteReadable ns →
    u.unchanged client current ns = .ok false ∨
      u.unchanged client current ns = .ok true ∧ u.UpToDate current ns

theorem routeEquals_ok_iff (path : String) (targetPort : Nat) (route : Route) :
    (∃ b, u.routeEquals path targetPort route = .ok b) ↔
      (route.host = u.hostName path → route.path = extractPath path "" →
        route.port ≠ none) := by
  unfold routeEquals
  by_cases hsame : route.host = u.hostName path ∧ route.path = extractPath path ""
  · cases hport : route.port with
    | none => simp [hsame]
    | some port => simp [hsame]
  · refine iff_of_true ⟨false, by simp [hsame]⟩ ?_
    intro hhost hpath
    exact absurd ⟨hhost, hpath⟩ hsame

theorem updatedRoutes_ok_iff (h : u.routePath.isSome = true → u.routeTargetPort.isSome = true) :
    (∃ routes, u.updatedRoutes ns.routes = .ok routes) ↔ u.RouteReadable ns := by
  unfold updatedRoutes RouteReadable
  cases hpath : u.routePath.filter fun path => !isBlank path with
  | none => simp
  | some path =>
      have hsome : u.routePath.isSome = true :=
        Option.isSome_iff_exists.mpr ⟨path, (Option.filter_eq_some_iff.mp hpath).1⟩
      obtain ⟨port, hport⟩ := Option.isSome_iff_exists.mp (h hsome)
      have htarget : u.targetPort = .ok port := by
        unfold targetPort
        rw [hport]
      rw [htarget]
      refine (exists_bind_eq_ok_iff (x := u.currentRouteEquals path port ns.routes)
        fun b => ?_).trans ?_
      · split
        · exact ⟨_, rfl⟩
        · exact ⟨_, rfl⟩
      · unfold currentRouteEquals
        cases hroute : ns.routes.get u.name with
        | none => simp
        | some route =>
            refine (u.routeEquals_ok_iff path port route).trans ?_
            constructor
            · intro hreadable path' hpath' route' hroute'
              cases hpath'
              cases hroute'
              exact hreadable
            · intro hreadable
              exact hreadable path rfl route rfl

/-- The comparison of the configuration files finds every difference but one: an empty
config map passes for none. -/
theorem get_configs_eq_iff (h : u.configsEquals ns = true) (k : String) :
    ns.configMaps.get k = (u.configuredConfigs ns.configMaps).get k ↔
      (k = ownedName u.name CONFIGS_CAMEL_CASE → u.configs = ∅ →
        ns.configMaps.get k = none) := by
  rw [get_configuredConfigs]
  by_cases hk : k = ownedName u.name CONFIGS_CAMEL_CASE
  · subst hk
    unfold configsEquals at h
    cases hget : ns.configMaps.get (ownedName u.name CONFIGS_CAMEL_CASE) with
    | none =>
        have hnil : u.configs = ∅ := by simpa [hget] using h
        simp [hnil]
    | some configMap =>
        have hdata : configMap.data = u.configs := by simpa [hget] using h
        have hname : configMap.name = ownedName u.name CONFIGS_CAMEL_CASE :=
          Space.key_of_get hget
        by_cases hnil : u.configs = ∅
        · simp [hnil]
        · simp only [hnil, ↓reduceIte, Option.some.injEq, IsEmpty.forall_iff, implies_true,
            iff_true]
          rw [← hdata, ← hname]
  · simp [hk]

/-- A secret of the right size whose contents are those of the files has the files,
once every empty file has a key. -/
theorem secret_data_eq_iff {secret : Secret} (hsize : secret.size = u.files.keys.card)
    (hcontent : ∀ k ∈ u.files.keys, u.files.lookup k = some (secret.extractSecretData k)) :
    secret.data = u.files ↔ ∀ k, u.files.lookup k = some [] → k ∈ secret.data := by
  constructor
  · intro hdata k hk
    rw [hdata]
    exact Finmap.mem_of_lookup_eq_some hk
  · intro hempty
    have hsubset : u.files.keys ⊆ secret.data.keys := by
      intro k hk
      rw [Finmap.mem_keys]
      have hlookup := hcontent k hk
      cases hdata : secret.data.lookup k with
      | none =>
          refine absurd (hempty k ?_) (Finmap.lookup_eq_none.mp hdata)
          rw [hlookup, Secret.extractSecretData, hdata]
          rfl
      | some content => exact Finmap.mem_of_lookup_eq_some hdata
    have hkeys : u.files.keys = secret.data.keys :=
      Finset.eq_of_subset_of_card_le hsubset (Nat.le_of_eq hsize)
    refine Finmap.ext_lookup fun k => ?_
    by_cases hk : k ∈ u.files.keys
    · rw [hcontent k hk, Secret.extractSecretData]
      rw [hkeys, Finmap.mem_keys, ← Finmap.lookup_isSome] at hk
      obtain ⟨content, hlookup⟩ := Option.isSome_iff_exists.mp hk
      rw [hlookup]
      rfl
    · have hnot : k ∉ secret.data.keys := hkeys ▸ hk
      rw [Finmap.mem_keys] at hk hnot
      rw [Finmap.lookup_eq_none.mpr hk, Finmap.lookup_eq_none.mpr hnot]

/-- The comparison of the files finds every difference but one: an empty file passes
for an absent one. -/
theorem get_files_eq_iff (h : u.filesEquals ns = true) :
    (∀ k, ns.secrets.get k = (u.configuredFiles ns.secrets).get k) ↔
      ∀ secret, ns.secrets.get (ownedName u.name FILES_CAMEL_CASE) = some secret →
        ∀ k, u.files.lookup k = some [] → k ∈ secret.data := by
  have hkey : (∀ k, ns.secrets.get k = (u.configuredFiles ns.secrets).get k) ↔
      ns.secrets.get (ownedName u.name FILES_CAMEL_CASE) =
        if u.files = ∅ then none else some ⟨ownedName u.name FILES_CAMEL_CASE, u.files⟩ := by
    simp only [get_configuredFiles]
    constructor
    · intro hall
      simpa using hall (ownedName u.name FILES_CAMEL_CASE)
    · intro hone k
      split
      · rename_i hk
        subst hk
        exact hone
      · rfl
  rw [hkey]
  unfold filesEquals at h
  cases hget : ns.secrets.get (ownedName u.name FILES_CAMEL_CASE) with
  | none =>
      have hnil : u.files = ∅ := by simpa [hget] using h
      simp [hnil]
  | some secret =>
      have hname : secret.name = ownedName u.name FILES_CAMEL_CASE := Space.key_of_get hget
      simp only [hget, Bool.and_eq_true, decide_eq_true_eq] at h
      obtain ⟨⟨hne, hsize⟩, hcontent⟩ := h
      rw [if_neg hne, Option.some.injEq]
      constructor
      · rintro heq secret' hsecret'
        cases hsecret'
        exact (u.secret_data_eq_iff hsize hcontent).mp (congrArg Secret.data heq)
      · intro hempty
        have hdata := (u.secret_data_eq_iff hsize hcontent).mpr (hempty secret rfl)
        rw [← hdata, ← hname]

theorem equals_of_unchanged (h : u.unchanged client current ns = .ok true) :
    u.configsEquals ns = true ∧ u.filesEquals ns = true := by
  rcases exists_of_bind_eq_ok h with ⟨podEquals, -, hok⟩
  simp only [pure, Except.pure, Except.ok.injEq, Bool.and_eq_true] at hok
  exact ⟨hok.1.1.1.2, hok.1.1.2⟩

/-- After a check that found no changes the fast way agrees exactly when what the check
does not establish is up to date. -/
theorem agrees_fastUpdate_iff_upToDate (triggers : Triggers)
    (h : u.ports = [] → u.routePath = none) {routes : Space Route}
    (hroutes : u.updatedRoutes ns.routes = .ok routes)
    (hcurrent : ns.deploymentConfigs.get u.name = some current)
    (hunchanged : u.unchanged client current ns = .ok true) :
    Agrees (SameModule u.name) (u.fastUpdate current ns) (u.fullUpdate triggers ns) ↔
      u.UpToDate current ns := by
  obtain ⟨hconfigs, hfiles⟩ := equals_of_unchanged client u current ns hunchanged
  have htriggers := sameTemplate_podConfiguration u triggers ⟨"", ""⟩
  have hnames : startsWith (ownedName u.name CONFIGS_CAMEL_CASE) (ownedName u.name FILEBEAT) =
      false := by
    have hdistinct : startsWith CONFIGS_CAMEL_CASE FILEBEAT = false := by decide +kernel
    exact (startsWith_append _ _ _).trans hdistinct
  rw [agrees_fastUpdate_iff u triggers ns h hcurrent]
  constructor
  · intro hsame
    obtain ⟨htemplate, hconfigMaps, hsecrets⟩ := hsame routes hroutes
    refine ⟨htemplate.trans htriggers, ?_, ?_, (u.get_files_eq_iff ns hfiles).mp hsecrets⟩
    · intro k hk
      rw [hconfigMaps k, get_configuredConfigMaps, if_pos hk]
    · have hk := hconfigMaps (ownedName u.name CONFIGS_CAMEL_CASE)
      rw [get_configuredConfigMaps, hnames] at hk
      exact (u.get_configs_eq_iff ns hconfigs _).mp hk rfl
  · intro hupToDate routes' _
    refine ⟨hupToDate.template.trans htriggers.symm, ?_,
      (u.get_files_eq_iff ns hfiles).mpr hupToDate.emptyFiles⟩
    intro k
    rw [get_configuredConfigMaps]
    split
    · rename_i hk
      exact hupToDate.applications k hk
    · refine (u.get_configs_eq_iff ns hconfigs k).mpr ?_
      rintro rfl hnil
      exact hupToDate.configs hnil

/-- A checked update against the full update of the same updater. -/
theorem updateDeployment_agrees_iff (triggers triggers' : Triggers)
    (hskip : u.skipChangesCheck = false) (hports : u.ports = [] → u.routePath = none)
    (hroute : u.routePath.isSome = true → u.routeTargetPort.isSome = true) :
    Agrees (SameModule u.name) (u.updateDeployment client triggers ns)
        (u.fullUpdate triggers' ns) ↔
      u.ChangesDetected client ns := by
  have hfull := sameModule_fullUpdate u triggers triggers' ns hports
  cases hget : ns.deploymentConfigs.get u.name with
  | none =>
      rw [u.updateDeployment_eq_fullUpdate triggers ns client (.inl hget)]
      refine iff_of_true hfull ?_
      intro current hcurrent
      rw [hget] at hcurrent
      cases hcurrent
  | some current =>
      have hsucceeds : (∃ r, u.fullUpdate triggers' ns = .ok r) ↔ u.RouteReadable ns := by
        rw [← u.updatedRoutes_ok_iff ns hroute, u.fullUpdate_eq triggers' ns hports]
        exact exists_map_eq_ok_iff
      rw [u.updateDeployment_eq_shortcut triggers ns client hget hskip,
        agrees_shortcut_iff hfull]
      constructor
      · intro h current' hcurrent' hreadable
        obtain rfl : current = current' := Option.some.inj (hget.symm.trans hcurrent')
        obtain ⟨r, hr⟩ := hsucceeds.mpr hreadable
        obtain ⟨routes, hroutes⟩ := (u.updatedRoutes_ok_iff ns hroute).mpr hreadable
        refine (h r hr).imp_right ?_
        rintro ⟨hunchanged, hfast⟩
        exact ⟨hunchanged, (u.agrees_fastUpdate_iff_upToDate client current ns triggers'
          hports hroutes hget hunchanged).mp hfast⟩
      · intro h r hr
        have hreadable := hsucceeds.mp ⟨r, hr⟩
        obtain ⟨routes, hroutes⟩ := (u.updatedRoutes_ok_iff ns hroute).mpr hreadable
        refine (h current hget hreadable).imp_right ?_
        rintro ⟨hunchanged, hupToDate⟩
        exact ⟨hunchanged, (u.agrees_fastUpdate_iff_upToDate client current ns triggers'
          hports hroutes hget hunchanged).mpr hupToDate⟩

end OpenShiftUpdater

/-! ## The check and the update -/

/-- The checked update of a module agrees with the unchecked one exactly when the check
does not fail and, where it finds no changes, all that it does not establish is already
as the update would configure it. -/
theorem changeDetection_agrees_iff (client : OpenShiftClient) (resource : OpenShiftResource)
    (request : AgentModuleUpdateRequest) (triggers triggers' : Triggers)
    (ns : OpenShiftNamespace) :
    Agrees (SameModule request.newModule.name)
        ((updateOnOpenShift resource
          { request with skipChangesCheck := some false }).updateDeployment client triggers ns)
        ((updateOnOpenShift resource
          { request with skipChangesCheck := some true }).updateDeployment client triggers' ns) ↔
      (updateOnOpenShift resource
        { request with skipChangesCheck := some false }).ChangesDetected client ns := by
  have hunchecked : (updateOnOpenShift resource
      { request with skipChangesCheck := some true }).updateDeployment client triggers' ns =
      (updateOnOpenShift resource
        { request with skipChangesCheck := some false }).fullUpdate triggers' ns :=
    updateDeployment_eq_fullUpdate _ triggers' ns client (.inr rfl)
  rw [hunchecked]
  refine updateDeployment_agrees_iff client (updateOnOpenShift resource
    { request with skipChangesCheck := some false }) ns triggers triggers' rfl ?_ ?_
  · exact routePath_eq_none_of_ports_eq_nil resource _
  · simp [updateOnOpenShift]

/-! ## A port that is never opened -/

namespace SampleModule

/-- A client that reports the variables of the first container. -/
def client : OpenShiftClient where
  environmentVariables := fun template =>
    (template.containers.head?.map Container.environment).getD []
  dockerImageURI := id

def resource : OpenShiftResource :=
  ⟨1, "apps.example"⟩

/-- A module that serves some ports. -/
def serving (ports : List Nat) : Module where
  id := 1
  name := "app"
  projectId := 1
  externalId := ⟨"app", ⟨1, "openshift", .openShift⟩⟩
  resourceId := ⟨1, "openshift", .openShift⟩
  artifact := ⟨"app", "1", ⟨"registry/shop/app:1", ⟨1, "openshift", .openShift⟩⟩⟩
  url := none
  parameters := none
  count := 1
  probesConfiguration := none
  updateTimeStamp := 0
  ports := ports
  preparedConfigurations := []
  manualConfigurations := []
  additionalFiles := []
  applications := []

def requesting (ports : List Nat) : AgentModuleUpdateRequest where
  projectId := ⟨"shop", ⟨1, "openshift", .openShift⟩⟩
  skipChangesCheck := none
  newModule := serving ports
  additionalFiles := []
  configurationFiles := []
  applications := none
  probesConfiguration := none

/-- The module deployed with port 8080, and its pod. -/
def deployed : OpenShiftNamespace :=
  let template := buildPod
    ((updateOnOpenShift resource (requesting [8080])).podConfiguration ⟨"k3jQ81xz", ""⟩)
  { deploymentConfigs := Space.empty.put
      { name := "app", replicas := 1, replicaSelector := ∅, template := template }
    pods := [⟨"app-1-x7k2p", template.containers⟩]
    configMaps := Space.empty
    secrets := Space.empty
    services := Space.empty
    routes := Space.empty }

/-- The ports that the module's container opens. -/
def openPorts (ns : OpenShiftNamespace) : Option (Finset ContainerPort) :=
  (ns.deploymentConfigs.get "app").bind fun deploymentConfig =>
    (deploymentConfig.template.containerView "app").map ContainerView.ports

theorem openPorts_eq {ns ns' : OpenShiftNamespace} (h : SameModule "app" ns ns') :
    openPorts ns = openPorts ns' := by
  unfold openPorts
  have hdeployment := h.deployment
  revert hdeployment
  generalize ns.deploymentConfigs.get "app" = d
  generalize ns'.deploymentConfigs.get "app" = d'
  intro hdeployment
  cases hdeployment with
  | none => rfl
  | some hsame =>
      simp only [Option.bind_some]
      rw [hsame.template.moduleContainer]

end SampleModule

/-- A port added to a module that keeps another port is never opened by the checked
update. -/
theorem added_port_overlooked :
    ¬ ∀ (client : OpenShiftClient) (resource : OpenShiftResource)
      (request : AgentModuleUpdateRequest) (triggers triggers' : Triggers)
      (ns : OpenShiftNamespace),
      Agrees (SameModule request.newModule.name)
        ((updateOnOpenShift resource
          { request with skipChangesCheck := some false }).updateDeployment client triggers ns)
        ((updateOnOpenShift resource
          { request with skipChangesCheck := some true }).updateDeployment client triggers'
            ns) := by
  intro h
  have hagrees := h SampleModule.client SampleModule.resource
    (SampleModule.requesting [8080, 9090]) ⟨"a", "b"⟩ ⟨"c", "d"⟩ SampleModule.deployed
  have hports : ((updateOnOpenShift SampleModule.resource
        { SampleModule.requesting [8080, 9090] with
          skipChangesCheck := some false }).updateDeployment
            SampleModule.client ⟨"a", "b"⟩ SampleModule.deployed).toOption.bind
              SampleModule.openPorts ≠
      ((updateOnOpenShift SampleModule.resource
        { SampleModule.requesting [8080, 9090] with
          skipChangesCheck := some true }).updateDeployment
            SampleModule.client ⟨"c", "d"⟩ SampleModule.deployed).toOption.bind
              SampleModule.openPorts := by
    decide +kernel
  obtain ⟨r, hr⟩ : ∃ r, (updateOnOpenShift SampleModule.resource
      { SampleModule.requesting [8080, 9090] with
        skipChangesCheck := some true }).updateDeployment
          SampleModule.client ⟨"c", "d"⟩ SampleModule.deployed = .ok r := ⟨_, rfl⟩
  obtain ⟨s, hs, hsame⟩ := hagrees r hr
  rw [hs, hr] at hports
  exact hports (SampleModule.openPorts_eq hsame)

end Agent

end ArtPlatform
