import ArtPlatform.Agent.OpenShiftUpdater

/-!
# Installing a module on OpenShift

The agent turns a request to install a module into an installer.  The installer
deletes the config maps of the module's applications and its deployment config, and
configures the pod as the updater does, except that it leaves the config map and the
secret of an earlier deployment in place when it has no files for them.

An update looks for its deployment by the name of the module, an installation by the
id of its external identifier.

Main results:

- Theorem `get_installedConfigMaps`: the config maps after an installation.
-/

namespace ArtPlatform

namespace Agent

structure AgentModuleInstallRequest where
  projectId : ExternalIdentifier
  module : Module
  additionalFiles : List PlatformFile
  configurationFiles : List StringFile
  applications : Option ModuleApplications
  probesConfiguration : Option ProbesConfiguration

structure OpenShiftInstaller where
  resource : OpenShiftResource
  name : String
  image : String
  workingDirectory : String
  routePath : Option String := none
  routeTargetPort : Option Nat := none
  containerArgumentsString : Option String := none
  replicationsCount : Nat
  ports : List Nat := []
  files : StringMap (List UInt8) := ∅
  configs : StringMap String := ∅
  environmentVariables : List (String × String) := []
  applications : Option ModuleApplications := none
  probes : OpenShiftProbes := {}

/-- The port of the published address, and the other ports. -/
def installedPorts (m : Module) : List Nat :=
  let published := ((publishedUrl m).map ModuleUrl.port).toList
  m.ports.foldl (fun ports port => if port ∈ ports then ports else ports ++ [port]) published

/-- The installer of a request, as the module manager fills it in. -/
def installOnOpenShift (resource : OpenShiftResource) (request : AgentModuleInstallRequest) :
    OpenShiftInstaller where
  resource := resource
  name := request.module.externalId.id
  image := request.module.artifact.externalId.id
  workingDirectory :=
    "/module/" ++ request.projectId.id ++ "/" ++ request.module.artifact.name
  replicationsCount := request.module.count
  applications := request.applications
  probes := requestedProbes request.probesConfiguration
  routePath := (publishedUrl request.module).map ModuleUrl.url
  routeTargetPort := (publishedUrl request.module).map ModuleUrl.port
  containerArgumentsString :=
    request.module.parameters.filter fun parameters => !isBlank parameters
  ports := installedPorts request.module
  files := toMap (request.additionalFiles.map fun file => (file.name, file.bytes))
  configs := toMap (request.configurationFiles.map fun file => (file.name, file.content))

namespace OpenShiftInstaller

variable (i : OpenShiftInstaller)

/-- The updater with the fields from which both configure the pod and its route. -/
def podUpdater : OpenShiftUpdater where
  resource := i.resource
  name := i.name
  image := i.image
  workingDirectory := i.workingDirectory
  routePath := i.routePath
  routeTargetPort := i.routeTargetPort
  containerArgumentString := i.containerArgumentsString
  replicationsCount := i.replicationsCount
  ports := i.ports.map fun port => PortMapping.mk port none
  files := i.files
  configs := i.configs
  environmentVariables := i.environmentVariables
  applications := i.applications
  probes := i.probes

/-- The config map of an earlier deployment stays when there are no files. -/
def configuredConfigs (configMaps : Space ConfigMap) : Space ConfigMap :=
  if i.configs = ∅ then configMaps else i.podUpdater.configuredConfigs configMaps

def configuredFiles (secrets : Space Secret) : Space Secret :=
  if i.files = ∅ then secrets else i.podUpdater.configuredFiles secrets

/-- The ports of all containers; filebeat's container is replaced by a module's of its
name. -/
def servedPorts : List Nat :=
  ((i.podUpdater.filebeat.filter fun _ => i.name ≠ FILEBEAT).map
    FilebeatModuleApplication.port).toList ++ i.ports

def configuredService : Service where
  name := i.name
  type := .nodePort
  clusterIP := none
  selector := toMap [(POD_GROUP, i.name)]
  ports :=
    (i.servedPorts.foldl (fun entries port =>
        putEntry entries (OpenShiftUpdater.servicePortName port) port) []).map
      fun entry => ⟨entry.1, entry.2, entry.2, none⟩

/-- With ports the pod is served, and public under an address that is not blank. -/
def configureNetwork (ns : OpenShiftNamespace) : OpenShiftNamespace :=
  match i.ports with
  | [] => ns
  | first :: _ =>
      let ns := { ns with services := (ns.services.delete i.name).put i.configuredService }
      match i.routePath.filter fun path => !isBlank path with
      | none => ns
      | some routePath =>
          let targetPort := i.routeTargetPort.getD first
          let route := i.podUpdater.configuredRoute routePath targetPort
          { ns with routes := (ns.routes.delete i.name).put route }

def configurePod (ns : OpenShiftNamespace) : OpenShiftNamespace :=
  i.configureNetwork { ns with
    configMaps := i.podUpdater.configuredApplications (i.configuredConfigs ns.configMaps)
    secrets := i.configuredFiles ns.secrets }

def install (triggers : OpenShiftUpdater.Triggers) (ns : OpenShiftNamespace) : OpenShiftNamespace :=
  let ns := { ns with configMaps := i.podUpdater.deleteApplicationConfigMaps ns.configMaps }
  let ns := { ns with deploymentConfigs := ns.deploymentConfigs.delete i.name }
  createDeploymentConfig i.name (i.podUpdater.deploymentConfiguration triggers)
    (i.configurePod ns)

/-! ## The config maps after an installation -/

theorem configureNetwork_configMaps (ns : OpenShiftNamespace) :
    (i.configureNetwork ns).configMaps = ns.configMaps := by
  unfold configureNetwork
  split
  · rfl
  · dsimp only
    split
    · rfl
    · rfl

def installedConfigMaps (configMaps : Space ConfigMap) : Space ConfigMap :=
  i.podUpdater.configuredApplications
    (i.configuredConfigs (i.podUpdater.deleteApplicationConfigMaps configMaps))

theorem install_configMaps (triggers : OpenShiftUpdater.Triggers) (ns : OpenShiftNamespace) :
    (i.install triggers ns).configMaps = i.installedConfigMaps ns.configMaps := by
  have hnetwork := i.configureNetwork_configMaps
  simp only [install, createDeploymentConfig, configurePod, hnetwork]
  rfl

/-- Of the names that an application's config map may have, filebeat's stays or comes;
the config map of the configuration files is replaced when there are any. -/
theorem get_installedConfigMaps (configMaps : Space ConfigMap) (k : String) :
    (i.installedConfigMaps configMaps).get k =
      if startsWith k (ownedName i.name FILEBEAT) then
        if k = ownedName i.name FILEBEAT then
          i.podUpdater.filebeat.map i.podUpdater.filebeatConfigMap
        else none
      else if k = ownedName i.name CONFIGS_CAMEL_CASE ∧ i.configs ≠ ∅ then
        some ⟨k, i.configs⟩
      else configMaps.get k := by
  have hconfigs : ∀ remaining : Space ConfigMap, (i.configuredConfigs remaining).get k =
      if k = ownedName i.name CONFIGS_CAMEL_CASE ∧ i.configs ≠ ∅ then some ⟨k, i.configs⟩
      else remaining.get k := by
    intro remaining
    unfold configuredConfigs
    by_cases hempty : i.configs = ∅
    · simp [hempty]
    · have hget := i.podUpdater.get_configuredConfigs remaining k
      simpa [hempty, podUpdater] using hget
  have hapart : k = ownedName i.name CONFIGS_CAMEL_CASE →
      startsWith k (ownedName i.name FILEBEAT) = false := by
    rintro rfl
    exact (startsWith_append _ _ _).trans (by decide)
  have happlications := i.podUpdater.get_configuredApplications
    (i.configuredConfigs (i.podUpdater.deleteApplicationConfigMaps configMaps)) k
  rw [hconfigs, OpenShiftUpdater.get_deleteApplicationConfigMaps] at happlications
  refine happlications.trans ?_
  change (if k = ownedName i.name FILEBEAT then _ else _) = _
  by_cases hk : k = ownedName i.name FILEBEAT
  · subst hk
    have hne : ownedName i.name FILEBEAT ≠ ownedName i.name CONFIGS_CAMEL_CASE := by
      intro h
      have hstarts := hapart h
      simp at hstarts
    simp [hne, podUpdater]
  · by_cases hstarts : startsWith k (ownedName i.name FILEBEAT) = true
    · have hne : k ≠ ownedName i.name CONFIGS_CAMEL_CASE := by
        intro h
        rw [hapart h] at hstarts
        cases hstarts
      simp [hk, hne, hstarts, podUpdater]
    · simp [hk, hstarts, podUpdater]

end OpenShiftInstaller

end Agent

end ArtPlatform
