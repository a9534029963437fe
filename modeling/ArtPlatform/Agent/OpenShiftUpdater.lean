import ArtPlatform.Agent.OpenShiftNamespace
import ArtPlatform.Foundation.Shortcut
import ArtPlatform.ManagementPanel.Entities

/-!
# Updating a module on OpenShift

The agent turns a request to update a module into an updater and lets it update the
module's deployment.  The updater has two ways.  The full update configures the pod
anew: config maps, secret and application config maps are replaced, the containers
and volumes are built from the request, and the deployment config gets the new
template.  When the deployment exists, and the request does not ask to skip the
check, five comparisons look for changes first; without any, only the replica count,
the service and the route are brought up to date.

The OpenShift client is a parameter where the comparisons rely on it: which
variables a deployment config reports, and when two image addresses are the same.

Main results:

- Theorem `updateDeployment_eq_shortcut`: an update of an existing deployment is the
  full update behind the check.
- Theorem `fullUpdate_eq`: the full update, object by object.
- Theorem `fastUpdate_eq`: the update without changes, object by object.
-/

namespace ArtPlatform

namespace Agent

/-! ## Requests -/

structure PlatformFile where
  name : String
  bytes : List UInt8
deriving DecidableEq, Repr

structure OpenShiftResource where
  id : Nat
  applicationsDomain : String
deriving DecidableEq, Repr

structure FilebeatModuleApplication where
  url : String
  port : Nat
  configuration : String
deriving DecidableEq, Repr

structure ModuleApplications where
  filebeat : Option FilebeatModuleApplication
deriving DecidableEq, Repr

structure AgentModuleUpdateRequest where
  projectId : ExternalIdentifier
  skipChangesCheck : Option Bool
  newModule : Module
  additionalFiles : List PlatformFile
  configurationFiles : List StringFile
  applications : Option ModuleApplications
  probesConfiguration : Option ProbesConfiguration

/-! ## The updater -/

structure OpenShiftUpdater where
  resource : OpenShiftResource
  name : String
  image : String
  workingDirectory : String
  routePath : Option String := none
  routeTargetPort : Option Nat := none
  containerArgumentString : Option String := none
  replicationsCount : Nat
  internalIp : Option String := none
  ports : List PortMapping := []
  files : StringMap (List UInt8) := ∅
  configs : StringMap String := ∅
  environmentVariables : List (String × String) := []
  skipChangesCheck : Bool := false
  applications : Option ModuleApplications := none
  probes : OpenShiftProbes := {}

/-- Add to a set that keeps the order in which its elements came. -/
def addPort (ports : List PortMapping) (port : PortMapping) : List PortMapping :=
  if port ∈ ports then ports else ports ++ [port]

def isNullOrBlank (s : Option String) : Bool :=
  s.all isBlank

/-- The address to publish, when the module has one that is not blank. -/
def publishedUrl (m : Module) : Option ModuleUrl :=
  m.url.filter fun url => !isBlank url.url

/-- The port of the published address, with the external port it is mapped to. -/
def publishedPort (m : Module) (url : ModuleUrl) : PortMapping where
  internalPort := url.port
  externalPort :=
    (m.portMappings.find? fun mapping => mapping.internalPort = url.port).bind
      PortMapping.externalPort

/-- The port of the published address, the mapped ports, and the other ports. -/
def requestedPorts (m : Module) : List PortMapping :=
  let published := ((publishedUrl m).map (publishedPort m)).toList
  let internal := m.ports.filter fun port =>
    m.portMappings.all fun external => external.internalPort ≠ port
  (m.portMappings ++ internal.map fun port => PortMapping.mk port none).foldl addPort published

def requestedProbes : Option ProbesConfiguration → OpenShiftProbes
  | none => {}
  | some probes => ⟨probes.path, probes.livenessProbe, probes.readinessProbe⟩

/-- The updater of a request, as the module manager fills it in. -/
def updateOnOpenShift (resource : OpenShiftResource) (request : AgentModuleUpdateRequest) :
    OpenShiftUpdater where
  resource := resource
  name := request.newModule.name
  image := request.newModule.artifact.externalId.id
  skipChangesCheck := request.skipChangesCheck.getD false
  internalIp := request.newModule.internalIp
  workingDirectory :=
    "/module/" ++ request.projectId.id ++ "/" ++ request.newModule.artifact.name
  replicationsCount := request.newModule.count
  applications := request.applications
  probes := requestedProbes request.probesConfiguration
  routePath := (publishedUrl request.newModule).map ModuleUrl.url
  routeTargetPort := (publishedUrl request.newModule).map ModuleUrl.port
  containerArgumentString :=
    request.newModule.parameters.filter fun parameters => !isBlank parameters
  ports := requestedPorts request.newModule
  files := toMap (request.additionalFiles.map fun file => (file.name, file.bytes))
  configs := toMap (request.configurationFiles.map fun file => (file.name, file.content))

theorem ne_nil_of_foldl_addPort (added : List PortMapping) {ports : List PortMapping}
    (h : ports ≠ []) : added.foldl addPort ports ≠ [] := by
  induction added generalizing ports with
  | nil => exact h
  | cons port added ih =>
      refine ih ?_
      unfold addPort
      split
      · exact h
      · simp

/-- A published address brings its own port. -/
theorem routePath_eq_none_of_ports_eq_nil (resource : OpenShiftResource)
    (request : AgentModuleUpdateRequest)
    (h : (updateOnOpenShift resource request).ports = []) :
    (updateOnOpenShift resource request).routePath = none := by
  cases hurl : publishedUrl request.newModule with
  | none => simp [updateOnOpenShift, hurl]
  | some url =>
      have hne : requestedPorts request.newModule ≠ [] := by
        refine ne_nil_of_foldl_addPort _ ?_
        simp [hurl]
      exact absurd h hne

/-! ## Names -/

def CONFIGS_CAMEL_CASE : String := "configs"
def FILES_CAMEL_CASE : String := "files"
def APPLICATIONS_CAMEL_CASE : String := "applications"
def FILEBEAT : String := "filebeat"
def FILEBEAT_CONFIG : String := "filebeat-config"
def FILEBEAT_DATA : String := "filebeat-data"
def FILEBEAT_CONFIG_FILE : String := "filebeat.yml"
def FILEBEAT_DATA_PATH : String := "/filebeat/data"
def FILEBEAT_CONFIG_PATH : String := "/etc/filebeat"
def IMAGE_PULL_POLICY_ALWAYS : String := "Always"
def POD_GROUP : String := "pod.group"
def APPLICATION_TYPES : List String := [FILEBEAT]

/-- The prefix of the trigger variables of applications. -/
def APPLICATION_TRIGGER : String :=
  DEPLOYMENT_TRIGGER_VARIABLE_NAME ++ "-" ++ APPLICATIONS_CAMEL_CASE

/-- `"$name-$suffix"`, the name of an object that belongs to a deployment. -/
def ownedName (name suffix : String) : String :=
  name ++ "-" ++ suffix

/-! ## Comparing applications -/

/-- What the comparisons rely on in the OpenShift client: the environment variables
that a deployment config reports for its pod template, and what `DockerImageURI`
makes of the text of an image address. -/
structure OpenShiftClient where
  environmentVariables : PodTemplate → List (String × String)
  dockerImageURI : String → String

inductive Failure
  | indexOutOfBounds
  | noSuchElement
  | nullPointer
deriving DecidableEq, Repr

section Comparators

variable (client : OpenShiftClient)

def hasAnyApplication (current : DeploymentConfig) : Bool :=
  (client.environmentVariables current.template).any fun entry =>
    startsWith entry.1 APPLICATION_TRIGGER

def hasApplicationOfType (type : String) (current : DeploymentConfig) : Bool :=
  (client.environmentVariables current.template).any fun entry =>
    startsWith entry.1 (APPLICATION_TRIGGER ++ "-" ++ type)

def podFilebeatEquals (applications : ModuleApplications) (current : DeploymentConfig)
    (pod : Pod) : Bool :=
  match applications.filebeat with
  | some filebeat =>
      pod.containers.any fun container =>
        container.name = FILEBEAT &&
          client.dockerImageURI container.image = client.dockerImageURI filebeat.url &&
          decide (∃ port ∈ container.ports, filebeat.port = port.containerPort)
  | none => !hasApplicationOfType client FILEBEAT current

/-- `OpenShiftModuleApplicationsPodComparator.applicationsEquals`. -/
def podApplicationsEquals (applications : Option ModuleApplications)
    (current : DeploymentConfig) (pod : Pod) : Bool :=
  match applications with
  | some applications =>
      APPLICATION_TYPES.all fun type =>
        if type = FILEBEAT then podFilebeatEquals client applications current pod else true
  | none => !hasAnyApplication client current

def configMapFilebeatEquals (applications : ModuleApplications) :
    Option ConfigMap → Bool
  | none => isNullOrBlank (applications.filebeat.map FilebeatModuleApplication.configuration)
  | some configMap =>
      match applications.filebeat with
      | some filebeat =>
          configMap.data.lookup FILEBEAT_CONFIG_FILE = some filebeat.configuration
      | none => configMap.data.lookup FILEBEAT_CONFIG_FILE = none

/-- `OpenShiftModuleApplicationsConfigMapComparator.applicationsEquals`. -/
def configMapApplicationsEquals (applications : Option ModuleApplications)
    (current : DeploymentConfig) (configMaps : List ConfigMap) : Bool :=
  match applications with
  | some applications =>
      APPLICATION_TYPES.all fun type =>
        if type = FILEBEAT then
          configMapFilebeatEquals applications
            (configMaps.find? fun configMap =>
              startsWith configMap.name (ownedName current.name FILEBEAT))
        else true
  | none => !hasAnyApplication client current

end Comparators

/-! ## Looking for changes -/

namespace OpenShiftUpdater

section Checks

variable (client : OpenShiftClient) (u : OpenShiftUpdater)

def environmentEquals (current : DeploymentConfig) : Bool :=
  toMap ((client.environmentVariables current.template).filter fun entry =>
    !isTrigger entry.1) = toMap u.environmentVariables

def configsEquals (ns : OpenShiftNamespace) : Bool :=
  match ns.configMaps.get (ownedName u.name CONFIGS_CAMEL_CASE) with
  | some configMap => configMap.data = u.configs
  | none => u.configs = ∅

def filesEquals (ns : OpenShiftNamespace) : Bool :=
  match ns.secrets.get (ownedName u.name FILES_CAMEL_CASE) with
  | some secret =>
      u.files ≠ ∅ && secret.size = u.files.keys.card &&
        decide (∀ k ∈ u.files.keys, u.files.lookup k = some (secret.extractSecretData k))
  | none => u.files = ∅

/-- `elementAt`; an index that was not found is `-1`, which is out of bounds. -/
def elementAt {α : Type} (xs : List α) (index : Option Nat) : Except Failure α :=
  match index.bind fun i => xs[i]? with
  | some x => .ok x
  | none => .error .indexOutOfBounds

def argumentsEquals (container : Container) : Bool :=
  match u.containerArgumentString with
  | some arguments => some arguments = container.commandArgs.map (joinToString " ")
  | none => (container.commandArgs.map (joinToString " ")).all fun arguments => arguments = ""

def portsEquals (container : Container) : Bool :=
  (u.ports = [] && container.ports = ∅) ||
    u.ports.any fun port =>
      decide (∃ containerPort ∈ container.ports,
        containerPort.containerPort = port.internalPort)

/-- The comparison of one pod, which fails without a container of the module. -/
def podMatches (current : DeploymentConfig) (pod : Pod) : Except Failure Bool := do
  let moduleContainerIndex :=
    pod.containers.findIdx? fun container => container.name = u.name
  let moduleImage ← elementAt pod.images moduleContainerIndex
  let moduleContainer ← elementAt pod.containers moduleContainerIndex
  pure (u.image = moduleImage && u.argumentsEquals moduleContainer &&
    u.portsEquals moduleContainer && podApplicationsEquals client u.applications current pod)

/-- The pods are compared up to the first that differs. -/
def podEquals (current : DeploymentConfig) (ns : OpenShiftNamespace) : Except Failure Bool :=
  match ns.getDeploymentPods u.name with
  | [] => pure false
  | pods => pods.allM (u.podMatches client current)

/-- The five comparisons. -/
def unchanged (current : DeploymentConfig) (ns : OpenShiftNamespace) :
    Except Failure Bool := do
  let podEquals ← u.podEquals client current ns
  pure (u.environmentEquals client current && u.configsEquals ns && u.filesEquals ns &&
    podEquals && configMapApplicationsEquals client u.applications current
      (ns.configMaps.selectAll.filter fun configMap => startsWith configMap.name u.name))

end Checks

/-! ## Service and route -/

section Network

variable (u : OpenShiftUpdater)

/-- A requested port in a service.  The elvis operator binds closer than the
comparison with null: a port with an external port is never found. -/
def servicePortEquals (port : PortMapping) (servicePort : ServicePort) : Bool :=
  port.internalPort = servicePort.port &&
    match port.externalPort with
    | some _ => false
    | none => servicePort.nodePort = none

def serviceEquals (service : Service) : Bool :=
  service.clusterIP = u.internalIp &&
    u.ports.all fun port => service.ports.any (servicePortEquals port)

def servicePortName (port : Nat) : String :=
  "tcp-" ++ toString port

/-- The service that is created: one port a name, with the node port of its name; of
two ports or node ports of one name the later one counts. -/
def configuredService : Service where
  name := u.name
  type := .nodePort
  clusterIP := u.internalIp
  selector := toMap [(POD_GROUP, u.name)]
  ports :=
    let portMapping := u.ports.foldl (fun entries port =>
      putEntry entries (servicePortName port.internalPort) port.internalPort) []
    let nodePortMapping := toMap (u.ports.filterMap fun port =>
      port.externalPort.map fun external => (servicePortName port.internalPort, external))
    portMapping.map fun entry =>
      ⟨entry.1, entry.2, entry.2, nodePortMapping.lookup entry.1⟩

def updatedServices (services : Space Service) : Space Service :=
  if u.ports = [] then services.delete u.name
  else if (services.get u.name).any u.serviceEquals then services
  else (services.delete u.name).put u.configuredService

def updateService (ns : OpenShiftNamespace) : OpenShiftNamespace :=
  { ns with services := u.updatedServices ns.services }

/-- The port of the route: the published one, else the first port. -/
def targetPort : Except Failure Nat :=
  match u.routeTargetPort, u.ports with
  | some port, _ => .ok port
  | none, port :: _ => .ok port.internalPort
  | none, [] => .error .noSuchElement

def hostName (routePath : String) : String :=
  removeAll (extractHostName routePath) ("." ++ u.resource.applicationsDomain) ++ "." ++
    u.resource.applicationsDomain

/-- The port of a route is read after host and path were found equal. -/
def routeEquals (routePath : String) (targetPort : Nat) (route : Route) :
    Except Failure Bool :=
  if route.host = u.hostName routePath && route.path = extractPath routePath "" then
    match route.port with
    | some port => .ok (port = targetPort)
    | none => .error .nullPointer
  else .ok false

/-- Without a route there is nothing to keep. -/
def currentRouteEquals (routePath : String) (targetPort : Nat) (routes : Space Route) :
    Except Failure Bool :=
  match routes.get u.name with
  | some route => u.routeEquals routePath targetPort route
  | none => .ok false

def configuredRoute (routePath : String) (targetPort : Nat) : Route where
  name := u.name
  serviceName := u.name
  host := u.hostName routePath
  path := if isBlank (extractPath routePath "") then "" else extractPath routePath ""
  port := some targetPort

def updatedRoutes (routes : Space Route) : Except Failure (Space Route) :=
  match u.routePath.filter fun path => !isBlank path with
  | none => .ok (routes.delete u.name)
  | some routePath => do
      let targetPort ← u.targetPort
      if ← u.currentRouteEquals routePath targetPort routes then pure routes
      else pure ((routes.delete u.name).put (u.configuredRoute routePath targetPort))

def updateRoute (ns : OpenShiftNamespace) : Except Failure OpenShiftNamespace := do
  let routes ← u.updatedRoutes ns.routes
  pure { ns with routes := routes }

end Network

/-! ## Configuring the pod -/

/-- The random values of the two trigger variables. -/
structure Triggers where
  deployment : String
  filebeat : String
deriving DecidableEq, Repr

section Configure

variable (u : OpenShiftUpdater)

/-- Replace the config map of the configuration files, or delete it without any. -/
def configuredConfigs (configMaps : Space ConfigMap) : Space ConfigMap :=
  let name := ownedName u.name CONFIGS_CAMEL_CASE
  if u.configs = ∅ then configMaps.delete name
  else (configMaps.delete name).put ⟨name, u.configs⟩

def configuredFiles (secrets : Space Secret) : Space Secret :=
  let name := ownedName u.name FILES_CAMEL_CASE
  if u.files = ∅ then secrets.delete name
  else (secrets.delete name).put ⟨name, u.files⟩

/-- Delete the config maps whose name starts as that of an application of the module. -/
def deleteApplicationConfigMaps (configMaps : Space ConfigMap) : Space ConfigMap :=
  APPLICATION_TYPES.foldl (fun remaining type =>
    remaining.deleteAll ((configMaps.selectAll.filter fun configMap =>
      startsWith configMap.name (ownedName u.name type)).map ConfigMap.name)) configMaps

def filebeatConfigMap (filebeat : FilebeatModuleApplication) : ConfigMap where
  name := ownedName u.name FILEBEAT
  data := toMap [(FILEBEAT_CONFIG_FILE, filebeat.configuration)]

def filebeat : Option FilebeatModuleApplication :=
  u.applications.bind ModuleApplications.filebeat

def configuredApplications (configMaps : Space ConfigMap) : Space ConfigMap :=
  match u.filebeat with
  | some filebeat =>
      (configMaps.delete (ownedName u.name FILEBEAT)).put (u.filebeatConfigMap filebeat)
  | none => configMaps

def tcpPort (port : Nat) : ContainerPort :=
  ⟨servicePortName port, port, "TCP"⟩

def filebeatContainer (filebeat : FilebeatModuleApplication) : Container where
  name := FILEBEAT
  image := filebeat.url
  imagePullPolicy := IMAGE_PULL_POLICY_ALWAYS
  environment := []
  ports := {tcpPort filebeat.port}
  volumeMounts :=
    {⟨FILEBEAT_DATA, u.workingDirectory ++ FILEBEAT_DATA_PATH, false⟩,
      ⟨FILEBEAT_CONFIG, FILEBEAT_CONFIG_PATH, false⟩}
  commandArgs := some []
  livenessProbe := none
  readinessProbe := none

/-- The variables of the request, the trigger of the deployment, and the triggers of
its applications. -/
def configuredVariables (triggers : Triggers) : List (String × String) :=
  let deploymentVariables :=
    putEntry u.environmentVariables DEPLOYMENT_TRIGGER_VARIABLE_NAME triggers.deployment
  match u.filebeat with
  | some _ => putEntry deploymentVariables (APPLICATION_TRIGGER ++ "-" ++ FILEBEAT) triggers.filebeat
  | none => deploymentVariables

def mountedDirectory (directory : String) : VolumeMount :=
  ⟨directory, u.workingDirectory ++ "/" ++ directory, true⟩

def moduleContainer (triggers : Triggers) : Container where
  name := u.name
  image := u.image
  imagePullPolicy := IMAGE_PULL_POLICY_ALWAYS
  environment := u.configuredVariables triggers
  ports := (u.ports.map fun port => tcpPort port.internalPort).toFinset
  volumeMounts :=
    (if u.configs = ∅ then ∅ else {u.mountedDirectory CONFIGS_CAMEL_CASE}) ∪
      (if u.files = ∅ then ∅ else {u.mountedDirectory FILES_CAMEL_CASE})
  commandArgs := some ((u.containerArgumentString.map fun arguments => split arguments ' ').getD [])
  livenessProbe := none
  readinessProbe := none

/-- The volumes have names of their own, so each is set once. -/
def configuredVolumes : Finset Volume :=
  (if u.configs = ∅ then ∅
    else {⟨CONFIGS_CAMEL_CASE, some (ownedName u.name CONFIGS_CAMEL_CASE), none⟩}) ∪
  (if u.files = ∅ then ∅
    else {⟨FILES_CAMEL_CASE, none, some (ownedName u.name FILES_CAMEL_CASE)⟩}) ∪
  (match u.filebeat with
    | some _ => {⟨FILEBEAT_DATA, none, none⟩,
        ⟨FILEBEAT_CONFIG, some (ownedName u.name FILEBEAT), none⟩}
    | none => ∅)

def podConfiguration (triggers : Triggers) : OpenShiftPodConfiguration where
  containers :=
    putContainer (u.filebeat.map u.filebeatContainer).toList (u.moduleContainer triggers)
  volumes := u.configuredVolumes
  probes := u.probes

def deploymentConfiguration (triggers : Triggers) : OpenShiftDeploymentConfiguration where
  replicas := u.replicationsCount
  replicaSelector := toMap [(POD_GROUP, u.name)]
  podConfiguration := u.podConfiguration triggers

/-- Without ports the service and the route go; else both are brought up to date. -/
def configureNetwork (ns : OpenShiftNamespace) : Except Failure OpenShiftNamespace :=
  if u.ports = [] then
    .ok { ns with services := ns.services.delete u.name, routes := ns.routes.delete u.name }
  else u.updateRoute (u.updateService ns)

/-- `configurePod`: what it does to the namespace, and the configuration it builds. -/
def configurePod (triggers : Triggers) (ns : OpenShiftNamespace) :
    Except Failure (OpenShiftDeploymentConfiguration × OpenShiftNamespace) := do
  let ns := { ns with
    configMaps := u.configuredConfigs ns.configMaps
    secrets := u.configuredFiles ns.secrets }
  let ns := { ns with configMaps := u.deleteApplicationConfigMaps ns.configMaps }
  let ns := { ns with configMaps := u.configuredApplications ns.configMaps }
  let ns ← u.configureNetwork ns
  pure (u.deploymentConfiguration triggers, ns)

/-! ## The update -/

/-- The update that configures the pod anew. -/
def fullUpdate (triggers : Triggers) (ns : OpenShiftNamespace) :
    Except Failure OpenShiftNamespace := do
  let (configuration, ns) ← u.configurePod triggers ns
  pure (updateDeploymentConfig u.name configuration ns)

/-- The update after a check that found no changes. -/
def fastUpdate (current : DeploymentConfig) (ns : OpenShiftNamespace) :
    Except Failure OpenShiftNamespace :=
  let ns :=
    if current.replicas ≠ u.replicationsCount then
      updateDeploymentConfig u.name { replicas := u.replicationsCount } ns
    else ns
  u.updateRoute (u.updateService ns)

def updateDeployment (client : OpenShiftClient) (triggers : Triggers)
    (ns : OpenShiftNamespace) : Except Failure OpenShiftNamespace :=
  match ns.deploymentConfigs.get u.name with
  | some current => do
      if u.skipChangesCheck then u.fullUpdate triggers ns
      else if ← u.unchanged client current ns then u.fastUpdate current ns
      else u.fullUpdate triggers ns
  | none => do
      let (configuration, ns) ← u.configurePod triggers ns
      pure (createDeploymentConfig u.name configuration ns)

end Configure

/-! ## The objects after an update -/

section Objects

variable (u : OpenShiftUpdater) (triggers : Triggers) (ns : OpenShiftNamespace)

def configuredConfigMaps (configMaps : Space ConfigMap) : Space ConfigMap :=
  u.configuredApplications (u.deleteApplicationConfigMaps (u.configuredConfigs configMaps))

theorem get_configuredConfigs (configMaps : Space ConfigMap) (k : String) :
    (u.configuredConfigs configMaps).get k =
      if k = ownedName u.name CONFIGS_CAMEL_CASE then
        if u.configs = ∅ then none else some ⟨k, u.configs⟩
      else configMaps.get k := by
  unfold configuredConfigs
  by_cases hk : k = ownedName u.name CONFIGS_CAMEL_CASE
  · subst hk
    by_cases hconfigs : u.configs = ∅
    · simp [hconfigs]
    · simp only [hconfigs, ↓reduceIte]
      exact Space.get_put_self _ (⟨_, u.configs⟩ : ConfigMap)
  · rw [if_neg hk]
    split
    · exact Space.get_delete_of_ne _ hk
    · exact (Space.get_put_of_ne _ _ hk).trans (Space.get_delete_of_ne _ hk)

theorem get_configuredFiles (secrets : Space Secret) (k : String) :
    (u.configuredFiles secrets).get k =
      if k = ownedName u.name FILES_CAMEL_CASE then
        if u.files = ∅ then none else some ⟨k, u.files⟩
      else secrets.get k := by
  unfold configuredFiles
  by_cases hk : k = ownedName u.name FILES_CAMEL_CASE
  · subst hk
    by_cases hfiles : u.files = ∅
    · simp [hfiles]
    · simp only [hfiles, ↓reduceIte]
      exact Space.get_put_self _ (⟨_, u.files⟩ : Secret)
  · rw [if_neg hk]
    split
    · exact Space.get_delete_of_ne _ hk
    · exact (Space.get_put_of_ne _ _ hk).trans (Space.get_delete_of_ne _ hk)

theorem get_deleteApplicationConfigMaps (configMaps : Space ConfigMap) (k : String) :
    (u.deleteApplicationConfigMaps configMaps).get k =
      if startsWith k (ownedName u.name FILEBEAT) then none else configMaps.get k := by
  have hfilter := configMaps.get_deleteAll_filter
    (fun configMap => startsWith configMap.name (ownedName u.name FILEBEAT)) k
  refine hfilter.trans ?_
  cases hget : configMaps.get k with
  | none => simp
  | some configMap =>
      have hname : configMap.name = k := Space.key_of_get hget
      rw [Option.filter, hname]
      by_cases hk : startsWith k (ownedName u.name FILEBEAT) = true <;> simp [hk]

theorem get_configuredApplications (configMaps : Space ConfigMap) (k : String) :
    (u.configuredApplications configMaps).get k =
      if k = ownedName u.name FILEBEAT then
        (u.filebeat.map u.filebeatConfigMap).or (configMaps.get k)
      else configMaps.get k := by
  unfold configuredApplications
  cases hfilebeat : u.filebeat with
  | none => simp
  | some filebeat =>
      by_cases hk : k = ownedName u.name FILEBEAT
      · subst hk
        rw [if_pos rfl]
        exact Space.get_put_self _ (u.filebeatConfigMap filebeat)
      · rw [if_neg hk]
        exact (Space.get_put_of_ne _ _ hk).trans (Space.get_delete_of_ne _ hk)

/-- The config maps after the full update: one for the configuration files, one for
filebeat, none else under a name that starts as that of an application. -/
theorem get_configuredConfigMaps (configMaps : Space ConfigMap) (k : String) :
    (u.configuredConfigMaps configMaps).get k =
      if startsWith k (ownedName u.name FILEBEAT) then
        if k = ownedName u.name FILEBEAT then u.filebeat.map u.filebeatConfigMap else none
      else (u.configuredConfigs configMaps).get k := by
  unfold configuredConfigMaps
  rw [get_configuredApplications, get_deleteApplicationConfigMaps]
  by_cases hk : k = ownedName u.name FILEBEAT
  · subst hk
    simp
  · simp [hk]

/-- Without ports there is nothing to publish, so both ways treat the network alike. -/
theorem configureNetwork_eq (h : u.ports = [] → u.routePath = none) :
    u.configureNetwork ns = u.updateRoute (u.updateService ns) := by
  unfold configureNetwork
  split
  · rename_i hports
    simp [updateRoute, updatedRoutes, updateService, updatedServices, hports, h hports,
      Bind.bind, Except.bind, Pure.pure, Except.pure]
  · rfl

/-- The full update, object by object. -/
theorem fullUpdate_eq (h : u.ports = [] → u.routePath = none) :
    u.fullUpdate triggers ns = (u.updatedRoutes ns.routes).map fun routes =>
      updateDeploymentConfig u.name (u.deploymentConfiguration triggers)
        { ns with
          configMaps := u.configuredConfigMaps ns.configMaps
          secrets := u.configuredFiles ns.secrets
          services := u.updatedServices ns.services
          routes := routes } := by
  unfold fullUpdate configurePod
  simp only [u.configureNetwork_eq _ h, updateRoute, updateService]
  cases u.updatedRoutes ns.routes with
  | error e => rfl
  | ok routes => rfl

theorem updateDeploymentConfig_network (name : String)
    (configuration : OpenShiftDeploymentConfiguration) :
    (updateDeploymentConfig name configuration ns).routes = ns.routes ∧
      (updateDeploymentConfig name configuration ns).services = ns.services := by
  unfold updateDeploymentConfig
  split
  · exact ⟨rfl, rfl⟩
  · exact ⟨rfl, rfl⟩

/-- The update without changes, object by object. -/
theorem fastUpdate_eq (current : DeploymentConfig) :
    u.fastUpdate current ns = (u.updatedRoutes ns.routes).map fun routes =>
      { (if current.replicas ≠ u.replicationsCount then
          updateDeploymentConfig u.name { replicas := u.replicationsCount } ns
        else ns) with
        services := u.updatedServices ns.services
        routes := routes } := by
  unfold fastUpdate updateRoute updateService
  split
  · obtain ⟨hroutes, hservices⟩ := updateDeploymentConfig_network ns u.name
      { replicas := u.replicationsCount }
    simp only [hroutes, hservices]
    cases u.updatedRoutes ns.routes with
    | error e => rfl
    | ok routes => rfl
  · dsimp only
    cases u.updatedRoutes ns.routes with
    | error e => rfl
    | ok routes => rfl

theorem configureNetwork_deploymentConfigs {ns' : OpenShiftNamespace}
    (h : u.configureNetwork ns = .ok ns') : ns'.deploymentConfigs = ns.deploymentConfigs := by
  unfold configureNetwork at h
  split at h
  · cases h
    rfl
  · rcases exists_of_bind_eq_ok h with ⟨routes, -, hok⟩
    cases hok
    rfl

/-- The deployment config is written last. -/
theorem configurePod_deploymentConfigs {configuration : OpenShiftDeploymentConfiguration}
    {ns' : OpenShiftNamespace} (h : u.configurePod triggers ns = .ok (configuration, ns')) :
    ns'.deploymentConfigs = ns.deploymentConfigs := by
  rcases exists_of_bind_eq_ok h with ⟨ns'', hnetwork, hok⟩
  cases hok
  have hframe := u.configureNetwork_deploymentConfigs _ hnetwork
  exact hframe

/-- Without the check an update is the full update: without a deployment config the
full update creates one. -/
theorem updateDeployment_eq_fullUpdate (client : OpenShiftClient)
    (h : ns.deploymentConfigs.get u.name = none ∨ u.skipChangesCheck = true) :
    u.updateDeployment client triggers ns = u.fullUpdate triggers ns := by
  unfold updateDeployment
  cases hget : ns.deploymentConfigs.get u.name with
  | some current =>
      have hskip : u.skipChangesCheck = true := by simpa [hget] using h
      simp only [hskip, ↓reduceIte]
  | none =>
      unfold fullUpdate
      cases hpod : u.configurePod triggers ns with
      | error e => rfl
      | ok result =>
          obtain ⟨configuration, ns'⟩ := result
          have hnone : ns'.deploymentConfigs.get u.name = none := by
            rw [u.configurePod_deploymentConfigs triggers ns hpod, hget]
          simp only [Bind.bind, Except.bind, updateDeploymentConfig, hnone]

/-- An update of an existing deployment is the full update behind the check. -/
theorem updateDeployment_eq_shortcut (client : OpenShiftClient) {current : DeploymentConfig}
    (h : ns.deploymentConfigs.get u.name = some current)
    (hskip : u.skipChangesCheck = false) :
    u.updateDeployment client triggers ns =
      shortcut (u.unchanged client current ns) (u.fastUpdate current ns)
        (u.fullUpdate triggers ns) := by
  simp only [updateDeployment, h, hskip, Bool.false_eq_true, ↓reduceIte, shortcut]

/-- An update that succeeds is the full update, or the one without changes. -/
theorem updateDeployment_eq_ok {client : OpenShiftClient} {ns' : OpenShiftNamespace}
    (h : u.updateDeployment client triggers ns = .ok ns') :
    u.fullUpdate triggers ns = .ok ns' ∨ ∃ current, u.fastUpdate current ns = .ok ns' := by
  by_cases hway : ns.deploymentConfigs.get u.name = none ∨ u.skipChangesCheck = true
  · left
    rw [← h, u.updateDeployment_eq_fullUpdate triggers ns client hway]
  · obtain ⟨hget, hskip⟩ := not_or.mp hway
    obtain ⟨current, hcurrent⟩ := Option.ne_none_iff_exists'.mp hget
    rw [u.updateDeployment_eq_shortcut triggers ns client hcurrent
      (Bool.eq_false_iff.mpr hskip)] at h
    obtain ⟨unchanged, -, hrun⟩ := exists_of_bind_eq_ok h
    cases unchanged with
    | false => exact .inl hrun
    | true => exact .inr ⟨current, hrun⟩

end Objects

end OpenShiftUpdater

end Agent

end ArtPlatform
