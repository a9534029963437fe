import ArtPlatform.Common.Names
import ArtPlatform.ManagementPanel.Store

/-!
# Modules: requests, operations and the agent's answers

The factories that make a module from a request, the five operations with their
states, and what the agent reports while it carries one out.  The modules on
module management build on these: what each operation stores (here), how the
operations interleave, which deployment they address and which names they keep
apart.
-/

namespace ArtPlatform

structure ModuleConfiguration where
  resourceId : ResourceIdentifier
  artifact : AssembledArtifact
  name : String
  url : Option ModuleUrl
  parameters : Option String
  count : Nat
  probesConfiguration : Option ProbesConfiguration
  ports : List Nat
  preparedConfigurations : List PreparedConfigurationIdentifier
  manualConfigurations : List StringFile
  additionalFiles : List PlatformFileIdentifier
  applications : List ModuleApplication

structure ModuleInstallationRequest where
  projectId : Nat
  configuration : ModuleConfiguration

structure ModuleUpdateRequest where
  moduleId : Nat
  newModuleConfiguration : ModuleConfiguration

/-! ## Factories -/

/-- `createModule(request)`, under the id that the database gives to it. -/
def createModule (toLowerCase : String → String) (request : ModuleInstallationRequest)
    (id now : Nat) : Module where
  id := id
  name := request.configuration.name
  projectId := request.projectId
  resourceId := request.configuration.resourceId
  externalId :=
    { id := normalizeNameToId toLowerCase request.configuration.name
      resourceId := request.configuration.resourceId }
  artifact := request.configuration.artifact
  url := request.configuration.url
  parameters := request.configuration.parameters
  count := request.configuration.count
  ports := request.configuration.ports
  preparedConfigurations := request.configuration.preparedConfigurations
  manualConfigurations := request.configuration.manualConfigurations
  additionalFiles := request.configuration.additionalFiles
  applications := request.configuration.applications
  probesConfiguration := request.configuration.probesConfiguration
  updateTimeStamp := now

/-- `createModule(currentModule, request)`.  The external id is the new name as it
stands; of the port mappings, which are read once more, those of a kept port stay. -/
def createUpdatedModule (currentModule : Module) (configuration : ModuleConfiguration)
    (portMappings : List PortMapping) : Module :=
  { currentModule with
    name := configuration.name
    resourceId := configuration.resourceId
    externalId := { id := configuration.name, resourceId := configuration.resourceId }
    state := .updateStarted
    artifact := configuration.artifact
    url := configuration.url
    parameters := configuration.parameters
    count := configuration.count
    ports := configuration.ports
    portMappings := portMappings.filter fun mapping =>
      configuration.ports.contains mapping.internalPort
    applications := configuration.applications
    preparedConfigurations := configuration.preparedConfigurations
    manualConfigurations := configuration.manualConfigurations
    additionalFiles := configuration.additionalFiles
    probesConfiguration := configuration.probesConfiguration }

namespace PanelStore

/-- `startModuleInstallation` and the put of `processModuleInstallation`. -/
def installModule (toLowerCase : String → String) (request : ModuleInstallationRequest)
    (now : Nat) (s : PanelStore) : Except PlatformException PanelStore :=
  match (s.getProjectModules request.projectId).find? fun m =>
      m.name = request.configuration.name with
  | some _ => .error { code := .moduleAlreadyExists }
  | none =>
      let m := createModule toLowerCase request s.modules.freshKey now
      .ok ((s.putModule m).putModule { m with state := .installationStarted })

/-- `startModuleUpdating` and the put of `processModuleUpdating`. -/
def updateModule (request : ModuleUpdateRequest) (s : PanelStore) :
    Except PlatformException PanelStore :=
  match s.getModule request.moduleId with
  | .error e => .error e
  | .ok currentModule =>
      let m := createUpdatedModule currentModule request.newModuleConfiguration
        currentModule.portMappings
      .ok ((s.putModule m).putModule { m with state := .updateStarted })

end PanelStore

/-! ## Operations -/

inductive ModuleOperation
  | install
  | update
  | stop
  | restart
  | delete
deriving DecidableEq, Repr

/-- The state that the request stores. -/
def ModuleOperation.startedState : ModuleOperation → ModuleState
  | .install => .installationStarted
  | .update => .updateStarted
  | .stop => .stopStarted
  | .restart => .restartStarted
  | .delete => .uninstallStarted

/-- The state that the asynchronous body stores and that the handlers look for. -/
def ModuleOperation.inProgressState : ModuleOperation → ModuleState
  | .install => .installing
  | .update => .updating
  | .stop => .stopping
  | .restart => .restarting
  | .delete => .uninstalling

/-- The state that the completion stores. -/
def ModuleOperation.finalState : ModuleOperation → ModuleState
  | .install | .update | .restart => .run
  | .stop => .stopped
  | .delete => .notInstalled

/-- A handler of one operation does not take the module for one of another. -/
theorem inProgressState_injective {o o' : ModuleOperation}
    (h : o.inProgressState = o'.inProgressState) : o = o' := by
  cases o <;> cases o' <;> first | rfl | cases h

/-- A request about a stored module, with what it needs beside the module. -/
inductive ModuleRequest
  | reinstall
  | update (configuration : ModuleConfiguration)
  | refresh
  | stop
  | restart
  | delete

def ModuleRequest.operation : ModuleRequest → ModuleOperation
  | .reinstall => .install
  | .update _ | .refresh => .update
  | .stop => .stop
  | .restart => .restart
  | .delete => .delete

/-! ## The agent's answers -/

/-- One emission of the agent: what it changes in the module of the request. -/
structure AgentReport where
  clusterIp : Option String
  routeUrl : Option String
  nodePortMapping : List PortMapping

/-- The emitted module: the address and the port mappings are the agent's, and
everything else is the module's. -/
def AgentReport.apply (report : AgentReport) (m : Module) : Module :=
  { m with
    internalIp := match report.clusterIp with
      | some ip => some ip
      | none => m.internalIp
    url := m.url.map fun url => match report.routeUrl with
      | some routeUrl => { url with url := routeUrl }
      | none => url
    portMappings := report.nodePortMapping }

@[simp] theorem AgentReport.apply_id (report : AgentReport) (m : Module) :
    (report.apply m).id = m.id := rfl

@[simp] theorem AgentReport.apply_name (report : AgentReport) (m : Module) :
    (report.apply m).name = m.name := rfl

@[simp] theorem AgentReport.apply_externalId (report : AgentReport) (m : Module) :
    (report.apply m).externalId = m.externalId := rfl

@[simp] theorem AgentReport.apply_state (report : AgentReport) (m : Module) :
    (report.apply m).state = m.state := rfl

/-! ## A sample module -/

namespace SampleModule

/-- A module whose name normalization changes. -/
def installation : ModuleInstallationRequest where
  projectId := 1
  configuration :=
    { resourceId := ⟨1, "cluster", .openShift⟩
      artifact := ⟨"api", "1.0", ⟨"registry/api:1.0", ⟨1, "cluster", .openShift⟩⟩⟩
      name := "api.v2"
      url := none
      parameters := none
      count := 1
      probesConfiguration := none
      ports := [8080]
      preparedConfigurations := []
      manualConfigurations := []
      additionalFiles := []
      applications := [] }

end SampleModule

end ArtPlatform
