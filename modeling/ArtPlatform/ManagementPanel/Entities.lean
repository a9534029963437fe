import ArtPlatform.Foundation.Space

/-!
# Entities of the management panel

The stored entities with the fields that the modelled services read, copy or
compare, and the predicates the entities define themselves.  Field names follow
the API model; the states of an entity kind are one enumeration each.

Lombok equality leaves out the collections marked as excluded, so equality of
assemblies is the definition `Assembly.equals` and not structural equality.
-/

namespace ArtPlatform

/-! ## Identifiers -/

inductive ResourceType
  | openShift
  | git
  | artifacts
  | platform
  | proxy
deriving DecidableEq, Repr

structure ResourceIdentifier where
  id : Nat
  name : String
  type : ResourceType
deriving DecidableEq, Repr

structure ExternalIdentifier where
  id : String
  resourceId : ResourceIdentifier
deriving DecidableEq, Repr

structure ProjectVersion where
  reference : String
  version : String
deriving DecidableEq, Repr

structure PlatformFileIdentifier where
  id : Nat
  name : String
deriving DecidableEq, Repr

structure AssembledArtifact where
  name : String
  version : String
  externalId : ExternalIdentifier
deriving DecidableEq, Repr

/-! ## Projects -/

inductive ProjectState
  | created
  | initialized
  | initializationFailed
  | reloadStarted
  | reloading
deriving DecidableEq, Repr

structure OpenShiftLabel where
  name : String
  value : String
deriving DecidableEq, Repr

structure ProjectOpenShiftConfiguration where
  platformPodsNodeSelector : List OpenShiftLabel
deriving DecidableEq, Repr

structure ProjectNotificationsConfiguration where
  url : String
  additionalMessage : String
  proxyId : Option ResourceIdentifier
deriving DecidableEq, Repr

structure ProjectArtifact where
  name : String
  path : String
  technologies : List String
  versions : List ProjectVersion
deriving DecidableEq, Repr

structure Project where
  id : Nat
  name : String
  gitResourceId : ResourceIdentifier
  initializationResourceId : ResourceIdentifier
  openShiftConfiguration : Option ProjectOpenShiftConfiguration
  notificationsConfiguration : Option ProjectNotificationsConfiguration
  externalId : ExternalIdentifier
  state : ProjectState := .created
  creationTimeStamp : Nat
  technologies : List String := []
  versions : List ProjectVersion := []
  artifacts : List ProjectArtifact := []
deriving DecidableEq, Repr

/-! ## Assemblies -/

inductive AssemblyState
  | started
  | done
  | failed
  | canceled
  | startedOnResource
  | restarted
  | building
deriving DecidableEq, Repr

structure Assembly where
  id : Nat
  projectId : Nat
  technology : String
  version : ProjectVersion
  resourceId : ResourceIdentifier
  logId : Nat
  endTimeStamp : Option Nat := none
  startTimeStamp : Nat
  state : AssemblyState := .started
  artifacts : List AssembledArtifact := []
deriving DecidableEq, Repr

/-- The name of a state, as requests and answers carry it. -/
def AssemblyState.code : AssemblyState → String
  | .started => "ASSEMBLY_STARTED"
  | .done => "ASSEMBLY_DONE"
  | .failed => "ASSEMBLY_FAILED"
  | .canceled => "ASSEMBLY_CANCELED"
  | .startedOnResource => "ASSEMBLY_STARTED_ON_RESOURCE"
  | .restarted => "ASSEMBLY_RESTARTED"
  | .building => "ASSEMBLY_BUILDING"

/-- States of an assembly that is still being worked on. -/
def AssemblyState.isRunning : AssemblyState → Bool
  | .started | .restarted | .building | .startedOnResource => true
  | .done | .failed | .canceled => false

/-- States in which an agent may already work for the assembly. -/
def AssemblyState.onResource : AssemblyState → Bool
  | .building | .startedOnResource => true
  | .started | .restarted | .done | .failed | .canceled => false

def Assembly.isRunning (a : Assembly) : Bool :=
  a.state.isRunning

def Assembly.isCanceled (a : Assembly) : Bool :=
  a.state = .canceled

/-- Lombok equality of assemblies: the artifacts are excluded. -/
def Assembly.equals (a b : Assembly) : Bool :=
  { a with artifacts := [] } = { b with artifacts := [] }

structure AssemblyEvent where
  assembly : Assembly
  logRecord : Option String
deriving DecidableEq, Repr

/-! ## Load tests -/

inductive LoadTestState
  | started
  | done
  | failed
  | canceled
  | startedOnResource
  | running
deriving DecidableEq, Repr

structure EnvironmentVariable where
  name : String
  value : String
deriving DecidableEq, Repr

structure LoadTest where
  id : Nat
  projectId : Nat
  scenarioId : Nat
  version : ProjectVersion
  startTimeStamp : Nat
  endTimeStamp : Option Nat := none
  state : LoadTestState := .started
  resourceId : ResourceIdentifier
  logId : Nat
  reportArchiveName : Option PlatformFileIdentifier := none
  environmentVariables : List EnvironmentVariable := []
deriving DecidableEq, Repr

def LoadTest.isRunning (t : LoadTest) : Bool :=
  t.state = .started || t.state = .running || t.state = .startedOnResource

def LoadTest.isCanceled (t : LoadTest) : Bool :=
  t.state = .canceled

structure LoadTestEvent where
  loadTest : LoadTest
  logRecord : String
  reportArchiveBytes : List UInt8
deriving DecidableEq, Repr

/-! ## Logs -/

structure Log where
  id : Nat
  records : List String := []
deriving DecidableEq, Repr

/-- The builder's `record`: the log with one more record at its end. -/
def Log.record (log : Log) (record : String) : Log :=
  { log with records := log.records ++ [record] }

/-! ## Modules -/

inductive ModuleState
  | installationStarted
  | notInstalled
  | invalid
  | stopped
  | run
  | updateStarted
  | stopStarted
  | restartStarted
  | uninstallStarted
  | installing
  | updating
  | stopping
  | restarting
  | uninstalling
deriving DecidableEq, Repr

structure ModuleUrl where
  url : String
  port : Nat
deriving DecidableEq, Repr

structure PortMapping where
  internalPort : Nat
  externalPort : Option Nat
deriving DecidableEq, Repr

structure ProbesConfiguration where
  path : Option String
  livenessProbe : Bool
  readinessProbe : Bool
deriving DecidableEq, Repr

structure PreparedConfigurationIdentifier where
  id : Nat
  projectId : Nat
  profile : String
  name : String
  configuration : String
deriving DecidableEq, Repr

structure StringFile where
  name : String
  content : String
deriving DecidableEq, Repr

structure ApplicationIdentifier where
  id : Nat
  name : String
  type : String
deriving DecidableEq, Repr

/-- A module's application; its entity is kept in serialized form. -/
structure ModuleApplication where
  applicationId : ApplicationIdentifier
  application : String
deriving DecidableEq, Repr

structure Module where
  id : Nat
  name : String
  projectId : Nat
  externalId : ExternalIdentifier
  internalIp : Option String := none
  resourceId : ResourceIdentifier
  artifact : AssembledArtifact
  url : Option ModuleUrl
  parameters : Option String
  count : Nat
  probesConfiguration : Option ProbesConfiguration
  state : ModuleState := .installationStarted
  updateTimeStamp : Nat
  ports : List Nat
  portMappings : List PortMapping := []
  preparedConfigurations : List PreparedConfigurationIdentifier
  manualConfigurations : List StringFile
  additionalFiles : List PlatformFileIdentifier
  applications : List ModuleApplication
deriving DecidableEq, Repr

/-- The name of a state, as requests and answers carry it. -/
def ModuleState.code : ModuleState → String
  | .installationStarted => "MODULE_INSTALLATION_STARTED"
  | .notInstalled => "MODULE_NOT_INSTALLED"
  | .invalid => "MODULE_INVALID"
  | .stopped => "MODULE_STOPPED"
  | .run => "MODULE_RUN"
  | .updateStarted => "MODULE_UPDATE_STARTED"
  | .stopStarted => "MODULE_STOP_STARTED"
  | .restartStarted => "MODULE_RESTART_STARTED"
  | .uninstallStarted => "MODULE_UNINSTALL_STARTED"
  | .installing => "MODULE_INSTALLING"
  | .updating => "MODULE_UPDATING"
  | .stopping => "MODULE_STOPPING"
  | .restarting => "MODULE_RESTARTING"
  | .uninstalling => "MODULE_UNINSTALLING"

def ModuleState.isChanging : ModuleState → Bool
  | .notInstalled | .invalid | .stopped | .run => false
  | .installationStarted | .updateStarted | .restarting | .updating | .installing
  | .uninstallStarted | .restartStarted | .stopStarted | .stopping | .uninstalling => true

def Module.isChanging (m : Module) : Bool :=
  m.state.isChanging

/-! ## Primary keys -/

instance : Keyed Project Nat := ⟨Project.id⟩
instance : Keyed Assembly Nat := ⟨Assembly.id⟩
instance : Keyed LoadTest Nat := ⟨LoadTest.id⟩
instance : Keyed Log Nat := ⟨Log.id⟩
instance : Keyed Module Nat := ⟨Module.id⟩

@[simp] theorem key_project (p : Project) : Keyed.key p = p.id := rfl
@[simp] theorem key_assembly (a : Assembly) : Keyed.key a = a.id := rfl
@[simp] theorem key_loadTest (t : LoadTest) : Keyed.key t = t.id := rfl
@[simp] theorem key_log (l : Log) : Keyed.key l = l.id := rfl
@[simp] theorem key_module (m : Module) : Keyed.key m = m.id := rfl

end ArtPlatform
