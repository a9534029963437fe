import ArtPlatform.ManagementPanel.Store

/-!
# The spaces beside the main ones

What else the panel's database holds about projects: assembly configurations, which
are keyed by their project, load-test scenarios, prepared configurations and external
artifacts; and the OpenShift resources that modules and assemblies run on.
-/

namespace ArtPlatform

structure ArtifactConfiguration where
  artifact : ProjectArtifact
deriving DecidableEq, Repr

/-- The configuration of the assemblies of a project, under the project's id. -/
structure AssemblyConfiguration where
  id : Nat
  defaultResourceId : Option ResourceIdentifier
  technology : Option String
  artifactConfigurations : List ArtifactConfiguration
deriving DecidableEq, Repr

structure LoadTestScenario where
  id : Nat
  projectId : Nat
  name : String
  defaultResourceId : ResourceIdentifier
  launchTechnology : String
  reportTechnology : String
deriving DecidableEq, Repr

structure PreparedConfiguration where
  id : Nat
  projectId : Nat
  profile : String
  name : String
  configuration : String
deriving DecidableEq, Repr

structure ExternalArtifact where
  name : String
  version : String
  projectId : Nat
  externalId : ExternalIdentifier
deriving DecidableEq, Repr

structure OpenShiftResource where
  id : Nat
  name : String
  apiUrl : String
  applicationsDomain : String
  privateRegistryUrl : String
  userName : String
  password : String
deriving DecidableEq, Repr

instance : Keyed AssemblyConfiguration Nat := ⟨AssemblyConfiguration.id⟩
instance : Keyed LoadTestScenario Nat := ⟨LoadTestScenario.id⟩
instance : Keyed PreparedConfiguration Nat := ⟨PreparedConfiguration.id⟩
instance : Keyed OpenShiftResource Nat := ⟨OpenShiftResource.id⟩

structure PanelDatabase where
  panel : PanelStore
  assemblyConfigurations : Space AssemblyConfiguration
  loadTestScenarios : Space LoadTestScenario
  preparedConfigurations : Space PreparedConfiguration
  externalArtifacts : List ExternalArtifact
  openShiftResources : Space OpenShiftResource

namespace PanelDatabase

def empty : PanelDatabase :=
  ⟨.empty, .empty, .empty, .empty, [], .empty⟩

def getExternalArtifacts (db : PanelDatabase) (projectId : Nat) : List ExternalArtifact :=
  db.externalArtifacts.filter fun artifact => artifact.projectId = projectId

def getProjectAssemblies (db : PanelDatabase) (projectId : Nat) : List Assembly :=
  db.panel.assemblies.rows.filter fun a => a.projectId = projectId

def putModule (db : PanelDatabase) (m : Module) : PanelDatabase :=
  { db with panel := db.panel.putModule m }

def getOpenShiftResource (db : PanelDatabase) (id : Nat) :
    Except PlatformException OpenShiftResource :=
  PanelStore.orElseThrow (db.openShiftResources.get id)
    ⟨.resourceDoesNotExists, s!"OpenShift Resource with id '{id}' does not exists"⟩

end PanelDatabase

end ArtPlatform
