import ArtPlatform.Common.Names
import ArtPlatform.ManagementPanel.Store

/-!
# Projects: requests and the operations on the store

The factory of a project, and `addProject`, `updateProject` and the put of
`reloadProject` as functions of the store.  An exception leaves the store as it
is.  The names of the git resources are read from a repository that nothing here
changes, so they are a parameter.
-/

namespace ArtPlatform

structure ProjectRequest where
  name : String
  gitResourceId : Nat
  initializationResourceId : ResourceIdentifier
  openShiftConfiguration : Option ProjectOpenShiftConfiguration
  notificationsConfiguration : Option ProjectNotificationsConfiguration

structure ProjectUpdateRequest where
  id : Nat
  name : String
  openShiftConfiguration : Option ProjectOpenShiftConfiguration
  notificationsConfiguration : Option ProjectNotificationsConfiguration

/-- What the naming of projects and modules takes from outside of the store. -/
structure Naming where
  toLowerCase : String → String
  gitResourceName : Nat → Except PlatformException String

/-- `createProject(request)`, under the id that the database gives to it. -/
def createProject (naming : Naming) (request : ProjectRequest) (gitName : String)
    (id now : Nat) : Project where
  id := id
  name := request.name
  initializationResourceId := request.initializationResourceId
  externalId :=
    { id := normalizeNameToId naming.toLowerCase request.name
      resourceId := request.initializationResourceId }
  gitResourceId := { id := request.gitResourceId, name := gitName, type := .git }
  openShiftConfiguration := request.openShiftConfiguration
  notificationsConfiguration := request.notificationsConfiguration
  creationTimeStamp := now

/-- The project as an edit puts it: its name and its two configurations are those of
the request. -/
def editedProject (p : Project) (request : ProjectUpdateRequest) : Project :=
  { p with
    name := request.name
    openShiftConfiguration := request.openShiftConfiguration
    notificationsConfiguration := request.notificationsConfiguration }

namespace PanelStore

/-- The put of `addProject`; the initialization goes on asynchronously. -/
def addProject (naming : Naming) (request : ProjectRequest) (now : Nat) (s : PanelStore) :
    Except PlatformException PanelStore :=
  match s.getProjectByName request.name with
  | some _ => .error { code := .projectAlreadyExists }
  | none =>
      match naming.gitResourceName request.gitResourceId with
      | .error e => .error e
      | .ok gitName =>
          .ok (s.putProject (createProject naming request gitName s.projects.freshKey now))

/-- A changed name must be free; the external id stays as it is. -/
def updateProject (request : ProjectUpdateRequest) (s : PanelStore) :
    Except PlatformException PanelStore :=
  match s.getProject request.id with
  | .error e => .error e
  | .ok project =>
      if request.name ≠ project.name ∧ (s.getProjectByName request.name).isSome then
        .error { code := .projectAlreadyExists }
      else .ok (s.putProject (editedProject project request))

end PanelStore

/-! ## Sample projects -/

namespace SampleProject

def naming : Naming where
  toLowerCase := asciiLowerCase
  gitResourceName := fun _ => .ok "git"

def requestNamed (name : String) : ProjectRequest where
  name := name
  gitResourceId := 1
  initializationResourceId := ⟨1, "cluster", .openShift⟩
  openShiftConfiguration := none
  notificationsConfiguration := none

def projectNamed (name : String) (id : Nat) : Project :=
  createProject naming (requestNamed name) "git" id 0

end SampleProject

end ArtPlatform
