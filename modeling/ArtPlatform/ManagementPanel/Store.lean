import ArtPlatform.ManagementPanel.Entities

/-!
# The stored entities and their repositories

One keyed space for each entity kind, and the repository operations under the
names of the source: `tryGet`, the `get` that raises, `put`, and the insertion
of a row without an id, which the database numbers.

Every read and every put is atomic; what the services do between two of them is
left to the modules that model the services.
-/

namespace ArtPlatform

inductive ErrorCode
  | platformError
  | userDoesNotExists
  | invalidPassword
  | userAlreadyExists
  | preparedConfigurationDoesNotExists
  | preparedConfigurationAlreadyExists
  | projectAlreadyExists
  | projectDoesNotExists
  | assemblyDoesNotExists
  | logDoesNotExists
  | moduleDoesNotExists
  | moduleAlreadyExists
  | loadTestDoesNotExists
  | resourceDoesNotExists
  | unknownResourceType
deriving DecidableEq, Repr

/-- The name of the error code constant, also the message of an exception that
is raised without one. -/
def ErrorCode.code : ErrorCode → String
  | .platformError => "PLATFORM_ERROR"
  | .userDoesNotExists => "USER_DOES_NOT_EXISTS"
  | .invalidPassword => "INVALID_PASSWORD"
  | .userAlreadyExists => "USER_ALREADY_EXISTS"
  | .preparedConfigurationDoesNotExists => "PREPARED_CONFIGURATION_DOES_NOT_EXISTS"
  | .preparedConfigurationAlreadyExists => "PREPARED_CONFGURATION_ALREADY_EXISTS"
  | .projectAlreadyExists => "PROJECT_ALREADY_EXISTS"
  | .projectDoesNotExists => "PROJECT_DOES_NOT_EXISTS"
  | .assemblyDoesNotExists => "ASSEMBLY_DOES_NOT_EXISTS"
  | .logDoesNotExists => "LOG_DOES_NOT_EXISTS"
  | .moduleDoesNotExists => "MODULE_DOES_NOT_EXISTS"
  | .moduleAlreadyExists => "MODULE_ALREADY_EXISTS"
  | .loadTestDoesNotExists => "LOAD_TEST_DOES_NOT_EXISTS"
  | .resourceDoesNotExists => "RESOURCE_DOES_NOT_EXISTS"
  | .unknownResourceType => "UNKNOWN_RESOURCE_TYPE"

structure PlatformException where
  code : ErrorCode
  message : String := code.code
deriving DecidableEq, Repr

/-- The spaces of the panel's database. -/
structure PanelStore where
  projects : Space Project
  assemblies : Space Assembly
  loadTests : Space LoadTest
  logs : Space Log
  modules : Space Module

namespace PanelStore

def empty : PanelStore :=
  ⟨.empty, .empty, .empty, .empty, .empty⟩

/-- The value of an optional row, or the exception that it does not exist. -/
def orElseThrow {α : Type} (row : Option α) (error : PlatformException) :
    Except PlatformException α :=
  match row with
  | some e => .ok e
  | none => .error error

/-! ## Projects -/

def tryGetProject (s : PanelStore) (id : Nat) : Option Project :=
  s.projects.get id

def getProject (s : PanelStore) (id : Nat) : Except PlatformException Project :=
  orElseThrow (s.tryGetProject id)
    ⟨.projectDoesNotExists, s!"Project with id '{id}' does not exists"⟩

/-- The lookup by the unique name index. -/
def getProjectByName (s : PanelStore) (name : String) : Option Project :=
  s.projects.rows.find? fun p => p.name = name

def putProject (s : PanelStore) (p : Project) : PanelStore :=
  { s with projects := s.projects.put p }

/-! ## Assemblies -/

def tryGetAssembly (s : PanelStore) (id : Nat) : Option Assembly :=
  s.assemblies.get id

def getAssembly (s : PanelStore) (id : Nat) : Except PlatformException Assembly :=
  orElseThrow (s.tryGetAssembly id)
    ⟨.assemblyDoesNotExists, s!"Assembly with id '{id}' does not exists"⟩

def putAssembly (s : PanelStore) (a : Assembly) : PanelStore :=
  { s with assemblies := s.assemblies.put a }

/-! ## Load tests -/

def tryGetLoadTest (s : PanelStore) (id : Nat) : Option LoadTest :=
  s.loadTests.get id

def getLoadTest (s : PanelStore) (id : Nat) : Except PlatformException LoadTest :=
  orElseThrow (s.tryGetLoadTest id)
    ⟨.loadTestDoesNotExists, s!"Load test with an id '{id}' does not exist"⟩

def putLoadTest (s : PanelStore) (t : LoadTest) : PanelStore :=
  { s with loadTests := s.loadTests.put t }

/-! ## Logs -/

def getLog (s : PanelStore) (id : Nat) : Except PlatformException Log :=
  orElseThrow (s.logs.get id)
    ⟨.logDoesNotExists, s!"Log with id {id} does not exists"⟩

def putLog (s : PanelStore) (log : Log) : PanelStore :=
  { s with logs := s.logs.put log }

/-- `putLog(Log.builder().build())`: an empty log under the next free id. -/
def putNewLog (s : PanelStore) : PanelStore × Log :=
  let log : Log := { id := s.logs.freshKey }
  (s.putLog log, log)

/-! ## Modules -/

def tryGetModule (s : PanelStore) (id : Nat) : Option Module :=
  s.modules.get id

/-- The missing quote in the message is the source's. -/
def getModule (s : PanelStore) (id : Nat) : Except PlatformException Module :=
  orElseThrow (s.tryGetModule id)
    ⟨.moduleDoesNotExists, s!"Module with id '{id} does not exists"⟩

def getProjectModules (s : PanelStore) (projectId : Nat) : List Module :=
  s.modules.rows.filter fun m => m.projectId = projectId

def putModule (s : PanelStore) (m : Module) : PanelStore :=
  { s with modules := s.modules.put m }

/-! ## What a get finds -/

theorem orElseThrow_eq_ok {α : Type} {row : Option α} {error : PlatformException} {e : α} :
    orElseThrow row error = .ok e ↔ row = some e := by
  cases row <;> simp [orElseThrow]

theorem getProject_eq_ok {s : PanelStore} {id : Nat} {p : Project} :
    s.getProject id = .ok p ↔ s.tryGetProject id = some p :=
  orElseThrow_eq_ok

theorem getAssembly_eq_ok {s : PanelStore} {id : Nat} {a : Assembly} :
    s.getAssembly id = .ok a ↔ s.tryGetAssembly id = some a :=
  orElseThrow_eq_ok

theorem getLog_eq_ok {s : PanelStore} {id : Nat} {log : Log} :
    s.getLog id = .ok log ↔ s.logs.get id = some log :=
  orElseThrow_eq_ok

theorem getModule_eq_ok {s : PanelStore} {id : Nat} {m : Module} :
    s.getModule id = .ok m ↔ s.tryGetModule id = some m :=
  orElseThrow_eq_ok

/-! ## What a put changes -/

@[simp] theorem putAssembly_assemblies (s : PanelStore) (a : Assembly) :
    (s.putAssembly a).assemblies = s.assemblies.put a := rfl

@[simp] theorem putAssembly_logs (s : PanelStore) (a : Assembly) :
    (s.putAssembly a).logs = s.logs := rfl

@[simp] theorem putLog_assemblies (s : PanelStore) (log : Log) :
    (s.putLog log).assemblies = s.assemblies := rfl

@[simp] theorem putLog_logs (s : PanelStore) (log : Log) :
    (s.putLog log).logs = s.logs.put log := rfl

@[simp] theorem putLoadTest_logs (s : PanelStore) (t : LoadTest) :
    (s.putLoadTest t).logs = s.logs := rfl

@[simp] theorem putModule_modules (s : PanelStore) (m : Module) :
    (s.putModule m).modules = s.modules.put m := rfl

@[simp] theorem putProject_projects (s : PanelStore) (p : Project) :
    (s.putProject p).projects = s.projects.put p := rfl

end PanelStore

end ArtPlatform
