import ArtPlatform.Common.Urls
import ArtPlatform.Foundation.Shortcut
import ArtPlatform.ManagementPanel.PanelDatabase

/-!
# Updating the version of modules

`updateModulesVersion` looks up the modules of a request, stores each running one
with the artifact of the requested version, and then starts an update of each.  The
artifact is searched inside the loop that stores, and the update of a module stores
it once more before its manager is created, so a failure can leave a part of the
request behind.

Main results:

- Theorem `storeVersions_error`: what is stored when an artifact is missing.
- Theorem `updateModulesVersion_allOrNothing_iff`: exactly when a failing request
  leaves no trace.
- Theorem `version_half_updated`: a request that leaves one.
-/

namespace ArtPlatform

structure UpdateModulesVersionRequest where
  version : String
  ids : List Nat

inductive VersionFailure
  | noSuchElement
  | platform (error : PlatformException)
deriving DecidableEq, Repr

/-- The database, and the modules whose update has been started. -/
structure VersionUpdates where
  database : PanelDatabase
  started : List Module := []

/-! ## The service -/

def externalAssembledArtifact (artifact : ExternalArtifact) : AssembledArtifact where
  name := artifact.name
  version := artifact.version
  externalId := artifact.externalId

/-- The artifacts of the project's assemblies and its external ones, of one version
unless the version is blank. -/
def PanelDatabase.getAssembledProjectArtifacts (db : PanelDatabase) (projectId : Nat)
    (version : String) : List AssembledArtifact :=
  let external := (db.getExternalArtifacts projectId).map externalAssembledArtifact
  let internal := (db.getProjectAssemblies projectId).flatMap Assembly.artifacts
  let artifacts := internal ++ external
  if isBlank version then artifacts
  else artifacts.filter fun artifact => artifact.version = version

def resourceTypeName : ResourceType → String
  | .openShift => "OPEN_SHIFT_RESOURCE"
  | .git => "GIT_RESOURCE"
  | .artifacts => "ARTIFACTS_RESOURCE"
  | .platform => "PLATFORM_RESOURCE"
  | .proxy => "PROXY_RESOURCE"

/-- The manager of a module: the resource that its agent runs on. -/
def PanelDatabase.createModuleManager (db : PanelDatabase) (resourceId : ResourceIdentifier) :
    Except PlatformException OpenShiftResource :=
  match resourceId.type with
  | .openShift => db.getOpenShiftResource resourceId.id
  | type => .error
      ⟨.unknownResourceType, s!"Unknown resource type '{resourceTypeName type}'"⟩

/-- The module with the artifact of the requested version, when there is one. -/
def versionedModule (artifacts : List AssembledArtifact) (version : String) (m : Module) :
    Option Module :=
  (artifacts.find? fun artifact =>
    artifact.name = m.artifact.name &&
      artifact.externalId.resourceId = m.artifact.externalId.resourceId).map fun artifact =>
    { m with artifact :=
      { m.artifact with externalId := artifact.externalId, version := version } }

/-- Store one module after the other, up to the first without an artifact. -/
def storeVersions (versioned : Module → Option Module) :
    List Module → PanelDatabase → PanelDatabase × Except VersionFailure (List Module)
  | [], db => (db, .ok [])
  | m :: ms, db =>
      match versioned m with
      | none => (db, .error .noSuchElement)
      | some newModule =>
          match storeVersions versioned ms (db.putModule newModule) with
          | (db', .ok rest) => (db', .ok (newModule :: rest))
          | (db', .error e) => (db', .error e)

/-- The module is stored as being updated before its project and its manager are
looked up. -/
def processModuleUpdating (m : Module) (s : VersionUpdates) :
    VersionUpdates × Except VersionFailure Unit :=
  let newModule := { m with state := .updateStarted }
  let s := { s with database := s.database.putModule newModule }
  match s.database.panel.getProject m.projectId with
  | .error e => (s, .error (.platform e))
  | .ok _ =>
      match s.database.createModuleManager m.resourceId with
      | .error e => (s, .error (.platform e))
      | .ok _ => ({ s with started := s.started ++ [newModule] }, .ok ())

def processModulesUpdating :
    List Module → VersionUpdates → VersionUpdates × Except VersionFailure Unit
  | [], s => (s, .ok ())
  | m :: ms, s =>
      match processModuleUpdating m s with
      | (s', .error e) => (s', .error e)
      | (s', .ok ()) => processModulesUpdating ms s'

def PanelDatabase.getModules (db : PanelDatabase) (ids : List Nat) :
    Except PlatformException (List Module) :=
  ids.mapM db.panel.getModule

def updateModulesVersion (request : UpdateModulesVersionRequest) (db : PanelDatabase) :
    VersionUpdates × Except VersionFailure Unit :=
  match request.ids with
  | [] => ({ database := db }, .error .noSuchElement)
  | id :: _ =>
      match db.panel.getModule id with
      | .error e => ({ database := db }, .error (.platform e))
      | .ok first =>
          let artifacts := db.getAssembledProjectArtifacts first.projectId request.version
          match db.getModules request.ids with
          | .error e => ({ database := db }, .error (.platform e))
          | .ok modules =>
              let running := modules.filter fun m => m.state = .run
              match storeVersions (versionedModule artifacts request.version) running db with
              | (db', .error e) => ({ database := db' }, .error e)
              | (db', .ok newModules) =>
                  processModulesUpdating newModules { database := db' }

/-! ## What is stored -/

def PanelDatabase.putModules (db : PanelDatabase) (ms : List Module) : PanelDatabase :=
  ms.foldl putModule db

theorem PanelDatabase.putModules_modules (db : PanelDatabase) (ms : List Module) :
    (db.putModules ms).panel.modules = db.panel.modules.putAll ms := by
  induction ms generalizing db with
  | nil => rfl
  | cons m ms ih => exact ih (db.putModule m)

@[simp]
theorem versionedModule_id {artifacts : List AssembledArtifact} {version : String}
    {m m' : Module} (h : versionedModule artifacts version m = some m') : m'.id = m.id := by
  obtain ⟨artifact, -, rfl⟩ := Option.map_eq_some_iff.mp h
  rfl

/-- With an artifact for every module all are stored. -/
theorem storeVersions_ok {versioned : Module → Option Module} {ms : List Module}
    (h : ∀ m ∈ ms, (versioned m).isSome = true) (db : PanelDatabase) :
    storeVersions versioned ms db =
      (db.putModules (ms.filterMap versioned), .ok (ms.filterMap versioned)) := by
  induction ms generalizing db with
  | nil => rfl
  | cons m ms ih =>
      obtain ⟨newModule, hnew⟩ := Option.isSome_iff_exists.mp (h m List.mem_cons_self)
      have htail := ih (fun n hn => h n (List.mem_cons_of_mem m hn)) (db.putModule newModule)
      simp only [storeVersions, hnew, htail, List.filterMap_cons_some hnew]
      rfl

/-- Up to the first module without an artifact the modules are stored. -/
theorem storeVersions_error {versioned : Module → Option Module} {stored : List Module}
    (h : ∀ m ∈ stored, (versioned m).isSome = true) {m : Module} (hm : versioned m = none)
    (rest : List Module) (db : PanelDatabase) :
    storeVersions versioned (stored ++ m :: rest) db =
      (db.putModules (stored.filterMap versioned), .error .noSuchElement) := by
  induction stored generalizing db with
  | nil => simp [storeVersions, hm, PanelDatabase.putModules]
  | cons n stored ih =>
      obtain ⟨newModule, hnew⟩ := Option.isSome_iff_exists.mp (h n List.mem_cons_self)
      have htail := ih (fun k hk => h k (List.mem_cons_of_mem n hk)) (db.putModule newModule)
      simp only [List.cons_append, storeVersions, hnew, htail,
        List.filterMap_cons_some hnew]
      rfl

/-- Either every module has an artifact, or there is a first one without. -/
theorem forall_isSome_or_first {α β : Type} (f : α → Option β) (xs : List α) :
    (∀ x ∈ xs, (f x).isSome = true) ∨ ∃ pre x post, xs = pre ++ x :: post ∧
      (∀ y ∈ pre, (f y).isSome = true) ∧ f x = none := by
  induction xs with
  | nil => exact .inl fun _ hx => nomatch hx
  | cons x xs ih =>
      cases hx : f x with
      | none => exact .inr ⟨[], x, xs, rfl, fun _ hy => (nomatch hy), hx⟩
      | some y =>
          rcases ih with hall | ⟨pre, z, post, rfl, hpre, hz⟩
          · refine .inl ?_
            simpa [hx] using hall
          · refine .inr ⟨x :: pre, z, post, rfl, ?_, hz⟩
            simpa [hx] using hpre

theorem get_of_getModules {db : PanelDatabase} {ids : List Nat} {ms : List Module}
    (h : db.getModules ids = .ok ms) : ∀ m ∈ ms, db.panel.modules.get m.id = some m := by
  induction ids generalizing ms with
  | nil =>
      cases h
      intro m hm
      cases hm
  | cons id ids ih =>
      unfold PanelDatabase.getModules at h
      rw [List.mapM_cons] at h
      rcases exists_of_bind_eq_ok h with ⟨first, hfirst, hbind⟩
      rcases exists_of_bind_eq_ok hbind with ⟨rest, hrest, hok⟩
      cases hok
      intro m hm
      rcases List.mem_cons.mp hm with rfl | hm
      · have hrow := PanelStore.getModule_eq_ok.mp hfirst
        have hid : m.id = id := Space.key_of_get hrow
        rw [hid]
        exact hrow
      · exact ih hrest m hm

/-- Storing the new versions of stored modules changes nothing exactly when they have
the requested artifact already. -/
theorem putModules_unchanged_iff {artifacts : List AssembledArtifact} {version : String}
    {db : PanelDatabase} {stored : List Module}
    (hsome : ∀ m ∈ stored, (versionedModule artifacts version m).isSome = true)
    (hrows : ∀ m ∈ stored, db.panel.modules.get m.id = some m) :
    (∀ id, (db.putModules (stored.filterMap (versionedModule artifacts version))).panel.modules.get
        id = db.panel.modules.get id) ↔
      ∀ m ∈ stored, versionedModule artifacts version m = some m := by
  let newVersion : Module → Module := fun m => (versionedModule artifacts version m).getD m
  have hnew : ∀ m ∈ stored, versionedModule artifacts version m = some (newVersion m) := by
    intro m hm
    obtain ⟨m', hm'⟩ := Option.isSome_iff_exists.mp (hsome m hm)
    simp [newVersion, hm']
  have hkey : ∀ m, Keyed.key (newVersion m) = Keyed.key m := by
    intro m
    cases hm : versionedModule artifacts version m with
    | none => simp [newVersion, hm]
    | some m' =>
        have hid := versionedModule_id hm
        simpa [newVersion, hm] using hid
  have hmap : stored.filterMap (versionedModule artifacts version) = stored.map newVersion := by
    rw [← List.filterMap_eq_map]
    exact List.filterMap_congr hnew
  have hget := db.panel.modules.get_putAll_map stored newVersion hkey hrows
  rw [PanelDatabase.putModules_modules, hmap]
  constructor
  · intro hsame m hm
    have hm' := (hget m.id).symm.trans (hsame m.id)
    rw [hrows m hm, Option.map_some, if_pos hm, Option.some.injEq] at hm'
    rw [hnew m hm, hm']
  · intro hsame id
    rw [hget]
    cases hrow : db.panel.modules.get id with
    | none => rfl
    | some m =>
        rw [Option.map_some]
        split
        · rename_i hm
          exact (hnew m hm).symm.trans (hsame m hm)
        · rfl

/-! ## What is started -/

/-- The project and the resource of the module are there. -/
def PanelDatabase.CanManage (db : PanelDatabase) (m : Module) : Prop :=
  (∃ project, db.panel.getProject m.projectId = .ok project) ∧
    ∃ resource, db.createModuleManager m.resourceId = .ok resource

/-- The module is stored as being updated. -/
def PanelDatabase.IsUpdating (db : PanelDatabase) (id : Nat) : Prop :=
  ∃ m, db.panel.modules.get id = some m ∧ m.state = .updateStarted

theorem processModuleUpdating_database (m : Module) (s : VersionUpdates) :
    (processModuleUpdating m s).1.database =
      s.database.putModule { m with state := .updateStarted } := by
  unfold processModuleUpdating
  dsimp only
  split
  · rfl
  · split
    · rfl
    · rfl

theorem processModuleUpdating_ok_iff (m : Module) (s : VersionUpdates) :
    (processModuleUpdating m s).2 = .ok () ↔ s.database.CanManage m := by
  unfold processModuleUpdating PanelDatabase.CanManage
  have hproject : (s.database.putModule { m with state := .updateStarted }).panel.getProject
      m.projectId = s.database.panel.getProject m.projectId := rfl
  have hmanager : (s.database.putModule { m with state := .updateStarted }).createModuleManager
      m.resourceId = s.database.createModuleManager m.resourceId := rfl
  dsimp only
  rw [hproject, hmanager]
  cases s.database.panel.getProject m.projectId with
  | error e => simp
  | ok project =>
      cases s.database.createModuleManager m.resourceId with
      | error e => simp
      | ok resource => simp

theorem canManage_putModule (db : PanelDatabase) (n m : Module) :
    (db.putModule n).CanManage m ↔ db.CanManage m :=
  Iff.rfl

theorem processModulesUpdating_ok_iff (ms : List Module) (s : VersionUpdates) :
    (processModulesUpdating ms s).2 = .ok () ↔ ∀ m ∈ ms, s.database.CanManage m := by
  induction ms generalizing s with
  | nil => simp [processModulesUpdating]
  | cons m ms ih =>
      have hhead := processModuleUpdating_ok_iff m s
      have hdatabase := processModuleUpdating_database m s
      unfold processModulesUpdating
      rw [List.forall_mem_cons, ← hhead]
      cases hprocess : processModuleUpdating m s with
      | mk s' result =>
          rw [hprocess] at hdatabase
          cases result with
          | error e => simp
          | ok u =>
              have htail := ih s'
              rw [hdatabase] at htail
              simpa [canManage_putModule] using htail

theorem isUpdating_process {id : Nat} (ms : List Module) {s : VersionUpdates}
    (h : s.database.IsUpdating id) : (processModulesUpdating ms s).1.database.IsUpdating id := by
  induction ms generalizing s with
  | nil => exact h
  | cons m ms ih =>
      have hdatabase := processModuleUpdating_database m s
      have hkept : (processModuleUpdating m s).1.database.IsUpdating id := by
        rw [hdatabase]
        obtain ⟨n, hn, hstate⟩ := h
        by_cases hid : id = m.id
        · subst hid
          exact ⟨_, Space.get_put_self _ _, rfl⟩
        · exact ⟨n, (Space.get_put_of_ne _ _ hid).trans hn, hstate⟩
      unfold processModulesUpdating
      cases hprocess : processModuleUpdating m s with
      | mk s' result =>
          rw [hprocess] at hkept
          cases result with
          | error e => exact hkept
          | ok u => exact ih hkept

/-- Starting the updates stores the first module as being updated, whether or not they
succeed. -/
theorem isUpdating_first (m : Module) (ms : List Module) (s : VersionUpdates) :
    (processModulesUpdating (m :: ms) s).1.database.IsUpdating m.id := by
  have hfirst : (processModuleUpdating m s).1.database.IsUpdating m.id := by
    rw [processModuleUpdating_database]
    exact ⟨_, Space.get_put_self _ _, rfl⟩
  unfold processModulesUpdating
  cases hprocess : processModuleUpdating m s with
  | mk s' result =>
      rw [hprocess] at hfirst
      cases result with
      | error e => exact hfirst
      | ok u => exact isUpdating_process ms hfirst

/-! ## All or nothing -/

/-- A request that raises has changed no stored module and started no update. -/
def AllOrNothing (request : UpdateModulesVersionRequest) (db : PanelDatabase) : Prop :=
  ∀ e, (updateModulesVersion request db).2 = .error e →
    (∀ id, (updateModulesVersion request db).1.database.panel.modules.get id =
      db.panel.modules.get id) ∧
    (updateModulesVersion request db).1.started = []

/-- When the modules of the request are all stored: before the first running module
without an artifact none would change, and when all have one, all can be managed. -/
def VersionsStorable (request : UpdateModulesVersionRequest) (db : PanelDatabase) : Prop :=
  ∀ id first modules, request.ids.head? = some id → db.panel.getModule id = .ok first →
    db.getModules request.ids = .ok modules →
    let versioned := versionedModule
      (db.getAssembledProjectArtifacts first.projectId request.version) request.version
    let running := modules.filter fun m => m.state = .run
    (∀ stored m rest, running = stored ++ m :: rest →
      (∀ n ∈ stored, (versioned n).isSome = true) → versioned m = none →
        ∀ n ∈ stored, versioned n = some n) ∧
    ((∀ m ∈ running, (versioned m).isSome = true) → ∀ m ∈ running, db.CanManage m)

/-- A request without ids, or with an unknown id, raises before it has done anything. -/
theorem updateModulesVersion_of_unknown {request : UpdateModulesVersionRequest}
    {db : PanelDatabase}
    (h : ¬ ∃ id first modules, request.ids.head? = some id ∧
      db.panel.getModule id = .ok first ∧ db.getModules request.ids = .ok modules) :
    (updateModulesVersion request db).1 = { database := db } := by
  unfold updateModulesVersion
  split
  · rfl
  · rename_i id ids hids
    split
    · rfl
    · rename_i first hfirst
      dsimp only
      split
      · rfl
      · rename_i modules hmodules
        exact absurd ⟨id, first, modules, by rw [hids]; rfl, hfirst, hmodules⟩ h

theorem updateModulesVersion_of_known {request : UpdateModulesVersionRequest}
    {db : PanelDatabase} {id : Nat} {first : Module} {modules : List Module}
    (hid : request.ids.head? = some id) (hfirst : db.panel.getModule id = .ok first)
    (hmodules : db.getModules request.ids = .ok modules) :
    updateModulesVersion request db =
      match storeVersions (versionedModule
          (db.getAssembledProjectArtifacts first.projectId request.version) request.version)
          (modules.filter fun m => m.state = .run) db with
      | (db', .error e) => ({ database := db' }, .error e)
      | (db', .ok newModules) => processModulesUpdating newModules { database := db' } := by
  unfold updateModulesVersion
  split
  · rename_i hnil
    rw [hnil] at hid
    cases hid
  · rename_i id' ids hids
    have heq : id' = id := by simpa [hids] using hid
    subst heq
    simp only [hfirst, hmodules]

theorem versionedModule_resource {artifacts : List AssembledArtifact} {version : String}
    {m m' : Module} (h : versionedModule artifacts version m = some m') :
    m'.resourceId = m.resourceId ∧ m'.projectId = m.projectId := by
  obtain ⟨artifact, -, rfl⟩ := Option.map_eq_some_iff.mp h
  exact ⟨rfl, rfl⟩

theorem canManage_putModules (db : PanelDatabase) (ms : List Module) (m : Module) :
    (db.putModules ms).CanManage m ↔ db.CanManage m := by
  induction ms generalizing db with
  | nil => exact Iff.rfl
  | cons n ms ih => exact (ih (db.putModule n)).trans (canManage_putModule db n m)

theorem canManage_versionedModule {db : PanelDatabase} {artifacts : List AssembledArtifact}
    {version : String} {m m' : Module} (h : versionedModule artifacts version m = some m') :
    db.CanManage m' ↔ db.CanManage m := by
  have hsame := versionedModule_resource h
  unfold PanelDatabase.CanManage
  rw [hsame.1, hsame.2]

/-- With an artifact for every running module the request succeeds exactly when all of
them can be managed. -/
theorem processModulesUpdating_versioned_ok_iff {db : PanelDatabase}
    {artifacts : List AssembledArtifact} {version : String} {running : List Module}
    (hall : ∀ m ∈ running, (versionedModule artifacts version m).isSome = true) :
    (processModulesUpdating (running.filterMap (versionedModule artifacts version))
      { database := db.putModules
          (running.filterMap (versionedModule artifacts version)) }).2 = .ok () ↔
      ∀ m ∈ running, db.CanManage m := by
  rw [processModulesUpdating_ok_iff]
  constructor
  · intro hmanage m hm
    obtain ⟨m', hm'⟩ := Option.isSome_iff_exists.mp (hall m hm)
    have hnew := hmanage m' (List.mem_filterMap.mpr ⟨m, hm, hm'⟩)
    rw [canManage_putModules] at hnew
    exact (canManage_versionedModule hm').mp hnew
  · intro hmanage m' hm'
    obtain ⟨m, hm, hversioned⟩ := List.mem_filterMap.mp hm'
    rw [canManage_putModules]
    exact (canManage_versionedModule hversioned).mpr (hmanage m hm)

/-! The two ways the request goes once its running modules are known. -/

section Known

variable {request : UpdateModulesVersionRequest} {db : PanelDatabase}
variable {artifacts : List AssembledArtifact} {running : List Module}

theorem allOrNothing_iff_of_found
    (hupdate : updateModulesVersion request db =
      processModulesUpdating (running.filterMap (versionedModule artifacts request.version))
        { database := db.putModules
            (running.filterMap (versionedModule artifacts request.version)) })
    (hrows : ∀ m ∈ running, db.panel.modules.get m.id = some m ∧ m.state = .run)
    (hall : ∀ m ∈ running, (versionedModule artifacts request.version m).isSome = true) :
    AllOrNothing request db ↔ ∀ m ∈ running, db.CanManage m := by
  have hok : _ ↔ ∀ m ∈ running, db.CanManage m :=
    processModulesUpdating_versioned_ok_iff hall
  rw [← hupdate] at hok
  rw [← hok]
  constructor
  · intro hnothing
    cases hresult : (updateModulesVersion request db).2 with
    | ok u => rfl
    | error e =>
        refine absurd (hnothing e hresult).1 ?_
        cases running with
        | nil => simp [hupdate, processModulesUpdating] at hresult
        | cons n ns =>
            -- The first module has been stored as being updated, so it has changed.
            intro hsame
            obtain ⟨hrow, hrun⟩ := hrows n List.mem_cons_self
            obtain ⟨n', hn'⟩ := Option.isSome_iff_exists.mp (hall n List.mem_cons_self)
            rw [List.filterMap_cons_some hn'] at hupdate
            obtain ⟨k, hk, hstate⟩ := isUpdating_first n'
              (ns.filterMap (versionedModule artifacts request.version)) _
            rw [← hupdate, versionedModule_id hn', hsame, hrow, Option.some.injEq] at hk
            rw [← hk, hrun] at hstate
            cases hstate
  · intro hresult e he
    rw [hresult] at he
    cases he

theorem allOrNothing_iff_of_missing {stored rest : List Module} {m : Module}
    (hupdate : updateModulesVersion request db =
      ({ database := db.putModules
          (stored.filterMap (versionedModule artifacts request.version)) },
        .error .noSuchElement))
    (hrows : ∀ n ∈ stored ++ m :: rest, db.panel.modules.get n.id = some n)
    (hstored : ∀ n ∈ stored, (versionedModule artifacts request.version n).isSome = true) :
    AllOrNothing request db ↔
      ∀ n ∈ stored, versionedModule artifacts request.version n = some n := by
  rw [← putModules_unchanged_iff hstored
    fun n hn => hrows n (List.mem_append_left (m :: rest) hn)]
  unfold AllOrNothing
  rw [hupdate]
  simp

end Known

/-- A failing request leaves no trace exactly when it fails on a module that comes
before all that it would change, and cannot fail once all artifacts are found. -/
theorem updateModulesVersion_allOrNothing_iff (request : UpdateModulesVersionRequest)
    (db : PanelDatabase) : AllOrNothing request db ↔ VersionsStorable request db := by
  by_cases hknown : ∃ id first modules, request.ids.head? = some id ∧
      db.panel.getModule id = .ok first ∧ db.getModules request.ids = .ok modules
  swap
  · have hnothing := updateModulesVersion_of_unknown hknown
    refine iff_of_true ?_ ?_
    · intro e _
      rw [hnothing]
      exact ⟨fun _ => rfl, rfl⟩
    · intro id first modules hid hfirst hmodules
      exact absurd ⟨id, first, modules, hid, hfirst, hmodules⟩ hknown
  obtain ⟨id, first, modules, hid, hfirst, hmodules⟩ := hknown
  have hupdate := updateModulesVersion_of_known hid hfirst hmodules
  have hunique : VersionsStorable request db ↔ _ :=
    ⟨fun h => h id first modules hid hfirst hmodules, by
      intro h id' first' modules' hid' hfirst' hmodules'
      cases hid.symm.trans hid'
      cases hfirst.symm.trans hfirst'
      cases hmodules.symm.trans hmodules'
      exact h⟩
  rw [hunique]
  dsimp only
  generalize db.getAssembledProjectArtifacts first.projectId request.version = artifacts
    at hupdate ⊢
  have hrows : ∀ m ∈ modules.filter fun m => m.state = .run,
      db.panel.modules.get m.id = some m ∧ m.state = .run := by
    intro m hm
    obtain ⟨hmem, hrun⟩ := List.mem_filter.mp hm
    exact ⟨get_of_getModules hmodules m hmem, by simpa using hrun⟩
  generalize (modules.filter fun m => m.state = .run) = running at hupdate hrows ⊢
  -- What is stored is the same for every place where an artifact may be missing.
  have hmissing : ∀ stored m rest, running = stored ++ m :: rest →
      (∀ n ∈ stored, (versionedModule artifacts request.version n).isSome = true) →
      versionedModule artifacts request.version m = none →
      (AllOrNothing request db ↔
        ∀ n ∈ stored, versionedModule artifacts request.version n = some n) := by
    intro stored m rest hsplit hstored hm
    subst hsplit
    rw [storeVersions_error hstored hm] at hupdate
    exact allOrNothing_iff_of_missing hupdate (fun n hn => (hrows n hn).1) hstored
  have hfound : (∀ m ∈ running, (versionedModule artifacts request.version m).isSome = true) →
      (AllOrNothing request db ↔ ∀ m ∈ running, db.CanManage m) := by
    intro hall
    rw [storeVersions_ok hall] at hupdate
    exact allOrNothing_iff_of_found hupdate hrows hall
  constructor
  · intro hnothing
    refine ⟨?_, ?_⟩
    · intro stored m rest hsplit hstored hm
      exact (hmissing stored m rest hsplit hstored hm).mp hnothing
    · intro hall
      exact (hfound hall).mp hnothing
  · intro hstorable
    rcases forall_isSome_or_first (versionedModule artifacts request.version) running with
      hall | ⟨stored, m, rest, hsplit, hstored, hm⟩
    · exact (hfound hall).mpr (hstorable.2 hall)
    · exact (hmissing stored m rest hsplit hstored hm).mpr
        (hstorable.1 stored m rest hsplit hstored hm)

/-- A running module that was deployed from version 1.0 of the named artifact. -/
def deployedModule (id : Nat) (name : String) : Module where
  id := id
  name := name
  projectId := 1
  externalId := ⟨name, ⟨1, "cluster", .openShift⟩⟩
  resourceId := ⟨1, "cluster", .openShift⟩
  artifact := ⟨name, "1.0", ⟨name ++ ":1.0", ⟨2, "registry", .artifacts⟩⟩⟩
  url := none
  parameters := none
  count := 1
  probesConfiguration := none
  state := .run
  updateTimeStamp := 0
  ports := []
  preparedConfigurations := []
  manualConfigurations := []
  additionalFiles := []
  applications := []

/-- Two running modules; version 2.0 has been published for the first one only. -/
def halfPublished : PanelDatabase :=
  let db := (PanelDatabase.empty.putModule (deployedModule 1 "api")).putModule
    (deployedModule 2 "worker")
  { db with externalArtifacts :=
    [⟨"api", "2.0", 1, ⟨"api:2.0", ⟨2, "registry", .artifacts⟩⟩⟩] }

/-- The first module is stored with the new version, and the request raises at the
second. -/
theorem version_half_updated :
    (updateModulesVersion ⟨"2.0", [1, 2]⟩ halfPublished).2 = .error .noSuchElement ∧
      ((updateModulesVersion ⟨"2.0", [1, 2]⟩ halfPublished).1.database.panel.modules.get 1).map
        (fun m => m.artifact.version) = some "2.0" ∧
      (halfPublished.panel.modules.get 1).map (fun m => m.artifact.version) = some "1.0" ∧
      ¬ AllOrNothing ⟨"2.0", [1, 2]⟩ halfPublished := by
  have hraises : (updateModulesVersion ⟨"2.0", [1, 2]⟩ halfPublished).2 =
      .error .noSuchElement := by decide +kernel
  have hnew : ((updateModulesVersion ⟨"2.0", [1, 2]⟩ halfPublished).1.database.panel.modules.get
      1).map (fun m => m.artifact.version) = some "2.0" := by decide +kernel
  have hold : (halfPublished.panel.modules.get 1).map (fun m => m.artifact.version) =
      some "1.0" := by decide +kernel
  refine ⟨hraises, hnew, hold, ?_⟩
  intro hnothing
  rw [(hnothing _ hraises).1 1, hold] at hnew
  revert hnew
  decide +kernel

end ArtPlatform
