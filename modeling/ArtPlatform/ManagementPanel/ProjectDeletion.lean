import ArtPlatform.Foundation.Sweep
import ArtPlatform.ManagementPanel.BuildResources
import ArtPlatform.ManagementPanel.ModuleVersions

/-!
# Deleting a project

`deleteProject` deletes the modules of a project one by one, then its assemblies, each
after it has been cancelled, and then the project.  A cancellation starts an
asynchronous destruction of the agent, whose first action looks up the project of the
assembly: the thread that deletes the project and the destructions run interleaved.

Nothing else that refers to the project is looked at: its assembly configuration, load
tests, scenarios, prepared configurations and external artifacts stay.

Main results:

- Theorem `Deleting.of_step`: the sweeps over the modules and over the assemblies are
  kept by every step.
- Theorem `references_of_finished`: a finished deletion leaves nothing that refers to
  the project exactly when nothing but its modules and assemblies did.
-/

namespace ArtPlatform

open Interleaving

/-! ## The repositories' deletions -/

namespace PanelStore

def deleteProject (s : PanelStore) (id : Nat) : Except PlatformException PanelStore :=
  (s.getProject id).map fun _ => { s with projects := s.projects.delete id }

def deleteAssembly (s : PanelStore) (id : Nat) : Except PlatformException PanelStore :=
  (s.getAssembly id).map fun _ => { s with assemblies := s.assemblies.delete id }

def deleteModule (s : PanelStore) (id : Nat) : Except PlatformException PanelStore :=
  (s.getModule id).map fun _ => { s with modules := s.modules.delete id }

end PanelStore

/-- The builder of an assembly's agent.  The missing quote in the message is the
source's. -/
def PanelDatabase.createProjectBuilder (db : PanelDatabase) (resourceId : ResourceIdentifier)
    (_project : Project) : Except PlatformException OpenShiftResource :=
  match resourceId.type with
  | .openShift => db.getOpenShiftResource resourceId.id
  | type => .error ⟨.unknownResourceType, s!"Unknown resource type '{resourceTypeName type}"⟩

/-! ## The deletion as tasks -/

/-- The database with the maps of the build service. -/
structure DeletionState where
  database : PanelDatabase
  builds : Registry := {}

/-- What the build service sees. -/
def DeletionState.panel (s : DeletionState) : PanelState :=
  { store := s.database.panel, builds := s.builds }

def DeletionState.withStore (s : DeletionState) (store : PanelStore) : DeletionState :=
  { s with database := { s.database with panel := store } }

def DeletionState.withPanel (s : DeletionState) (p : PanelState) : DeletionState :=
  { s.withStore p.store with builds := p.builds }

/-- The positions of `deleteProject` and the destructions that it starts.  The lists are
the ids that a loop has still to go through; a destruction keeps the cancelled assembly. -/
inductive DeletionTask
  | readModules (projectId : Nat)
  | deleteModules (projectId : Nat) (ids : List Nat)
  | readAssemblies (projectId : Nat)
  | cancelAssembly (projectId : Nat) (ids : List Nat)
  | putCanceled (projectId : Nat) (currentAssembly : Assembly) (ids : List Nat)
  | deleteAssembly (projectId id : Nat) (ids : List Nat)
  | deleteProject (projectId : Nat)
  | asynchronous (newAssembly : Assembly) (t : AssemblyTask)

abbrev DeletionConfig := Config DeletionState DeletionTask

/-- The deletion itself, in contrast to the destructions. -/
def DeletionTask.isThread : DeletionTask → Bool
  | .asynchronous _ _ => false
  | _ => true

/-- One action of the thread that deletes a project. -/
def deletionStep (now : Nat) (s : DeletionState) :
    DeletionTask → DeletionState × List DeletionTask
  | .readModules projectId =>
      (s, [.deleteModules projectId
        ((s.database.panel.getProjectModules projectId).map (·.id))])
  | .deleteModules projectId [] => (s, [.readAssemblies projectId])
  | .deleteModules projectId (id :: ids) =>
      match s.database.panel.deleteModule id with
      | .error _ => (s, [])
      | .ok store => (s.withStore store, [.deleteModules projectId ids])
  | .readAssemblies projectId =>
      (s, [.cancelAssembly projectId
        ((s.database.getProjectAssemblies projectId).map (·.id))])
  | .cancelAssembly projectId [] => (s, [.deleteProject projectId])
  | .cancelAssembly projectId (id :: ids) =>
      match s.database.panel.getAssembly id with
      | .error _ => (s, [])
      | .ok currentAssembly =>
          if currentAssembly.isRunning then (s, [.putCanceled projectId currentAssembly ids])
          else (s, [.deleteAssembly projectId id ids])
  | .putCanceled projectId currentAssembly ids =>
      let (panel, started) := cancelPutStep currentAssembly none now s.panel
      (s.withPanel panel,
        .deleteAssembly projectId currentAssembly.id ids ::
          started.map (.asynchronous (canceledAssembly currentAssembly now)))
  | .deleteAssembly projectId id ids =>
      match s.database.panel.deleteAssembly id with
      | .error _ => (s, [])
      | .ok store => (s.withStore store, [.cancelAssembly projectId ids])
  | .deleteProject projectId =>
      match s.database.panel.deleteProject projectId with
      | .error _ => (s, [])
      | .ok store => (s.withStore store, [])
  | .asynchronous _ _ => (s, [])

/-- The lookups of the builder of a cancelled assembly. -/
def DeletionState.findBuilder (s : DeletionState) (newAssembly : Assembly) :
    Except PlatformException OpenShiftResource :=
  match s.database.panel.getProject newAssembly.projectId with
  | .error e => .error e
  | .ok project => s.database.createProjectBuilder newAssembly.resourceId project

/-- An action of a destruction goes as its signal says, except that a builder cannot be
created without the project and the resource. -/
def DeletionState.signal (s : DeletionState) (newAssembly : Assembly) :
    AssemblyTask → Signal AssemblyEvent → Signal AssemblyEvent
  | .destroy _ _ .createBuilder, .go now =>
      match s.findBuilder newAssembly with
      | .error e => .fail e.message
      | .ok _ => .go now
  | _, x => x

/-- One atomic action of the deletion or of a destruction. -/
def DeletionTask.step (r : Rendering) :
    Interleaving.Actions DeletionState DeletionTask (Signal AssemblyEvent)
  | .asynchronous newAssembly t, x, s =>
      (t.step r (s.signal newAssembly t x) s.panel).map fun (panel, ts) =>
        (s.withPanel panel, ts.map (.asynchronous newAssembly))
  | t, .go now, s => some (deletionStep now s t)
  | _, _, _ => none

/-- The call of `deleteProject`. -/
def deletionConfig (s : DeletionState) (projectId : Nat) : DeletionConfig :=
  ⟨s, [.readModules projectId]⟩

/-- Nothing but the deletion and what it has started acts. -/
def actsOnly (_ : DeletionConfig) : Label DeletionTask (Signal AssemblyEvent) → Bool
  | .call _ => false
  | .act _ _ => true

variable {r : Rendering} {t u : DeletionTask} {x : Signal AssemblyEvent}
  {s s' initial : DeletionState} {ts : List DeletionTask} {projectId : Nat}
  {c c' : DeletionConfig} {l : Label DeletionTask (Signal AssemblyEvent)}
  {ls : List (Label DeletionTask (Signal AssemblyEvent))}
  {ok : DeletionConfig → Label DeletionTask (Signal AssemblyEvent) → Prop}

theorem threadStep_inv (ht : t.isThread = true) (h : t.step r x s = some (s', ts)) :
    ∃ now, (s', ts) = deletionStep now s t := by
  cases x with
  | go now =>
      refine ⟨now, ?_⟩
      cases t
      case asynchronous => cases ht
      all_goals exact (Option.some.inj h).symm
  | _ =>
      cases t
      case asynchronous => cases ht
      all_goals cases h

/-! ## What refers to a project -/

/-- Nothing that a deletion passes over refers to the project. -/
structure Unlinked (db : PanelDatabase) (projectId : Nat) : Prop where
  assemblyConfigurations : ∀ e ∈ db.assemblyConfigurations.rows, e.id ≠ projectId
  loadTests : ∀ e ∈ db.panel.loadTests.rows, e.projectId ≠ projectId
  loadTestScenarios : ∀ e ∈ db.loadTestScenarios.rows, e.projectId ≠ projectId
  preparedConfigurations : ∀ e ∈ db.preparedConfigurations.rows, e.projectId ≠ projectId
  externalArtifacts : ∀ e ∈ db.externalArtifacts, e.projectId ≠ projectId

/-- Nothing refers to the project. -/
structure NoReferences (db : PanelDatabase) (projectId : Nat) : Prop
    extends Unlinked db projectId where
  modules : ∀ e ∈ db.panel.modules.rows, e.projectId ≠ projectId
  assemblies : ∀ e ∈ db.panel.assemblies.rows, e.projectId ≠ projectId

/-- The spaces that a deletion does not write. -/
structure SameElsewhere (db db' : PanelDatabase) : Prop where
  assemblyConfigurations : db'.assemblyConfigurations = db.assemblyConfigurations
  loadTests : db'.panel.loadTests = db.panel.loadTests
  loadTestScenarios : db'.loadTestScenarios = db.loadTestScenarios
  preparedConfigurations : db'.preparedConfigurations = db.preparedConfigurations
  externalArtifacts : db'.externalArtifacts = db.externalArtifacts
  logs : db'.panel.logs = db.panel.logs
  openShiftResources : db'.openShiftResources = db.openShiftResources

/-- The entities of other projects are the same, the other projects too. -/
structure OtherProjectsKept (db db' : PanelDatabase) (projectId : Nat) : Prop
    extends SameElsewhere db db' where
  projects : ∀ e, e.id ≠ projectId →
    (e ∈ db'.panel.projects.rows ↔ e ∈ db.panel.projects.rows)
  modules : ∀ e, e.projectId ≠ projectId →
    (e ∈ db'.panel.modules.rows ↔ e ∈ db.panel.modules.rows)
  assemblies : ∀ e, e.projectId ≠ projectId →
    (e ∈ db'.panel.assemblies.rows ↔ e ∈ db.panel.assemblies.rows)

theorem unlinked_iff_of_same {db db' : PanelDatabase} (h : SameElsewhere db db') :
    Unlinked db' projectId ↔ Unlinked db projectId := by
  constructor
  · rintro ⟨hconfigurations, htests, hscenarios, hprepared, hartifacts⟩
    rw [h.assemblyConfigurations] at hconfigurations
    rw [h.loadTests] at htests
    rw [h.loadTestScenarios] at hscenarios
    rw [h.preparedConfigurations] at hprepared
    rw [h.externalArtifacts] at hartifacts
    exact ⟨hconfigurations, htests, hscenarios, hprepared, hartifacts⟩
  · rintro ⟨hconfigurations, htests, hscenarios, hprepared, hartifacts⟩
    rw [← h.assemblyConfigurations] at hconfigurations
    rw [← h.loadTests] at htests
    rw [← h.loadTestScenarios] at hscenarios
    rw [← h.preparedConfigurations] at hprepared
    rw [← h.externalArtifacts] at hartifacts
    exact ⟨hconfigurations, htests, hscenarios, hprepared, hartifacts⟩

/-! ## The sweeps over modules and assemblies -/

/-- What is left to delete, and that the rest is as it was. -/
structure Sweeps (projectId : Nat) (db₀ db : PanelDatabase) (ms as : List Nat) : Prop where
  modules : Sweep (fun m : Module => m.projectId = projectId) db₀.panel.modules ms
    db.panel.modules
  assemblies : Sweep (fun a : Assembly => a.projectId = projectId) db₀.panel.assemblies as
    db.panel.assemblies
  projects : ∀ e, e.id ≠ projectId →
    (e ∈ db.panel.projects.rows ↔ e ∈ db₀.panel.projects.rows)
  same : SameElsewhere db₀ db

/-- The sweeps at each position of the thread. -/
inductive Progress (projectId : Nat) (db₀ db : PanelDatabase) : List DeletionTask → Prop
  | readModules {ms as : List Nat} (h : Sweeps projectId db₀ db ms as) :
      Progress projectId db₀ db [.readModules projectId]
  | deleteModules {ms as : List Nat} (h : Sweeps projectId db₀ db ms as) :
      Progress projectId db₀ db [.deleteModules projectId ms]
  | readAssemblies {as : List Nat} (h : Sweeps projectId db₀ db [] as) :
      Progress projectId db₀ db [.readAssemblies projectId]
  | cancelAssembly {as : List Nat} (h : Sweeps projectId db₀ db [] as) :
      Progress projectId db₀ db [.cancelAssembly projectId as]
  | putCanceled {a : Assembly} {as : List Nat} (h : Sweeps projectId db₀ db [] (a.id :: as))
      (hget : db.panel.tryGetAssembly a.id = some a) :
      Progress projectId db₀ db [.putCanceled projectId a as]
  | deleteAssembly {id : Nat} {as : List Nat} (h : Sweeps projectId db₀ db [] (id :: as)) :
      Progress projectId db₀ db [.deleteAssembly projectId id as]
  | deleteProject (h : Sweeps projectId db₀ db [] []) :
      Progress projectId db₀ db [.deleteProject projectId]
  | finished (h : Sweeps projectId db₀ db [] []) : Progress projectId db₀ db []

variable {db₀ db : PanelDatabase} {ms as : List Nat} {id now : Nat} {a : Assembly}

theorem sweeps_refl (projectId : Nat) (db : PanelDatabase) :
    ∃ ms as, Sweeps projectId db db ms as :=
  ⟨_, _, Sweep.select fun _ _ => Iff.rfl, Sweep.select fun _ _ => Iff.rfl,
    fun _ _ => Iff.rfl, ⟨rfl, rfl, rfl, rfl, rfl, rfl, rfl⟩⟩

namespace Sweeps

theorem selectModules (h : Sweeps projectId db₀ db ms as) :
    Sweeps projectId db₀ db ((db.panel.getProjectModules projectId).map (·.id)) as :=
  ⟨Sweep.select h.modules.others, h.assemblies, h.projects, h.same⟩

theorem selectAssemblies (h : Sweeps projectId db₀ db ms as) :
    Sweeps projectId db₀ db ms ((db.getProjectAssemblies projectId).map (·.id)) :=
  ⟨h.modules, Sweep.select h.assemblies.others, h.projects, h.same⟩

/-- The next module is stored, and its deletion goes on with the rest. -/
theorem deleteModule (h : Sweeps projectId db₀ db (id :: ms) as) :
    db.panel.deleteModule id = .ok { db.panel with modules := db.panel.modules.delete id } ∧
      Sweeps projectId db₀
        { db with panel := { db.panel with modules := db.panel.modules.delete id } } ms as := by
  rcases h.modules.exists_get List.mem_cons_self with ⟨m, hget, -⟩
  have hfound : db.panel.getModule id = .ok m := PanelStore.getModule_eq_ok.mpr hget
  constructor
  · rw [PanelStore.deleteModule, hfound]
    rfl
  · exact ⟨h.modules.delete, h.assemblies, h.projects, ⟨h.same.1, h.same.2, h.same.3,
      h.same.4, h.same.5, h.same.6, h.same.7⟩⟩

theorem getAssembly (h : Sweeps projectId db₀ db ms (id :: as)) :
    ∃ a, db.panel.getAssembly id = .ok a ∧ db.panel.tryGetAssembly id = some a ∧
      a.id = id ∧ a.projectId = projectId := by
  rcases h.assemblies.exists_get List.mem_cons_self with ⟨a, hget, ha⟩
  exact ⟨a, PanelStore.getAssembly_eq_ok.mpr hget, hget, Space.key_of_get hget,
    of_decide_eq_true ha⟩

theorem deleteAssembly (h : Sweeps projectId db₀ db ms (id :: as)) :
    db.panel.deleteAssembly id =
        .ok { db.panel with assemblies := db.panel.assemblies.delete id } ∧
      Sweeps projectId db₀
        { db with panel := { db.panel with assemblies := db.panel.assemblies.delete id } }
        ms as := by
  rcases h.getAssembly with ⟨a, hfound, -, -, -⟩
  constructor
  · rw [PanelStore.deleteAssembly, hfound]
    rfl
  · exact ⟨h.modules, h.assemblies.delete, h.projects, ⟨h.same.1, h.same.2, h.same.3,
      h.same.4, h.same.5, h.same.6, h.same.7⟩⟩

/-- The cancelled assembly stays one of those that are left. -/
theorem putCanceled (h : Sweeps projectId db₀ db ms as) (hmem : a.id ∈ as)
    (ha : a.projectId = projectId) :
    Sweeps projectId db₀ { db with panel := db.panel.putAssembly (canceledAssembly a now) }
      ms as :=
  ⟨h.modules, h.assemblies.put hmem (decide_eq_true ha), h.projects, ⟨h.same.1, h.same.2,
    h.same.3, h.same.4, h.same.5, h.same.6, h.same.7⟩⟩

theorem deleteProject (h : Sweeps projectId db₀ db ms as) {store : PanelStore}
    (hstore : db.panel.deleteProject projectId = .ok store) :
    Sweeps projectId db₀ { db with panel := store } ms as := by
  unfold PanelStore.deleteProject at hstore
  cases hproject : db.panel.getProject projectId with
  | error e =>
      rw [hproject] at hstore
      cases hstore
  | ok project =>
      rw [hproject] at hstore
      cases hstore
      refine ⟨h.modules, h.assemblies, ?_, ⟨h.same.1, h.same.2, h.same.3, h.same.4,
        h.same.5, h.same.6, h.same.7⟩⟩
      intro e he
      rw [← h.projects e he]
      refine ⟨fun hmem => (List.mem_filter.mp hmem).1, fun hmem => ?_⟩
      exact List.mem_filter.mpr ⟨hmem, by simpa [Keyed.key] using he⟩

end Sweeps

/-! ## What every step keeps -/

@[simp]
theorem filter_isThread_asynchronous (a : Assembly) (ts : List AssemblyTask) :
    (ts.map (DeletionTask.asynchronous a)).filter DeletionTask.isThread = [] := by
  rw [List.filter_eq_nil_iff]
  intro u hu
  rcases List.mem_map.mp hu with ⟨t, -, rfl⟩
  exact Bool.false_ne_true

/-- Each action of the thread brings the sweeps to its next position. -/
theorem progress_deletionStep (now : Nat) (h : Progress projectId db₀ s.database [t]) :
    Progress projectId db₀ (deletionStep now s t).1.database
      ((deletionStep now s t).2.filter DeletionTask.isThread) := by
  cases h with
  | readModules h => exact .deleteModules h.selectModules
  | @deleteModules ms as h =>
      cases ms with
      | nil => exact .readAssemblies h
      | cons id ms =>
          rcases h.deleteModule with ⟨hstore, hsweeps⟩
          simp only [deletionStep, hstore]
          exact .deleteModules hsweeps
  | readAssemblies h => exact .cancelAssembly h.selectAssemblies
  | @cancelAssembly as h =>
      cases as with
      | nil => exact .deleteProject h
      | cons id as =>
          rcases h.getAssembly with ⟨a, hfound, hget, rfl, -⟩
          by_cases hrunning : a.isRunning = true
          · simp only [deletionStep, hfound, if_pos hrunning]
            exact .putCanceled h hget
          · simp only [deletionStep, hfound, if_neg hrunning]
            exact .deleteAssembly h
  | @putCanceled a as h hget =>
      rcases h.getAssembly with ⟨a', -, hget', -, ha'⟩
      rw [hget] at hget'
      cases hget'
      have hthread : (deletionStep now s (.putCanceled projectId a as)).2.filter
          DeletionTask.isThread = [.deleteAssembly projectId a.id as] :=
        (List.filter_cons_of_pos rfl).trans
          (congrArg _ (filter_isThread_asynchronous (canceledAssembly a now) _))
      rw [hthread]
      exact .deleteAssembly (h.putCanceled List.mem_cons_self ha')
  | deleteAssembly h =>
      rcases h.deleteAssembly with ⟨hstore, hsweeps⟩
      simp only [deletionStep, hstore]
      exact .cancelAssembly hsweeps
  | deleteProject h =>
      cases hstore : s.database.panel.deleteProject projectId with
      | error e =>
          simp only [deletionStep, hstore]
          exact .finished h
      | ok store =>
          simp only [deletionStep, hstore]
          exact .finished (h.deleteProject hstore)

/-- What runs asynchronously is the destruction of the cancelled assembly. -/
def DeletionTask.Destroys : DeletionTask → Prop
  | .asynchronous newAssembly t => ∃ run p, t = .destroy newAssembly.id run p
  | _ => True

/-- The invariant of the runs of a deletion: at most one thread, with its sweeps, and
destructions. -/
structure Deleting (projectId : Nat) (db₀ : PanelDatabase) (c : DeletionConfig) : Prop where
  progress : Progress projectId db₀ c.shared.database (c.tasks.filter DeletionTask.isThread)
  destructions : ∀ u ∈ c.tasks, u.Destroys

/-- A position of the thread is one of a single thread. -/
theorem Progress.eq_singleton {threads : List DeletionTask}
    (h : Progress projectId db₀ db threads) (ht : t ∈ threads) : threads = [t] := by
  cases h
  case finished => exact absurd ht List.not_mem_nil
  all_goals rw [List.mem_singleton.mp ht]

theorem Progress.eq_of_perm {threads threads' : List DeletionTask}
    (h : Progress projectId db₀ db threads) (hperm : threads'.Perm threads) :
    threads' = threads := by
  cases h
  case finished => exact hperm.eq_nil
  all_goals exact List.perm_singleton.mp hperm

/-- What a cancellation starts: nothing, unless the assembly was on a resource. -/
theorem started_cancelPutStep (a : Assembly) (now : Nat) (p : PanelState) :
    (cancelPutStep a none now p).2 =
      if a.state.onResource then [.destroy a.id (p.builds.latest a.id) .createBuilder]
      else [] :=
  List.append_nil _

theorem destroys_deletionStep (hu : u ∈ (deletionStep now s t).2) : u.Destroys := by
  revert hu
  fun_cases deletionStep now s t <;> intro hu
  case case10 currentAssembly ids panel started hstarted =>
      rcases List.mem_cons.mp hu with rfl | hu
      · trivial
      · rcases List.mem_map.mp hu with ⟨v, hv, rfl⟩
        have hv' : v ∈ (cancelPutStep currentAssembly none now s.panel).2 := by
          rw [hstarted]
          exact hv
        rw [started_cancelPutStep] at hv'
        split at hv'
        · rw [List.mem_singleton.mp hv']
          exact ⟨_, _, rfl⟩
        · cases hv'
  all_goals first
    | (cases hu; done)
    | (rw [List.mem_singleton.mp hu]; trivial)

theorem destroys_destroyStep {i run : Nat} {p : DestroyPosition}
    {panel panel' : PanelState} {us : List AssemblyTask} {v : AssemblyTask}
    (h : destroyStep i run p x panel = some (panel', us)) (hv : v ∈ us) :
    ∃ q, v = .destroy i run q := by
  revert h
  fun_cases destroyStep i run p x panel <;> intro h <;>
    simp only [Option.some.injEq, Prod.mk.injEq, reduceCtorEq] at h <;>
    rcases h with ⟨rfl, rfl⟩
  all_goals first
    | (cases hv; done)
    | exact ⟨_, List.mem_singleton.mp hv⟩

/-- A destruction does not touch the database, and goes on as one. -/
theorem asynchronous_inv {newAssembly : Assembly} {run : Nat} {p : DestroyPosition}
    (h : (DeletionTask.asynchronous newAssembly (.destroy newAssembly.id run p)).step r x s =
      some (s', ts)) :
    ∃ panel us, destroyStep newAssembly.id run p
        (s.signal newAssembly (.destroy newAssembly.id run p) x) s.panel = some (panel, us) ∧
      s' = { s with builds := panel.builds } ∧
        ts = us.map (.asynchronous newAssembly) := by
  rcases Option.map_eq_some_iff.mp h with ⟨⟨panel, us⟩, hstep, heq⟩
  rw [Prod.mk.injEq] at heq
  rcases heq with ⟨rfl, rfl⟩
  refine ⟨panel, us, hstep, ?_, rfl⟩
  have hstore : panel.store = s.database.panel := destroyStep_store hstep
  rw [DeletionState.withPanel, DeletionState.withStore, hstore]

/-- The kind of a task: the thread, or the destruction of an assembly. -/
theorem DeletionTask.Destroys.eq_destroy (h : t.Destroys) (ht : ¬ t.isThread = true) :
    ∃ newAssembly run p, t = .asynchronous newAssembly (.destroy newAssembly.id run p) := by
  cases t
  case asynchronous newAssembly v =>
    rcases h with ⟨run, p, rfl⟩
    exact ⟨newAssembly, run, p, rfl⟩
  all_goals exact absurd rfl ht

theorem Deleting.of_step (h : Deleting projectId db₀ c) (hok : actsOnly c l = true)
    (hstep : Step (DeletionTask.step r) c l c') : Deleting projectId db₀ c' := by
  cases l with
  | call t => cases hok
  | act t x =>
      by_cases ht : t.isThread = true
      · have hmem : t ∈ c.tasks.filter DeletionTask.isThread :=
          List.mem_filter.mpr ⟨hstep.mem_tasks, ht⟩
        have hone := h.progress.eq_singleton hmem
        constructor
        · rcases hstep.filter_of_own hone ht with ⟨-, ts, hact, hfilter⟩
          rcases threadStep_inv ht hact with ⟨now, heq⟩
          have hprogress := h.progress
          rw [hone] at hprogress
          have hnext := progress_deletionStep now hprogress
          rw [← heq, ← hfilter] at hnext
          exact hnext
        · refine hstep.forall_tasks (J := fun _ u => u.Destroys) h.destructions ?_
            (fun _ _ hu => hu)
          intro ts hact u hu
          rcases threadStep_inv ht hact with ⟨now, heq⟩
          have hu' : u ∈ (deletionStep now c.shared t).2 := by
            rw [← heq]
            exact hu
          exact destroys_deletionStep hu'
      · rcases (h.destructions t hstep.mem_tasks).eq_destroy ht with ⟨a, run, p, rfl⟩
        constructor
        · rcases hstep.filter_of_other ht with ⟨ts, hact, hperm⟩
          rcases asynchronous_inv hact with ⟨panel, us, -, hshared, rfl⟩
          rw [filter_isThread_asynchronous, List.nil_append] at hperm
          rw [hshared, h.progress.eq_of_perm hperm]
          exact h.progress
        · refine hstep.forall_tasks (J := fun _ u => u.Destroys) h.destructions ?_
            (fun _ _ hu => hu)
          intro ts hact u hu
          rcases asynchronous_inv hact with ⟨panel, us, hdestroy, -, rfl⟩
          rcases List.mem_map.mp hu with ⟨v, hv, rfl⟩
          rcases destroys_destroyStep hdestroy hv with ⟨q, rfl⟩
          exact ⟨run, q, rfl⟩

theorem deleting_deletionConfig (s : DeletionState) (projectId : Nat) :
    Deleting projectId s.database (deletionConfig s projectId) := by
  rcases sweeps_refl projectId s.database with ⟨ms, as, hsweeps⟩
  refine ⟨.readModules hsweeps, ?_⟩
  intro u hu
  rw [List.mem_singleton.mp hu]
  trivial

theorem Deleting.of_run (hrun : Run (DeletionTask.step r) (fun d k => actsOnly d k = true)
    (deletionConfig s projectId) ls c) : Deleting projectId s.database c :=
  hrun.invariant (deleting_deletionConfig s projectId) fun _ _ _ h hok hstep =>
    h.of_step hok hstep

/-! ## Finished deletions -/

theorem Deleting.sweeps_of_finished (h : Deleting projectId db₀ c) (hdone : c.tasks = []) :
    Sweeps projectId db₀ c.shared.database [] [] := by
  have hprogress := h.progress
  rw [hdone, List.filter_nil] at hprogress
  cases hprogress with
  | finished hsweeps => exact hsweeps

theorem Sweeps.otherProjectsKept (h : Sweeps projectId db₀ db ms as) :
    OtherProjectsKept db₀ db projectId :=
  ⟨h.same, h.projects, fun e he => h.modules.others e (decide_eq_false he),
    fun e he => h.assemblies.others e (decide_eq_false he)⟩

/-- A finished deletion leaves nothing that refers to the project exactly when nothing but
its modules and assemblies did. -/
theorem references_of_finished (h : Sweeps projectId db₀ db [] []) :
    NoReferences db projectId ↔ Unlinked db₀ projectId := by
  rw [← unlinked_iff_of_same h.same]
  constructor
  · exact fun hnone => hnone.toUnlinked
  · intro hunlinked
    exact ⟨hunlinked, fun e he => of_decide_eq_false (h.modules.forall_rows_of_nil e he),
      fun e he => of_decide_eq_false (h.assemblies.forall_rows_of_nil e he)⟩

end ArtPlatform
