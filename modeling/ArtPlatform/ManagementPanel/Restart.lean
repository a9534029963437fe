import ArtPlatform.ManagementPanel.AssemblyCancellation

/-!
# The restart of the panel

`handleRestart` sweeps what the previous process has left in progress: stuck
projects fail, running assemblies are cancelled one by one, changing modules
become invalid, and the agents are stopped.  The sweep runs alone, so it is a
function of the state; the cancellation is the one of `AssemblyService`.

Main results:

- Theorem `handleRestart_store`: the store after a restart, entity by entity.
- Theorem `restart_complete_iff`: after a restart nothing is left in progress if
  and only if no load test was running before it.
- Theorem `restart_misses_loadTests`: a running load test is left running.
-/

namespace ArtPlatform

/-! ## The sweeps -/

/-- The states in which a project waits for a stream. -/
def Project.isStuck (p : Project) : Bool :=
  p.state = .created || p.state = .reloadStarted || p.state = .reloading

def failedProject (p : Project) : Project :=
  { p with state := .initializationFailed }

def invalidModule (m : Module) : Module :=
  { m with state := .invalid }

def failStuckProjects (s : PanelStore) : PanelStore :=
  { s with projects := s.projects.updateWhere Project.isStuck failedProject }

def failChangingModules (s : PanelStore) : PanelStore :=
  { s with modules := s.modules.updateWhere Module.isChanging invalidModule }

/-- `cancelAssembly` without anything in between, at the clock reading `now`. -/
def cancelAssembly (now id : Nat) (s : PanelState) :
    Except PlatformException (PanelState × List AssemblyTask) :=
  match s.store.getAssembly id with
  | .error e => .error e
  | .ok currentAssembly =>
      .ok (if currentAssembly.isRunning then cancelPutStep currentAssembly none now s
        else (s, []))

/-- Cancel one assembly after the other, up to the first exception. -/
def cancelAssemblies (clock : Nat → Nat) :
    List Nat → PanelState → PanelState × Except PlatformException (List AssemblyTask)
  | [], s => (s, .ok [])
  | id :: ids, s =>
      match cancelAssembly (clock id) id s with
      | .error e => (s, .error e)
      | .ok (s', ts) =>
          let rest := cancelAssemblies clock ids s'
          (rest.1, rest.2.map (ts ++ ·))

def getRunningAssemblies (s : PanelStore) : List Assembly :=
  s.assemblies.selectAll.filter Assembly.isRunning

def stopRunningAssemblies (clock : Nat → Nat) (s : PanelState) :
    PanelState × Except PlatformException (List AssemblyTask) :=
  cancelAssemblies clock ((getRunningAssemblies s.store).map Assembly.id) s

/-- The restart with the exception that its handler would log.  The agents are
stopped on the resources, which the store does not show. -/
def handleRestart (clock : Nat → Nat)
    (stopRunningAgents : PanelStore → Except PlatformException Unit) (s : PanelState) :
    PanelState × Except PlatformException (List AssemblyTask) :=
  let stuck : PanelState := { s with store := failStuckProjects s.store }
  match stopRunningAssemblies clock stuck with
  | (stopped, .error e) => (stopped, .error e)
  | (stopped, .ok ts) =>
      let failed : PanelState := { stopped with store := failChangingModules stopped.store }
      (failed, (stopRunningAgents failed.store).map fun _ => ts)

/-! ## Cancelling all running assemblies -/

/-- What a cancellation stores for an assembly. -/
def cancelIfRunning (clock : Nat → Nat) (a : Assembly) : Assembly :=
  if a.isRunning then canceledAssembly a (clock a.id) else a

variable {clock : Nat → Nat} {s s' : PanelState} {id : Nat} {ts : List AssemblyTask}

/-- The cancellation is what the task `cancelRead` does, with no other action in
between. -/
theorem run_of_cancelAssembly (r : Rendering) {now : Nat}
    (h : cancelAssembly now id s = .ok (s', ts)) :
    ∃ ls, Interleaving.Run (AssemblyTask.step r) (fun _ _ => True)
      ⟨s, [.cancelRead id none]⟩ ls ⟨s', ts⟩ := by
  unfold cancelAssembly at h
  cases hget : s.store.getAssembly id with
  | error e =>
      rw [hget] at h
      cases h
  | ok a =>
      rw [hget] at h
      have hread : cancelReadStep id none s =
          if a.isRunning then [.cancelPut a none] else [] := by
        unfold cancelReadStep resumeRebuild
        rw [hget]
      have hfirst : Interleaving.Step (AssemblyTask.step r) ⟨s, [.cancelRead id none]⟩
          (.act (.cancelRead id none) (.go now)) ⟨s, cancelReadStep id none s ++ []⟩ :=
        .act (List.Perm.refl _) rfl
      rw [List.append_nil, hread] at hfirst
      by_cases hrun : a.isRunning = true
      · simp only [hrun, if_true] at h hfirst
        have hsecond : Interleaving.Step (AssemblyTask.step r) ⟨s, [.cancelPut a none]⟩
            (.act (.cancelPut a none) (.go now)) ⟨s', ts ++ []⟩ :=
          .act (List.Perm.refl _) (congrArg some (Except.ok.inj h))
        rw [List.append_nil] at hsecond
        exact ⟨_, (Interleaving.Run.single hfirst trivial).tail hsecond trivial⟩
      · simp only [hrun] at h hfirst
        obtain ⟨rfl, rfl⟩ := Prod.mk.inj (Except.ok.inj h)
        exact ⟨_, Interleaving.Run.single hfirst trivial⟩

/-- The assemblies of some ids are cancelled if they were running, and everything
else in the store is as it was. -/
structure CancelledAll (clock : Nat → Nat) (ids : List Nat) (s s' : PanelStore) : Prop where
  projects : s'.projects = s.projects
  loadTests : s'.loadTests = s.loadTests
  logs : s'.logs = s.logs
  modules : s'.modules = s.modules
  assemblies : ∀ k, s'.tryGetAssembly k =
    (s.tryGetAssembly k).map fun a => if k ∈ ids then cancelIfRunning clock a else a

theorem isRunning_cancelIfRunning (a : Assembly) :
    (cancelIfRunning clock a).isRunning = false := by
  unfold cancelIfRunning
  split
  · rfl
  · rename_i h
    simpa using h

/-- A second cancellation does nothing. -/
theorem cancelIfRunning_idem (a : Assembly) :
    cancelIfRunning clock (cancelIfRunning clock a) = cancelIfRunning clock a := by
  have hstopped : (cancelIfRunning clock a).isRunning = false := isRunning_cancelIfRunning a
  generalize cancelIfRunning clock a = b at hstopped
  unfold cancelIfRunning
  rw [hstopped]
  rfl

/-- A cancellation of a stored assembly succeeds and rewrites that assembly only. -/
theorem cancelAssembly_ok (clock : Nat → Nat) {a : Assembly}
    (hget : s.store.tryGetAssembly id = some a) :
    ∃ s' ts, cancelAssembly (clock id) id s = .ok (s', ts) ∧
      CancelledAll clock [id] s.store s'.store := by
  have hid : a.id = id := Space.key_of_get hget
  have hread : s.store.getAssembly id = .ok a := by
    unfold PanelStore.getAssembly
    rw [hget]
    rfl
  by_cases hrun : a.isRunning = true
  · refine ⟨(cancelPutStep a none (clock id) s).1, (cancelPutStep a none (clock id) s).2,
      ?_, rfl, rfl, rfl, rfl, ?_⟩
    · simp only [cancelAssembly, hread, hrun, if_true]
    intro k
    have hput := s.store.assemblies.get_put (canceledAssembly a (clock id)) k
    have hkey : Keyed.key (canceledAssembly a (clock id)) = id := hid
    rw [hkey] at hput
    refine hput.trans ?_
    by_cases hk : k = id
    · subst hk
      simp [hget, cancelIfRunning, hrun, hid]
    · simp [hk, PanelStore.tryGetAssembly]
  · refine ⟨s, [], ?_, rfl, rfl, rfl, rfl, ?_⟩
    · simp only [cancelAssembly, hread, hrun]
      rfl
    intro k
    by_cases hk : k = id
    · subst hk
      simp [hget, cancelIfRunning, hrun]
    · simp [hk]

theorem CancelledAll.cons {ids : List Nat} {s s₁ s₂ : PanelStore}
    (h₁ : CancelledAll clock [id] s s₁) (h₂ : CancelledAll clock ids s₁ s₂) :
    CancelledAll clock (id :: ids) s s₂ := by
  refine ⟨h₂.projects.trans h₁.projects, h₂.loadTests.trans h₁.loadTests,
    h₂.logs.trans h₁.logs, h₂.modules.trans h₁.modules, ?_⟩
  intro k
  rw [h₂.assemblies k, h₁.assemblies k, Option.map_map]
  congr 1
  funext a
  by_cases hk : k = id <;> by_cases hmem : k ∈ ids <;>
    simp [hk, hmem, cancelIfRunning_idem]

/-- Cancelling stored assemblies succeeds. -/
theorem cancelAssemblies_ok (clock : Nat → Nat) (ids : List Nat)
    (hids : ∀ k ∈ ids, (s.store.tryGetAssembly k).isSome) :
    ∃ s' ts, cancelAssemblies clock ids s = (s', .ok ts) ∧
      CancelledAll clock ids s.store s'.store := by
  induction ids generalizing s with
  | nil => exact ⟨s, [], rfl, rfl, rfl, rfl, rfl, fun k => by simp⟩
  | cons id ids ih =>
      obtain ⟨a, hget⟩ := Option.isSome_iff_exists.mp (hids id List.mem_cons_self)
      obtain ⟨s₁, ts₁, hcancel, hfirst⟩ := cancelAssembly_ok clock hget
      have hids' : ∀ k ∈ ids, (s₁.store.tryGetAssembly k).isSome := by
        intro k hk
        rw [hfirst.assemblies k, Option.isSome_map]
        exact hids k (List.mem_cons_of_mem id hk)
      obtain ⟨s₂, ts₂, hrest, hothers⟩ := ih hids'
      refine ⟨s₂, ts₁ ++ ts₂, ?_, hfirst.cons hothers⟩
      simp only [cancelAssemblies, hcancel, hrest]
      rfl

/-! ## The store after a restart -/

/-- What the restart does to every stored entity. -/
structure Restarted (clock : Nat → Nat) (s s' : PanelStore) : Prop where
  projects : ∀ k, s'.tryGetProject k =
    (s.tryGetProject k).map fun p => if p.isStuck then failedProject p else p
  assemblies : ∀ k, s'.tryGetAssembly k = (s.tryGetAssembly k).map (cancelIfRunning clock)
  modules : ∀ k, s'.tryGetModule k =
    (s.tryGetModule k).map fun m => if m.isChanging then invalidModule m else m
  loadTests : s'.loadTests = s.loadTests
  logs : s'.logs = s.logs

/-- The running assemblies are cancelled, and the others are not read at all. -/
theorem stopRunningAssemblies_ok (clock : Nat → Nat) (s : PanelState) :
    ∃ s' ts, stopRunningAssemblies clock s = (s', .ok ts) ∧
      s'.store.projects = s.store.projects ∧ s'.store.loadTests = s.store.loadTests ∧
      s'.store.logs = s.store.logs ∧ s'.store.modules = s.store.modules ∧
      ∀ k, s'.store.tryGetAssembly k =
        (s.store.tryGetAssembly k).map (cancelIfRunning clock) := by
  have hids : ∀ k ∈ (getRunningAssemblies s.store).map Assembly.id,
      (s.store.tryGetAssembly k).isSome := by
    intro k hk
    obtain ⟨a, ha, rfl⟩ := List.mem_map.mp hk
    have hrow : a ∈ s.store.assemblies.rows := (List.mem_filter.mp ha).1
    rw [PanelStore.tryGetAssembly, ← key_assembly, (Space.mem_rows_iff _ a).mp hrow]
    rfl
  obtain ⟨s', ts, hcancel, hall⟩ := cancelAssemblies_ok clock _ hids
  refine ⟨s', ts, hcancel, hall.projects, hall.loadTests, hall.logs, hall.modules, ?_⟩
  intro k
  rw [hall.assemblies k]
  cases hget : s.store.tryGetAssembly k with
  | none => rfl
  | some a =>
      -- An assembly that is not among the running ones is not running.
      have hid : a.id = k := Space.key_of_get hget
      have hmem : k ∈ (getRunningAssemblies s.store).map Assembly.id ∨ a.isRunning = false := by
        cases hrun : a.isRunning with
        | false => exact .inr rfl
        | true =>
            left
            rw [← hid]
            exact List.mem_map_of_mem
              (List.mem_filter.mpr ⟨Space.mem_rows_of_get hget, hrun⟩)
      rcases hmem with hmem | hrun
      · simp [hmem]
      · simp [cancelIfRunning, hrun]

theorem handleRestart_store {stopRunningAgents : PanelStore → Except PlatformException Unit}
    (h : handleRestart clock stopRunningAgents s = (s', .ok ts)) :
    Restarted clock s.store s'.store := by
  obtain ⟨s₁, us, hstop, hprojects, hloads, hlogs, hmodules, hassemblies⟩ :=
    stopRunningAssemblies_ok clock
      { s with store := failStuckProjects s.store }
  simp only [handleRestart, hstop, Prod.mk.injEq] at h
  rcases h with ⟨rfl, -⟩
  refine ⟨?_, hassemblies, ?_, hloads, hlogs⟩
  · intro k
    have hget := s.store.projects.get_updateWhere Project.isStuck failedProject
      (fun _ => rfl) k
    exact (congrArg (fun space => Space.get space k) hprojects).trans hget
  · intro k
    have hsame : s₁.store.modules = s.store.modules := hmodules
    have hget := s₁.store.modules.get_updateWhere Module.isChanging invalidModule
      (fun _ => rfl) k
    refine Eq.trans hget ?_
    rw [hsame]
    rfl

/-! ## What is left in progress -/

/-- No stored entity is in a state that waits for a process of the panel. -/
structure NothingInProgress (s : PanelStore) : Prop where
  projects : ∀ p ∈ s.projects.rows, p.isStuck = false
  assemblies : ∀ a ∈ s.assemblies.rows, a.isRunning = false
  modules : ∀ m ∈ s.modules.rows, m.isChanging = false
  loadTests : ∀ t ∈ s.loadTests.rows, t.isRunning = false

/-- The entities that were not in progress are stored as before. -/
structure OthersUnchanged (s s' : PanelStore) : Prop where
  projects : ∀ p ∈ s.projects.rows, p.isStuck = false → p ∈ s'.projects.rows
  assemblies : ∀ a ∈ s.assemblies.rows, a.isRunning = false → a ∈ s'.assemblies.rows
  modules : ∀ m ∈ s.modules.rows, m.isChanging = false → m ∈ s'.modules.rows
  loadTests : ∀ t ∈ s.loadTests.rows, t.isRunning = false → t ∈ s'.loadTests.rows

/-- What a restart that completes leaves behind and what it keeps. -/
def RestartIsComplete (s s' : PanelStore) : Prop :=
  NothingInProgress s' ∧ OthersUnchanged s s'

/-- After a restart nothing is left in progress, and everything else is unchanged,
if and only if no load test was running before it. -/
theorem restart_complete_iff {stopRunningAgents : PanelStore → Except PlatformException Unit}
    (h : handleRestart clock stopRunningAgents s = (s', .ok ts)) :
    RestartIsComplete s.store s'.store ↔ ∀ t ∈ s.store.loadTests.rows, t.isRunning = false := by
  have hstore := handleRestart_store h
  obtain ⟨hprojects, hkeptProjects⟩ := Space.rows_of_sweep (p := Project.isStuck)
    (f := failedProject) (fun _ => rfl) (fun _ => rfl) hstore.projects
  obtain ⟨hassemblies, hkeptAssemblies⟩ := Space.rows_of_sweep (p := Assembly.isRunning)
    (f := fun a => canceledAssembly a (clock a.id)) (fun _ => rfl) (fun _ => rfl)
    hstore.assemblies
  obtain ⟨hmodules, hkeptModules⟩ := Space.rows_of_sweep (p := Module.isChanging)
    (f := invalidModule) (fun _ => rfl) (fun _ => rfl) hstore.modules
  constructor
  · rintro ⟨hnothing, -⟩ t ht
    exact hnothing.loadTests t (hstore.loadTests ▸ ht)
  · intro hloads
    refine ⟨⟨hprojects, hassemblies, hmodules, ?_⟩,
      ⟨hkeptProjects, hkeptAssemblies, hkeptModules, ?_⟩⟩
    · rw [hstore.loadTests]
      exact hloads
    · intro t ht _
      rw [hstore.loadTests]
      exact ht

/-- The restart completes exactly when the agents could be stopped. -/
theorem handleRestart_completes (clock : Nat → Nat)
    (stopRunningAgents : PanelStore → Except PlatformException Unit)
    (hagents : ∀ store, stopRunningAgents store = .ok ()) (s : PanelState) :
    ∃ s' ts, handleRestart clock stopRunningAgents s = (s', .ok ts) := by
  obtain ⟨s₁, us, hstop, -⟩ :=
    stopRunningAssemblies_ok clock
      { s with store := failStuckProjects s.store }
  refine ⟨{ s₁ with store := failChangingModules s₁.store }, us, ?_⟩
  simp only [handleRestart, hstop, hagents]
  rfl

/-! ## A running load test -/

private def noAgents (_ : PanelStore) : Except PlatformException Unit :=
  .ok ()

private def runningTest : LoadTest where
  id := 1
  projectId := 1
  scenarioId := 1
  version := ⟨"refs/heads/master", "master"⟩
  startTimeStamp := 0
  state := .running
  resourceId := ⟨1, "cluster", .openShift⟩
  logId := 1

/-- With a running assembly and no load test the restart is complete. -/
theorem restart_complete_running_assembly :
    ∃ s' ts, handleRestart (fun _ => 9) noAgents
        { store := PanelStore.empty.putAssembly SampleBuild.assembly } = (s', .ok ts) ∧
      RestartIsComplete (PanelStore.empty.putAssembly SampleBuild.assembly) s'.store := by
  obtain ⟨s', ts, h⟩ := handleRestart_completes (fun _ => 9) noAgents
    (fun _ => rfl) { store := PanelStore.empty.putAssembly SampleBuild.assembly }
  refine ⟨s', ts, h, (restart_complete_iff h).mpr ?_⟩
  intro t ht
  cases ht

/-- Every restart that completes leaves nothing in progress. -/
def RestartsAreComplete : Prop :=
  ∀ clock stopRunningAgents s s' ts,
    handleRestart clock stopRunningAgents s = (s', .ok ts) → RestartIsComplete s.store s'.store

/-- A load test that was running before the restart is running after it. -/
theorem restart_misses_loadTests : ¬ RestartsAreComplete := by
  intro h
  obtain ⟨s', ts, hrestart⟩ := handleRestart_completes (fun _ => 9) noAgents
    (fun _ => rfl) { store := PanelStore.empty.putLoadTest runningTest }
  have hcomplete := h _ _ _ _ _ hrestart
  have hloads := (handleRestart_store hrestart).loadTests
  have hstopped := hcomplete.1.loadTests runningTest (hloads ▸ List.mem_cons_self)
  cases hstopped

end ArtPlatform
