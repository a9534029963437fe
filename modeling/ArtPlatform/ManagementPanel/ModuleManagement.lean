import ArtPlatform.ManagementPanel.ModuleService
import ArtPlatform.ManagementPanel.PanelState
import ArtPlatform.ManagementPanel.ProjectService

/-!
# Operations on a module

Every operation stores its started state on request, then an asynchronous body
stores a snapshot in the in-progress state, and the agent's stream ends in a put
of the final or of the invalid state.  The handlers of the stream put only when
they have read their own in-progress state; the body and the handler of its
exceptions put whatever is stored.

An operation is numbered when it stores its started state.  The number of the
last operation of a module, and which operation it was, are kept beside the
store; no action depends on them.

Main results:

- Theorem `waiting_of_quiet`: a handler that does not find its state leaves the
  store alone.
- Theorem `operations_isolated`: if every operation starts only when the earlier
  ones of the module are waiting before the guard of a different state, no earlier
  operation changes the store again.
- Theorem `earlier_operation_overwrites`: otherwise one does.
-/

namespace ArtPlatform

open Interleaving
open Function (update)

/-! ## Tasks -/

/-- An operation that has stored its started state. -/
structure ModuleWork where
  operation : ModuleOperation
  module : Module
  number : Nat

/-- The snapshot that the body puts and sends to the agent. -/
def ModuleWork.inProgress (w : ModuleWork) : Module :=
  { w.module with state := w.operation.inProgressState }

/-- Events of the agent of an operation.  The emitter starts from the snapshot of the
request and changes neither its id nor its state. -/
abbrev WorkEvent (w : ModuleWork) :=
  { m : Module // m.id = w.module.id ∧ m.state = w.operation.inProgressState }

/-- Positions of the body, of the stream's handlers and of the handler of exceptions. -/
inductive WorkPosition (w : ModuleWork)
  | manager
  | project
  | prepare
  | connect
  | announceRead
  | announcePut
  | request
  | subscribe
  | idle
  | eventRead (event : WorkEvent w)
  | eventPut (event : WorkEvent w)
  | completeRead
  | completeTryRead (m : Module)
  | completePut (m : Module)
  | errorRead
  | caughtRead
  | errorGet
  | errorTryRead (m : Module)
  | errorPut (m : Module)

inductive ModuleTask
  | installRead (request : ModuleInstallationRequest)
  | installPut (request : ModuleInstallationRequest)
  | readRequest (request : ModuleRequest) (id : Nat)
  | readMappings (currentModule : Module) (configuration : ModuleConfiguration)
  | storeRequest (m : Module)
  | putRequest (operation : ModuleOperation) (m : Module)
  | work (w : ModuleWork) (position : WorkPosition w)

/-- The store with the numbers of the operations. -/
structure ModulePanel where
  store : PanelStore
  latest : Nat → Nat := fun _ => 0
  latestOperation : Nat → ModuleOperation := fun _ => .install
  started : Nat := 0

namespace ModulePanel

def putModule (s : ModulePanel) (m : Module) : ModulePanel :=
  { s with store := s.store.putModule m }

/-- Number the operation that stores its started state. -/
def startOperation (s : ModulePanel) (operation : ModuleOperation) (m : Module) :
    ModulePanel :=
  { store := s.store.putModule m
    latest := update s.latest m.id s.started
    latestOperation := update s.latestOperation m.id operation
    started := s.started + 1 }

/-- `tryGetModule(id).filter { it.state == state }`. -/
def moduleInState (s : ModulePanel) (id : Nat) (state : ModuleState) : Option Module :=
  (s.store.tryGetModule id).filter fun m => m.state = state

end ModulePanel

/-! ## Actions -/

def settledModule (m : Module) (state : ModuleState) (now : Nat) : Module :=
  { m with state := state, updateTimeStamp := now }

/-- One action of an operation that has been stored as started.  What fails before
the body's exceptions are caught ends the operation without a trace. -/
def workStep (w : ModuleWork) :
    WorkPosition w → Signal Module → ModulePanel → Option (ModulePanel × List ModuleTask)
  | .manager, .go _, s => some (s, [.work w .project])
  | .manager, .fail _, s => some (s, [])
  | .project, .go _, s =>
      match s.store.getProject w.module.projectId with
      | .error _ => some (s, [])
      | .ok _ => some (s, [.work w .prepare])
  | .prepare, .go _, s => some (s, [.work w .connect])
  | .prepare, .fail _, s => some (s, [.work w .caughtRead])
  | .connect, .go _, s => some (s, [.work w .announceRead])
  | .connect, .fail _, s => some (s, [.work w .caughtRead])
  | .announceRead, .go _, s =>
      match s.store.tryGetModule w.module.id with
      | none => some (s, [.work w .request])
      | some _ => some (s, [.work w .announcePut])
  | .announcePut, .go _, s => some (s.putModule w.inProgress, [.work w .request])
  | .request, .go _, s => some (s, [.work w .subscribe])
  | .request, .fail _, s => some (s, [.work w .caughtRead])
  | .subscribe, .go _, s => some (s, [.work w .idle])
  | .idle, .next m, s =>
      if h : m.id = w.module.id ∧ m.state = w.operation.inProgressState then
        some (s, [.work w (.eventRead ⟨m, h⟩)])
      else none
  | .idle, .complete, s => some (s, [.work w .completeRead])
  | .idle, .error _, s => some (s, [.work w .errorRead])
  | .eventRead event, .go _, s =>
      match s.moduleInState w.module.id w.operation.inProgressState with
      | none => some (s, [.work w .idle])
      | some _ => some (s, [.work w (.eventPut event)])
  | .eventPut event, .go _, s => some (s.putModule event.val, [.work w .idle])
  | .completeRead, .go now, s =>
      match s.moduleInState w.module.id w.operation.inProgressState with
      | none => some (s, [])
      | some m =>
          some (s, [.work w (.completeTryRead (settledModule m w.operation.finalState now))])
  | .completeTryRead m, .go _, s =>
      match s.store.tryGetModule m.id with
      | none => some (s, [])
      | some _ => some (s, [.work w (.completePut m)])
  | .completePut m, .go _, s => some (s.putModule m, [])
  | .errorRead, .go _, s =>
      match s.moduleInState w.module.id w.operation.inProgressState with
      | none => some (s, [])
      | some _ => some (s, [.work w .errorGet])
  | .caughtRead, .go _, s =>
      match s.store.tryGetModule w.module.id with
      | none => some (s, [])
      | some _ => some (s, [.work w .errorGet])
  | .errorGet, .go now, s =>
      match s.store.getModule w.module.id with
      | .error _ => some (s, [])
      | .ok m => some (s, [.work w (.errorTryRead (settledModule m .invalid now))])
  | .errorTryRead m, .go _, s =>
      match s.store.tryGetModule m.id with
      | none => some (s, [])
      | some _ => some (s, [.work w (.errorPut m)])
  | .errorPut m, .go _, s => some (s.putModule m, [])
  | _, _, _ => none

/-- One atomic action of module management. -/
def ModuleTask.step (toLowerCase : String → String) :
    Actions ModulePanel ModuleTask (Signal Module)
  | .installRead request, .go _, s =>
      match (s.store.getProjectModules request.projectId).find? fun m =>
          m.name = request.configuration.name with
      | some _ => some (s, [])
      | none => some (s, [.installPut request])
  | .installPut request, .go now, s =>
      let m := createModule toLowerCase request s.store.modules.freshKey now
      some (s.putModule m, [.putRequest .install m])
  | .readRequest request id, .go _, s =>
      match s.store.getModule id with
      | .error _ => some (s, [])
      | .ok m =>
          match request with
          | .update configuration => some (s, [.readMappings m configuration])
          | _ => some (s, [.putRequest request.operation m])
  | .readMappings currentModule configuration, .go _, s =>
      match s.store.getModule currentModule.id with
      | .error _ => some (s, [])
      | .ok m =>
          some (s, [.storeRequest (createUpdatedModule currentModule configuration
            m.portMappings)])
  | .storeRequest m, .go _, s => some (s.putModule m, [.putRequest .update m])
  | .putRequest operation m, .go _, s =>
      let newModule := { m with state := operation.startedState }
      some (s.startOperation operation newModule,
        [.work ⟨operation, newModule, s.started⟩ .manager])
  | .work w position, x, s => workStep w position x s
  | _, _, _ => none

/-! ## Waiting handlers -/

/-- Positions from which the operation goes on to the guard of a handler before it
puts anything. -/
def WorkPosition.isWaiting {w : ModuleWork} : WorkPosition w → Bool
  | .subscribe | .idle | .eventRead _ | .completeRead | .errorRead => true
  | _ => false

/-- The state for which the handlers of an operation look is not stored. -/
def ModulePanel.Quiet (s : ModulePanel) (w : ModuleWork) : Prop :=
  s.moduleInState w.module.id w.operation.inProgressState = none

variable {toLowerCase : String → String} {w : ModuleWork} {x : Signal Module}
  {s s' : ModulePanel} {ts : List ModuleTask}

/-- The task is an operation's, in a waiting position. -/
def WaitsFor (w : ModuleWork) (u : ModuleTask) : Prop :=
  ∃ p : WorkPosition w, u = .work w p ∧ p.isWaiting = true

/-- A handler that does not find its state leaves the panel alone and goes on
waiting, if it goes on at all. -/
theorem waiting_of_quiet {p : WorkPosition w} (hquiet : s.Quiet w)
    (hwaiting : p.isWaiting = true) (h : workStep w p x s = some (s', ts)) :
    s' = s ∧ ∀ u ∈ ts, WaitsFor w u := by
  revert h
  unfold ModulePanel.Quiet at hquiet
  fun_cases workStep w p x s <;> intro h <;>
    simp only [Option.some.injEq, Prod.mk.injEq, reduceCtorEq] at h <;>
    rcases h with ⟨rfl, rfl⟩
  -- Positions that do not wait, and guards that would have been passed.
  all_goals first
    | (cases hwaiting; done)
    | (rename_i hfound; rw [hquiet] at hfound; cases hfound; done)
    | skip
  all_goals
    refine ⟨rfl, ?_⟩
    intro u hu
    first
    | (cases hu; done)
    | exact ⟨_, List.mem_singleton.mp hu, rfl⟩

/-! ## What an operation writes -/

/-- The modules that an operation has prepared to put are its own, in a settled
state. -/
def WorkPosition.WellHeld {w : ModuleWork} : WorkPosition w → Prop
  | .completeTryRead m | .completePut m =>
      m.id = w.module.id ∧ m.state = w.operation.finalState
  | .errorTryRead m | .errorPut m => m.id = w.module.id ∧ m.state = .invalid
  | _ => True

theorem wellHeld_of_isWaiting {p : WorkPosition w} (h : p.isWaiting = true) : p.WellHeld := by
  cases p <;> trivial

theorem id_of_moduleInState {id : Nat} {state : ModuleState} {m : Module}
    (h : s.moduleInState id state = some m) : m.id = id :=
  Space.key_of_get (Option.filter_eq_some_iff.mp h).1

theorem id_of_getModule {id : Nat} {m : Module} (h : s.store.getModule id = .ok m) :
    m.id = id :=
  Space.key_of_get (PanelStore.getModule_eq_ok.mp h)

/-- An operation is continued by itself, with modules of its own. -/
theorem wellHeld_of_workStep {p : WorkPosition w} (hheld : p.WellHeld)
    (h : workStep w p x s = some (s', ts)) :
    ∀ u ∈ ts, ∃ q : WorkPosition w, u = .work w q ∧ q.WellHeld := by
  revert h
  fun_cases workStep w p x s <;> intro h <;>
    simp only [Option.some.injEq, Prod.mk.injEq, reduceCtorEq] at h <;>
    rcases h with ⟨rfl, rfl⟩ <;> intro u hu
  case case23 m hfound =>
      have hid : m.id = w.module.id := id_of_moduleInState hfound
      exact ⟨_, List.mem_singleton.mp hu, hid, rfl⟩
  case case32 m hfound =>
      have hid : m.id = w.module.id := id_of_getModule hfound
      exact ⟨_, List.mem_singleton.mp hu, hid, rfl⟩
  all_goals first
    | (cases hu; done)
    | exact ⟨_, List.mem_singleton.mp hu, trivial⟩
    | exact ⟨_, List.mem_singleton.mp hu, hheld⟩

/-- A state in which an operation is in progress belongs to one operation only; the
settled states and the started states belong to none. -/
def ModuleState.IsOf (operation : ModuleOperation) (state : ModuleState) : Prop :=
  ∀ o : ModuleOperation, state = o.inProgressState → o = operation

theorem isOf_inProgressState (o : ModuleOperation) : o.inProgressState.IsOf o :=
  fun _ h => (inProgressState_injective h).symm

theorem isOf_finalState (o o' : ModuleOperation) : o'.finalState.IsOf o := by
  intro o'' h
  cases o' <;> cases o'' <;> cases h

theorem isOf_invalid (o : ModuleOperation) : ModuleState.invalid.IsOf o := by
  intro o' h
  cases o' <;> cases h

theorem isOf_startedState (o o' : ModuleOperation) : o'.startedState.IsOf o := by
  intro o'' h
  cases o' <;> cases o'' <;> cases h

/-- An action of an operation puts its own module at most, in a state of its own. -/
theorem workStep_store {p : WorkPosition w} (hheld : p.WellHeld)
    (h : workStep w p x s = some (s', ts)) :
    s' = s ∨ ∃ m, s' = s.putModule m ∧ m.id = w.module.id ∧ m.state.IsOf w.operation := by
  revert h
  fun_cases workStep w p x s <;> intro h <;>
    simp only [Option.some.injEq, Prod.mk.injEq, reduceCtorEq] at h <;>
    rcases h with ⟨rfl, rfl⟩
  case case11 =>
      exact .inr ⟨w.inProgress, rfl, rfl, isOf_inProgressState w.operation⟩
  case case21 event _ =>
      refine .inr ⟨event.val, rfl, event.2.1, ?_⟩
      rw [event.2.2]
      exact isOf_inProgressState w.operation
  case case26 m _ =>
      exact .inr ⟨m, rfl, hheld.1, hheld.2 ▸ isOf_finalState _ _⟩
  case case35 m _ =>
      exact .inr ⟨m, rfl, hheld.1, hheld.2 ▸ isOf_invalid _⟩
  all_goals exact .inl rfl

/-! ## What a request writes -/

/-- A task that works for no stored operation; a module it has prepared to store is
in a started state. -/
def ModuleTask.IsRequesting : ModuleTask → Prop
  | .work _ _ => False
  | .storeRequest m => m.state = .updateStarted
  | _ => True

/-- A request, before it stores its started state, puts at most a module that is in
no operation's progress. -/
theorem requesting_step {t : ModuleTask} (ht : t.IsRequesting)
    (hput : ∀ o m, t ≠ .putRequest o m) (h : t.step toLowerCase x s = some (s', ts)) :
    (s' = s ∨ ∃ m, s' = s.putModule m ∧ ∀ o, m.state.IsOf o) ∧
      ∀ u ∈ ts, u.IsRequesting := by
  revert h
  fun_cases ModuleTask.step toLowerCase t x s <;> intro h
  case case10 => exact absurd rfl (hput _ _)
  case case11 => exact ht.elim
  all_goals
    simp only [Option.some.injEq, Prod.mk.injEq, reduceCtorEq] at h
  all_goals
    rcases h with ⟨rfl, rfl⟩
  case case3 =>
      refine ⟨.inr ⟨_, rfl, fun o => isOf_startedState o .install⟩, ?_⟩
      simp [ModuleTask.IsRequesting]
  case case9 m _ =>
      have hstate : m.state = .updateStarted := ht
      refine ⟨.inr ⟨_, rfl, fun o => hstate ▸ isOf_startedState o .update⟩, ?_⟩
      simp [ModuleTask.IsRequesting]
  all_goals
    refine ⟨.inl rfl, ?_⟩
    simp [ModuleTask.IsRequesting, createUpdatedModule]

/-! ## The invariant -/

abbrev ModuleConfig := Config ModulePanel ModuleTask

/-- The operation is not the last one of its module. -/
def ModulePanel.Superseded (s : ModulePanel) (w : ModuleWork) : Prop :=
  w.number ≠ s.latest w.module.id

/-- What is true of every task while operations start alone: a superseded operation
waits at the guard of a state that is neither stored nor going to be stored by the
last operation of its module. -/
def TaskIsolated (s : ModulePanel) : ModuleTask → Prop
  | .work w p => p.WellHeld ∧ w.number < s.started ∧
      (¬ s.Superseded w → w.operation = s.latestOperation w.module.id) ∧
      (s.Superseded w → p.isWaiting = true ∧
        w.operation ≠ s.latestOperation w.module.id ∧ s.Quiet w)
  | t => t.IsRequesting

/-- What the panel's users may call.  The started state is stored by a call of its own
where the module comes back from the client. -/
def ModuleTask.isRequest : ModuleTask → Bool
  | .installRead _ | .readRequest _ _ | .putRequest _ _ => true
  | _ => false

/-- The task is no obstacle to an operation of the module: it works for another module,
or for an operation of another kind that waits. -/
def ModuleTask.givesWay (operation : ModuleOperation) (id : Nat) : ModuleTask → Bool
  | .work w p => w.module.id ≠ id || p.isWaiting && w.operation ≠ operation
  | _ => true

/-- Only requests are called. -/
def moduleRequestsOnly : Label ModuleTask (Signal Module) → Bool
  | .call t => t.isRequest
  | .act _ _ => true

/-- Only requests are called, and an operation stores its started state only while the
other operations of its module wait for the guard of a different state. -/
def startsAlone (c : ModuleConfig) (l : Label ModuleTask (Signal Module)) : Bool :=
  moduleRequestsOnly l && match l with
    | .act (.putRequest operation m) _ => c.tasks.all (·.givesWay operation m.id)
    | _ => true

/-- A put of another state of the module silences the handlers of the operation. -/
theorem quiet_putModule_self {m : Module} (hid : m.id = w.module.id)
    (hstate : m.state ≠ w.operation.inProgressState) : (s.putModule m).Quiet w := by
  unfold ModulePanel.Quiet ModulePanel.moduleInState PanelStore.tryGetModule
  have hget : (s.putModule m).store.modules.get w.module.id = some m := by
    rw [← hid]
    exact s.store.modules.get_put_self m
  rw [hget]
  simp [hstate]

/-- A put of another module does not reach the handlers of the operation. -/
theorem quiet_putModule_iff {m : Module} (hid : m.id ≠ w.module.id) :
    (s.putModule m).Quiet w ↔ s.Quiet w := by
  unfold ModulePanel.Quiet ModulePanel.moduleInState PanelStore.tryGetModule
  have hget : (s.putModule m).store.modules.get w.module.id =
      s.store.modules.get w.module.id :=
    s.store.modules.get_put_of_ne m hid.symm
  rw [hget]

/-- A put of a module that is in the progress of the last operation of its id at most
leaves the superseded operations where they are. -/
theorem taskIsolated_putModule {t : ModuleTask} {m : Module} (ht : TaskIsolated s t)
    (hstate : m.state.IsOf (s.latestOperation m.id)) :
    TaskIsolated (s.putModule m) t := by
  cases t with
  | work w p =>
      obtain ⟨hheld, hnumber, hlast, hsuperseded⟩ := ht
      refine ⟨hheld, hnumber, hlast, ?_⟩
      intro hold
      obtain ⟨hwaiting, hother, hquiet⟩ := hsuperseded hold
      refine ⟨hwaiting, hother, ?_⟩
      by_cases hid : m.id = w.module.id
      · refine quiet_putModule_self hid ?_
        intro heq
        rw [hid] at hstate
        exact hother (hstate w.operation heq)
      · exact (quiet_putModule_iff hid).mpr hquiet
  | _ => exact ht

theorem latest_startOperation (s : ModulePanel) (o : ModuleOperation) (m : Module) (id : Nat) :
    (s.startOperation o m).latest id = if id = m.id then s.started else s.latest id :=
  Function.update_apply s.latest m.id s.started id

theorem latestOperation_startOperation (s : ModulePanel) (o : ModuleOperation) (m : Module)
    (id : Nat) :
    (s.startOperation o m).latestOperation id = if id = m.id then o else s.latestOperation id :=
  Function.update_apply s.latestOperation m.id o id

/-- The start of an operation supersedes the others of its module, which wait for the
guard of another state. -/
theorem taskIsolated_startOperation {t : ModuleTask} {o : ModuleOperation} {m : Module}
    (hstate : m.state = o.startedState) (ht : TaskIsolated s t)
    (halone : ∀ w p, t = .work w p → w.module.id = m.id →
      p.isWaiting = true ∧ w.operation ≠ o) :
    TaskIsolated (s.startOperation o m) t := by
  cases t with
  | work w p =>
      obtain ⟨hheld, hnumber, hlast, hsuperseded⟩ := ht
      refine ⟨hheld, Nat.lt_succ_of_lt hnumber, ?_⟩
      unfold ModulePanel.Superseded at *
      rw [latest_startOperation, latestOperation_startOperation]
      by_cases hid : w.module.id = m.id
      · obtain ⟨hwaiting, hother⟩ := halone w p rfl hid
        rw [if_pos hid, if_pos hid]
        refine ⟨fun hnot => by omega, fun _ => ⟨hwaiting, hother, ?_⟩⟩
        refine quiet_putModule_self (s := s) hid.symm ?_
        rw [hstate]
        intro heq
        exact hother (isOf_startedState o o w.operation heq)
      · rw [if_neg hid, if_neg hid]
        refine ⟨hlast, fun hold => ?_⟩
        obtain ⟨hwaiting, hother, hquiet⟩ := hsuperseded hold
        exact ⟨hwaiting, hother, (quiet_putModule_iff fun heq => hid heq.symm).mpr hquiet⟩
  | _ => exact ht

/-! ## Isolation -/

/-- Every task of the pool is isolated. -/
def Isolated (c : ModuleConfig) : Prop :=
  ∀ t ∈ c.tasks, TaskIsolated c.shared t

variable {c c' : ModuleConfig} {l : Label ModuleTask (Signal Module)}

theorem taskIsolated_of_isRequesting {t : ModuleTask} (h : t.IsRequesting) :
    TaskIsolated s t := by
  cases t with
  | work w p => exact h.elim
  | _ => exact h

theorem isRequesting_of_isolated {t : ModuleTask} (hwork : ∀ w p, t ≠ .work w p)
    (h : TaskIsolated s t) : t.IsRequesting := by
  cases t with
  | work w p => exact absurd rfl (hwork w p)
  | _ => exact h

/-- What an action does to the isolation: its own tasks are isolated afterwards, and
the others remain so. -/
def KeepsIsolation (s s' : ModulePanel) (ts : List ModuleTask) : Prop :=
  (∀ u ∈ ts, TaskIsolated s' u) ∧ ∀ u, TaskIsolated s u → TaskIsolated s' u

/-- An operation that has been superseded changes nothing. -/
theorem store_of_superseded {p : WorkPosition w} (ht : TaskIsolated s (.work w p))
    (hold : s.Superseded w) (h : workStep w p x s = some (s', ts)) : s' = s := by
  obtain ⟨hwaiting, -, hquiet⟩ := ht.2.2.2 hold
  exact (waiting_of_quiet hquiet hwaiting h).1

theorem keepsIsolation_superseded {p : WorkPosition w} (ht : TaskIsolated s (.work w p))
    (hold : s.Superseded w) (h : workStep w p x s = some (s', ts)) :
    KeepsIsolation s s' ts := by
  obtain ⟨-, hnumber, hlast, hsuperseded⟩ := ht
  obtain ⟨hwaiting, hother, hquiet⟩ := hsuperseded hold
  obtain ⟨rfl, hnew⟩ := waiting_of_quiet hquiet hwaiting h
  refine ⟨?_, fun u hu => hu⟩
  intro u hu
  obtain ⟨q, rfl, hq⟩ := hnew u hu
  exact ⟨wellHeld_of_isWaiting hq, hnumber, hlast, fun _ => ⟨hq, hother, hquiet⟩⟩

/-- The last operation of a module puts its own states only. -/
theorem keepsIsolation_last {p : WorkPosition w} (ht : TaskIsolated s (.work w p))
    (hcurrent : ¬ s.Superseded w) (h : workStep w p x s = some (s', ts)) :
    KeepsIsolation s s' ts := by
  obtain ⟨hheld, hnumber, hlast, -⟩ := ht
  have hoperation := hlast hcurrent
  have hstable : (∀ u, TaskIsolated s u → TaskIsolated s' u) ∧
      s'.latest = s.latest ∧ s'.latestOperation = s.latestOperation ∧
      s'.started = s.started := by
    rcases workStep_store hheld h with rfl | ⟨m, rfl, hid, hstate⟩
    · exact ⟨fun u hu => hu, rfl, rfl, rfl⟩
    · refine ⟨fun u hu => taskIsolated_putModule hu ?_, rfl, rfl, rfl⟩
      rw [hid, ← hoperation]
      exact hstate
  obtain ⟨hstable, hlatest, hkind, hstarted⟩ := hstable
  refine ⟨?_, hstable⟩
  intro u hu
  obtain ⟨q, rfl, hq⟩ := wellHeld_of_workStep hheld h u hu
  have hcurrent' : ¬ s'.Superseded w := by
    unfold ModulePanel.Superseded at *
    rwa [hlatest]
  refine ⟨hq, hstarted ▸ hnumber, fun _ => ?_, fun hold => absurd hold hcurrent'⟩
  rw [hkind]
  exact hoperation

theorem keepsIsolation_requesting {t : ModuleTask} (ht : t.IsRequesting)
    (hput : ∀ o m, t ≠ .putRequest o m) (h : t.step toLowerCase x s = some (s', ts)) :
    KeepsIsolation s s' ts := by
  obtain ⟨hstore, hnew⟩ := requesting_step ht hput h
  refine ⟨fun u hu => taskIsolated_of_isRequesting (hnew u hu), ?_⟩
  rcases hstore with rfl | ⟨m, rfl, hstate⟩
  · exact fun u hu => hu
  · exact fun u hu => taskIsolated_putModule hu (hstate _)

/-- One action keeps all tasks isolated. -/
theorem Isolated.act {t : ModuleTask} (h : Isolated c) (hok : startsAlone c (.act t x) = true)
    (hstep : Step (ModuleTask.step toLowerCase) c (.act t x) c') : Isolated c' := by
  have ht : TaskIsolated c.shared t := h t hstep.mem_tasks
  have hkeeps : ∀ ts, t.step toLowerCase x c.shared = some (c'.shared, ts) →
      (∀ o m, t ≠ .putRequest o m) → KeepsIsolation c.shared c'.shared ts := by
    intro ts hact hput
    cases t with
    | work w p =>
        by_cases hold : c.shared.Superseded w
        · exact keepsIsolation_superseded ht hold hact
        · exact keepsIsolation_last ht hold hact
    | _ =>
        refine keepsIsolation_requesting (isRequesting_of_isolated ?_ ht) hput hact
        intro w p heq
        cases heq
  obtain ⟨ts₀, -, -, hact₀, -⟩ := hstep.act_inv
  by_cases hput : ∃ o m, t = .putRequest o m
  · obtain ⟨o, m, rfl⟩ := hput
    cases x with
    | go now =>
        obtain ⟨hshared, hts⟩ := Prod.mk.inj (Option.some.inj hact₀)
        refine hstep.forall_tasks h ?_ ?_
        · intro ts hact u hu
          rw [← (Prod.mk.inj (Option.some.inj (hact₀.symm.trans hact))).2, ← hts] at hu
          rw [List.mem_singleton.mp hu, ← hshared]
          refine ⟨trivial, Nat.lt_succ_self _, fun _ => ?_, fun hold => ?_⟩
          · rw [latestOperation_startOperation, if_pos rfl]
          · unfold ModulePanel.Superseded at hold
            rw [latest_startOperation, if_pos rfl] at hold
            exact absurd rfl hold
        · intro u hu hisolated
          rw [← hshared]
          refine taskIsolated_startOperation rfl hisolated ?_
          rintro w p rfl hid
          have hway := List.all_eq_true.mp (Bool.and_eq_true_iff.mp hok).2 _ hu
          simpa [ModuleTask.givesWay, hid] using hway
    | _ => cases hact₀
  · have hput' : ∀ o m, t ≠ .putRequest o m := fun o m heq => hput ⟨o, m, heq⟩
    refine hstep.forall_tasks h (fun ts hact => (hkeeps ts hact hput').1) ?_
    intro u _ hisolated
    exact (hkeeps ts₀ hact₀ hput').2 u hisolated

theorem Isolated.step (h : Isolated c) (hok : startsAlone c l = true)
    (hstep : Step (ModuleTask.step toLowerCase) c l c') : Isolated c' := by
  cases l with
  | call t =>
      cases hstep
      intro u hu
      rcases List.mem_cons.mp hu with rfl | hu
      · cases u <;> trivial
      · exact h u hu
  | act t x => exact h.act hok hstep

/-- From a pool of requests, in every run whose operations start alone, every task is
isolated. -/
theorem isolated_of_run {ls : List (Label ModuleTask (Signal Module))}
    (hstart : ∀ t ∈ c.tasks, t.IsRequesting)
    (hrun : Run (ModuleTask.step toLowerCase) (fun d k => startsAlone d k = true) c ls c') : Isolated c' := by
  refine hrun.invariant (I := Isolated) ?_ ?_
  · exact fun t ht => taskIsolated_of_isRequesting (hstart t ht)
  · exact fun _ _ _ h hok hstep => h.step hok hstep

/-- The operations of a module do not overwrite one another where they start alone: in
every run whose operations each start while the others of the module wait for a
different state, no operation changes the store once a later operation of its module
has stored its started state. -/
theorem operations_isolated {ls : List (Label ModuleTask (Signal Module))}
    {c'' : ModuleConfig} {p : WorkPosition w} (hstart : ∀ t ∈ c.tasks, t.IsRequesting)
    (hrun : Run (ModuleTask.step toLowerCase) (fun d k => startsAlone d k = true) c ls c')
    (hold : c'.shared.Superseded w)
    (hstep : Step (ModuleTask.step toLowerCase) c' (.act (.work w p) x) c'') :
    c''.shared.store = c'.shared.store := by
  have hisolated := isolated_of_run hstart hrun
  obtain ⟨ts, others, -, hact, -⟩ := hstep.act_inv
  have hsame : c''.shared = c'.shared :=
    store_of_superseded (hisolated _ hstep.mem_tasks) hold hact
  rw [hsame]

/-! ## Two operations of one module -/

namespace SampleModule

private def runningModule : Module :=
  { createModule asciiLowerCase installation 1 0 with state := .run }

/-- A running module of a stored project, and nothing else going on. -/
private def runningModuleConfig : ModuleConfig :=
  let store := PanelStore.empty.putProject (SampleProject.projectNamed "shop" 1)
  ⟨{ store := store.putModule runningModule }, []⟩

end SampleModule

open SampleModule

/-- The stop of the module has gone as far as its stream when a restart begins. -/
private def sequentialMoves : List (Move ModuleTask (Signal Module)) :=
  .call (.readRequest .stop 1) :: List.replicate 10 (.act 0 (.go 0)) ++
    .call (.readRequest .restart 1) :: List.replicate 2 (.act 0 (.go 0))

/-- The restart begins before the body of the stop has. -/
private def overtakingMoves : List (Move ModuleTask (Signal Module)) :=
  .call (.readRequest .stop 1) :: List.replicate 2 (.act 0 (.go 0)) ++
    .call (.readRequest .restart 1) :: List.replicate 2 (.act 0 (.go 0)) ++
    .act 1 (.go 0) :: List.replicate 4 (.act 0 (.go 0))

private def storedState (c : ModuleConfig) : Option ModuleState :=
  (c.shared.store.tryGetModule 1).map Module.state

private theorem storedState_eq {c d : ModuleConfig}
    (h : c.shared.store.tryGetModule 1 = d.shared.store.tryGetModule 1) :
    storedState c = storedState d := by
  unfold storedState
  rw [h]

/-- The task of the label works for a superseded operation of the module 1. -/
private def actsSuperseded (c : ModuleConfig) : Label ModuleTask (Signal Module) → Bool
  | .act (.work w _) _ => w.module.id == 1 && w.number != c.shared.latest 1
  | _ => false

private theorem actsSuperseded_inv {c : ModuleConfig} {l : Label ModuleTask (Signal Module)}
    (h : actsSuperseded c l = true) :
    ∃ w p x, l = .act (.work w p) x ∧ w.module.id = 1 ∧ c.shared.Superseded w := by
  revert h
  fun_cases actsSuperseded c l <;> intro h
  · rename_i w p x
    simp only [Bool.and_eq_true, beq_iff_eq, bne_iff_ne] at h
    refine ⟨w, p, x, rfl, h.1, ?_⟩
    unfold ModulePanel.Superseded
    rw [h.1]
    exact h.2
  · cases h

/-- No operation of a module changes it any more once a later one has stored its
started state. -/
def OperationsAreIsolated (toLowerCase : String → String) : Prop :=
  ∀ store ls c (w : ModuleWork) (p : WorkPosition w) x c',
    Run (ModuleTask.step toLowerCase) (fun _ k => moduleRequestsOnly k = true)
      ⟨{ store := store }, []⟩ ls c →
    c.shared.Superseded w →
    Step (ModuleTask.step toLowerCase) c (.act (.work w p) x) c' →
    c'.shared.store.tryGetModule w.module.id = c.shared.store.tryGetModule w.module.id

/-- The next step is a superseded operation's and stores another state. -/
private def overwritesModule (c : ModuleConfig) : Bool :=
  (c.move (ModuleTask.step asciiLowerCase) (.act 0 (.go 0))).any fun e =>
    actsSuperseded c e.1 && storedState e.2 != storedState c

/-- The body of an earlier operation stores its snapshot over the started state of a
later one. -/
theorem earlier_operation_overwrites : ¬ ∀ toLowerCase, OperationsAreIsolated toLowerCase := by
  intro h
  obtain ⟨ls, c, hrun, hc⟩ := exists_run_of_exec (ModuleTask.step asciiLowerCase)
    (fun _ => moduleRequestsOnly) runningModuleConfig overtakingMoves
    (fun _ => overwritesModule) (by decide)
  obtain ⟨l, c', hstep, hl⟩ := exists_step_of_move _
    (fun l d => actsSuperseded c l && storedState d != storedState c) hc
  obtain ⟨hacts, hchanged⟩ := Bool.and_eq_true_iff.mp hl
  obtain ⟨w, p, x, rfl, hid, hold⟩ := actsSuperseded_inv hacts
  have hsame := h asciiLowerCase _ ls c w p x c' hrun hold hstep
  rw [hid] at hsame
  exact absurd (storedState_eq hsame) (bne_iff_ne.mp hchanged)

/-- The stream of the stop, superseded by the restart, may still complete. -/
private def completesSuperseded (c : ModuleConfig) : Bool :=
  (c.move (ModuleTask.step asciiLowerCase) (.act 1 .complete)).any fun e =>
    actsSuperseded c e.1

/-- A stop that waits for its agent does not disturb the restart after it. -/
theorem operations_isolated_sequential :
    ∃ ls c w p x c', Run (ModuleTask.step asciiLowerCase)
        (fun d k => startsAlone d k = true) runningModuleConfig ls c ∧
      Step (ModuleTask.step asciiLowerCase) c (.act (.work w p) x) c' ∧
      c'.shared.store = c.shared.store := by
  obtain ⟨ls, c, hrun, hc⟩ := exists_run_of_exec (ModuleTask.step asciiLowerCase)
    startsAlone runningModuleConfig sequentialMoves (fun _ => completesSuperseded)
    (by decide)
  obtain ⟨l, c', hstep, hl⟩ := exists_step_of_move _ (fun l _ => actsSuperseded c l) hc
  obtain ⟨w, p, x, rfl, -, hold⟩ := actsSuperseded_inv hl
  have hnothing : ∀ t ∈ runningModuleConfig.tasks, t.IsRequesting := by
    intro t ht
    cases ht
  exact ⟨ls, c, w, p, x, c', hrun, hstep, operations_isolated hnothing hrun hold hstep⟩

end ArtPlatform
