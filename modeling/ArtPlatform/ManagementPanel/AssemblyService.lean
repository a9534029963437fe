import ArtPlatform.ManagementPanel.PanelState

/-!
# Building an assembly

The services that build, cancel and rebuild an assembly, as tasks whose atomic
actions are the single repository operations and map operations of the source.
A constructor of `AssemblyTask` names the operation that the task performs next
and carries the local variables that are still used.

- `cancelAssembly` reads, puts the cancelled snapshot, and starts the
  asynchronous destruction when the snapshot was already on a resource.
- `rebuildProject` reads, cancels, and puts the restarted assembly.
- The asynchronous body of `buildProject` starts the agent, announces the
  assembly and subscribes to the agent's stream.
- The stream's handlers `updateAssembly`, `completeAssembly` and
  `handleAssemblyError` guard on the stored assembly and put afterwards.
- `destroyAgent` cancels, disposes, stops and forgets, one map at a time.

Main results:

- Theorem `assemblies_of_step`: the stored assemblies change by the put that the
  task was about to make, and by nothing else.
- Theorem `heldFrom_step`: a task comes to hold a put of an assembly only by
  reading that the assembly is running.
-/

namespace ArtPlatform

structure BuildRequest where
  projectId : Nat
  version : ProjectVersion
  resourceId : ResourceIdentifier

/-- A started build: the receiver of the handlers and the number of its run. -/
structure Build where
  assembly : Assembly
  run : Nat

/-- Events of the agent of an assembly.  The agent changes the assembly it got
with the request, so every event carries its id. -/
abbrev AgentEvent (id : Nat) :=
  { e : AssemblyEvent // e.assembly.id = id }

/-! ## Tasks -/

/-- Positions of `destroyAgent`, after the creation of the builder. -/
inductive DestroyPosition
  | createBuilder
  | cancelSubscription
  | dispose
  | stopAgent
  | removeAgent
  | removeDisposable
  | removeSubscription
  | removeRequester
deriving DecidableEq

/-- Positions of the start and the asynchronous body of `buildProject`. -/
inductive BodyPosition
  | start
  | checkCanceled
  | startAgent
  | awaitReadiness
  | checkCanceledAgain
  | stopCanceled
  | announceRead
  | announcePut
  | prepareRequest
  | connect
  | chunk
  | subscribe
  | register
deriving DecidableEq

/-- Positions of the stream's event and completion handlers. -/
inductive StreamPosition (id : Nat)
  | idle
  | eventRead (event : AgentEvent id)
  | eventLogRead (stored : Assembly) (event : AgentEvent id) (record : String)
  | eventLogPut (stored : Assembly) (event : AgentEvent id) (record : String) (log : Log)
  | eventPut (event : AgentEvent id)
  | eventRequest
  | completeRead
  | completeLogRead (stored : Assembly)
  | completePut (stored : Assembly)

/-- Positions of `handleAssemblyError`. -/
inductive FailurePosition
  | read
  | put (stored : Assembly)
  | logRead
  | logPut (log : Log)

/-- The tasks of the build service.  `caller` is the assembly that a rebuild has
read before it called the cancellation. -/
inductive AssemblyTask
  | cancelRead (id : Nat) (caller : Option Assembly)
  | cancelPut (currentAssembly : Assembly) (caller : Option Assembly)
  | rebuildRead (id : Nat)
  | rebuildLog (assembly : Assembly)
  | rebuildPut (assembly : Assembly) (logId : Nat)
  | buildLog (request : BuildRequest) (technology : String)
  | buildPut (request : BuildRequest) (technology : String) (logId : Nat)
  | body (b : Build) (position : BodyPosition)
  | stream (b : Build) (position : StreamPosition b.assembly.id)
  | failure (b : Build) (message : String) (position : FailurePosition)
  | destroy (id run : Nat) (position : DestroyPosition)

/-! ## Snapshots that are put -/

def canceledAssembly (a : Assembly) (now : Nat) : Assembly :=
  { a with state := .canceled, endTimeStamp := some now }

def restartedAssembly (a : Assembly) (logId now : Nat) : Assembly :=
  { a with startTimeStamp := now, state := .restarted, logId := logId, artifacts := [] }

/-- The factory's assembly, under the id that the database gives to it. -/
def createAssembly (request : BuildRequest) (technology : String) (logId now id : Nat) :
    Assembly where
  id := id
  technology := technology
  projectId := request.projectId
  resourceId := request.resourceId
  version := request.version
  logId := logId
  startTimeStamp := now

def announcedAssembly (a : Assembly) : Assembly :=
  { a with state := .startedOnResource }

def eventAssembly {id : Nat} (event : AgentEvent id) (now : Nat) : Assembly :=
  { event.val.assembly with state := .building, endTimeStamp := some now }

def doneAssembly (a : Assembly) (now : Nat) : Assembly :=
  { a with state := .done, endTimeStamp := some now }

def failedAssembly (a : Assembly) (now : Nat) : Assembly :=
  { a with state := .failed, endTimeStamp := some now }

/-! ## Actions -/

/-- `tryGetAssembly(id).filter { it.isRunning }`. -/
def PanelState.runningAssembly (s : PanelState) (id : Nat) : Option Assembly :=
  (s.store.tryGetAssembly id).filter Assembly.isRunning

/-- The rebuild goes on when the cancellation that it called has returned. -/
def resumeRebuild : Option Assembly → List AssemblyTask
  | none => []
  | some assembly => [.rebuildLog assembly]

def cancelReadStep (id : Nat) (caller : Option Assembly) (s : PanelState) :
    List AssemblyTask :=
  match s.store.getAssembly id with
  | .error _ => []
  | .ok currentAssembly =>
      if currentAssembly.isRunning then [.cancelPut currentAssembly caller]
      else resumeRebuild caller

/-- The early return: nothing is destroyed unless the snapshot was on a resource. -/
def cancelPutStep (currentAssembly : Assembly) (caller : Option Assembly) (now : Nat)
    (s : PanelState) : PanelState × List AssemblyTask :=
  let newAssembly := canceledAssembly currentAssembly now
  let destruction :=
    if currentAssembly.state.onResource then
      [.destroy newAssembly.id (s.builds.latest newAssembly.id) .createBuilder]
    else []
  (s.putAssembly newAssembly, destruction ++ resumeRebuild caller)

def rebuildReadStep (id : Nat) (s : PanelState) : List AssemblyTask :=
  match s.store.getAssembly id with
  | .error _ => []
  | .ok assembly =>
      if assembly.isRunning then [.cancelRead assembly.id (some assembly)]
      else [.rebuildLog assembly]

/-- Store the assembly of a new run and go on with its body. -/
def startBuild (assembly : Assembly) (s : PanelState) : PanelState × List AssemblyTask :=
  ((s.putAssembly assembly).onBuilds (·.startRun assembly.id),
    [.body ⟨assembly, s.builds.runs⟩ .start])

/-- One action of the start and the body of `buildProject`.  A failure is thrown
to the caller before the body is asynchronous, and caught by the body after. -/
def bodyStep (b : Build) : BodyPosition → Signal AssemblyEvent → PanelState →
    Option (PanelState × List AssemblyTask)
  | .start, .go _, s => some (s, [.body b .checkCanceled])
  | .start, .fail _, s => some (s, [])
  | .checkCanceled, .go _, s =>
      match s.store.getAssembly b.assembly.id with
      | .error e => some (s, [.failure b e.message .read])
      | .ok a =>
          if a.isCanceled then some (s, [.body b .stopCanceled])
          else some (s, [.body b .startAgent])
  | .startAgent, .go _, s =>
      some (s.onBuilds (·.createPod b.assembly.id b.run), [.body b .awaitReadiness])
  | .startAgent, .fail m, s => some (s, [.failure b m .read])
  | .awaitReadiness, .go _, s => some (s, [.body b .checkCanceledAgain])
  | .awaitReadiness, .fail m, s => some (s, [.failure b m .read])
  | .checkCanceledAgain, .go _, s =>
      match s.store.getAssembly b.assembly.id with
      | .error e => some (s, [.failure b e.message .read])
      | .ok a =>
          if a.isCanceled then some (s, [.body b .stopCanceled])
          else some (s, [.body b .announceRead])
  | .stopCanceled, .go _, s => some (s.onBuilds (·.deletePod b.assembly.id), [])
  | .stopCanceled, .fail m, s => some (s, [.failure b m .read])
  | .announceRead, .go _, s =>
      match s.runningAssembly b.assembly.id with
      | some _ => some (s, [.body b .announcePut])
      | none => some (s, [.body b .prepareRequest])
  | .announceRead, .fail m, s => some (s, [.failure b m .read])
  | .announcePut, .go _, s =>
      some (s.putAssembly (announcedAssembly b.assembly), [.body b .prepareRequest])
  | .prepareRequest, .go _, s => some (s, [.body b .connect])
  | .prepareRequest, .fail m, s => some (s, [.failure b m .read])
  | .connect, .go _, s =>
      some (s.onBuilds (·.setAgent b.assembly.id b.run), [.body b .chunk])
  | .connect, .fail m, s => some (s, [.failure b m .read])
  | .chunk, .go _, s =>
      some (s.onBuilds (·.setRequester b.assembly.id), [.body b .subscribe])
  | .subscribe, .go _, s =>
      some (s.onBuilds (·.subscribe b.assembly.id b.run),
        [.stream b .idle, .body b .register])
  | .register, .go _, s =>
      some (s.onBuilds (·.setDisposable b.assembly.id b.run), [])
  | _, _, _ => none

/-- The rest of the event handler after the log record: put unless equal. -/
def compareEvent (b : Build) (stored : Assembly) (event : AgentEvent b.assembly.id) :
    AssemblyTask :=
  if event.val.assembly.equals stored then .stream b .eventRequest
  else .stream b (.eventPut event)

/-- One action of the stream.  A handler of the consumer that throws cancels the
stream; the completion hook that throws ends it without a destruction. -/
def streamStep (r : Rendering) (b : Build) : StreamPosition b.assembly.id →
    Signal AssemblyEvent → PanelState → Option (PanelState × List AssemblyTask)
  | .idle, .next e, s =>
      if h : s.builds.live b.run = true ∧ e.assembly.id = b.assembly.id then
        some (s, [.stream b (.eventRead ⟨e, h.2⟩)])
      else none
  | .idle, .complete, s =>
      if s.builds.live b.run then
        some (s.onBuilds (·.terminate b.run), [.stream b .completeRead])
      else none
  | .idle, .error m, s =>
      if s.builds.live b.run then
        some (s.onBuilds (·.terminate b.run), [.failure b m .read])
      else none
  | .eventRead event, .go _, s =>
      match s.runningAssembly b.assembly.id with
      | none => some (s, [.stream b .idle])
      | some stored =>
          match event.val.logRecord with
          | some record => some (s, [.stream b (.eventLogRead stored event record)])
          | none => some (s, [compareEvent b stored event])
  | .eventLogRead stored event record, .go _, s =>
      match s.store.getLog b.assembly.logId with
      | .error _ => some (s.onBuilds (·.terminate b.run), [])
      | .ok log => some (s, [.stream b (.eventLogPut stored event record log)])
  | .eventLogPut stored event record log, .go now, s =>
      some (s.putLog (log.record (formatLogRecord r now record)),
        [compareEvent b stored event])
  | .eventPut event, .go now, s =>
      some (s.putAssembly (eventAssembly event now), [.stream b .eventRequest])
  | .eventRequest, .go _, s => some (s, [.stream b .idle])
  | .completeRead, .go _, s =>
      match s.runningAssembly b.assembly.id with
      | none => some (s, [.destroy b.assembly.id b.run .cancelSubscription])
      | some stored => some (s, [.stream b (.completeLogRead stored)])
  | .completeLogRead stored, .go _, s =>
      match s.store.getLog b.assembly.logId with
      | .error _ => some (s, [])
      | .ok _ => some (s, [.stream b (.completePut stored)])
  | .completePut stored, .go now, s =>
      some (s.putAssembly (doneAssembly stored now),
        [.destroy b.assembly.id b.run .cancelSubscription])
  | _, _, _ => none

/-- One action of `handleAssemblyError`. -/
def failureStep (r : Rendering) (b : Build) (message : String) :
    FailurePosition → Signal AssemblyEvent → PanelState →
    Option (PanelState × List AssemblyTask)
  | .read, .go _, s =>
      match s.runningAssembly b.assembly.id with
      | none => some (s, [.destroy b.assembly.id b.run .cancelSubscription])
      | some stored => some (s, [.failure b message (.put stored)])
  | .put stored, .go now, s =>
      some (s.putAssembly (failedAssembly stored now), [.failure b message .logRead])
  | .logRead, .go _, s =>
      match s.store.getLog b.assembly.logId with
      | .error _ => some (s, [])
      | .ok log => some (s, [.failure b message (.logPut log)])
  | .logPut log, .go now, s =>
      some (s.putLog (log.record (formatLogRecord r now
          (r.errorColor ("Assembly failed: " ++ message)))),
        [.destroy b.assembly.id b.run .cancelSubscription])
  | _, _, _ => none

/-- One action of the destruction.  The creation of the builder and the stop of
the agent may fail, which ends the task. -/
def destroyStep (id run : Nat) : DestroyPosition → Signal AssemblyEvent → PanelState →
    Option (PanelState × List AssemblyTask)
  | .createBuilder, .go _, s => some (s, [.destroy id run .cancelSubscription])
  | .createBuilder, .fail _, s => some (s, [])
  | .cancelSubscription, .go _, s =>
      some (s.onBuilds (·.cancelSubscription id), [.destroy id run .dispose])
  | .dispose, .go _, s => some (s.onBuilds (·.dispose id), [.destroy id run .stopAgent])
  | .stopAgent, .go _, s =>
      some (s.onBuilds (·.deletePod id), [.destroy id run .removeAgent])
  | .stopAgent, .fail _, s => some (s, [])
  | .removeAgent, .go _, s =>
      some (s.onBuilds (·.removeAgent id), [.destroy id run .removeDisposable])
  | .removeDisposable, .go _, s =>
      some (s.onBuilds (·.removeDisposable id), [.destroy id run .removeSubscription])
  | .removeSubscription, .go _, s =>
      some (s.onBuilds (·.removeSubscription id), [.destroy id run .removeRequester])
  | .removeRequester, .go _, s => some (s.onBuilds (·.removeRequester id), [])
  | _, _, _ => none

/-- One atomic action of a task of the build service. -/
def AssemblyTask.step (r : Rendering) :
    Interleaving.Actions PanelState AssemblyTask (Signal AssemblyEvent)
  | .cancelRead id caller, .go _, s => some (s, cancelReadStep id caller s)
  | .cancelPut a caller, .go now, s => some (cancelPutStep a caller now s)
  | .rebuildRead id, .go _, s => some (s, rebuildReadStep id s)
  | .rebuildLog a, .go _, s =>
      some ({ s with store := s.store.putNewLog.1 },
        [.rebuildPut a s.store.putNewLog.2.id])
  | .rebuildPut a logId, .go now, s => some (startBuild (restartedAssembly a logId now) s)
  | .buildLog request technology, .go _, s =>
      some ({ s with store := s.store.putNewLog.1 },
        [.buildPut request technology s.store.putNewLog.2.id])
  | .buildPut request technology logId, .go now, s =>
      some (startBuild (createAssembly request technology logId now
        s.store.assemblies.freshKey) s)
  | .body b position, x, s => bodyStep b position x s
  | .stream b position, x, s => streamStep r b position x s
  | .failure b message position, x, s => failureStep r b message position x s
  | .destroy id run position, x, s => destroyStep id run position x s
  | _, _, _ => none

/-! ## What a step puts -/

/-- The assembly that the next action of a task puts. -/
def AssemblyTask.written (s : PanelState) (now : Nat) : AssemblyTask → Option Assembly
  | .cancelPut currentAssembly _ => some (canceledAssembly currentAssembly now)
  | .rebuildPut assembly logId => some (restartedAssembly assembly logId now)
  | .buildPut request technology logId =>
      some (createAssembly request technology logId now s.store.assemblies.freshKey)
  | .body b .announcePut => some (announcedAssembly b.assembly)
  | .stream _ (.eventPut event) => some (eventAssembly event now)
  | .stream _ (.completePut stored) => some (doneAssembly stored now)
  | .failure _ _ (.put stored) => some (failedAssembly stored now)
  | _ => none

/-- The stored assemblies after a put, if there is one. -/
def PanelState.assembliesAfter (s : PanelState) : Option Assembly → Space Assembly
  | none => s.store.assemblies
  | some a => s.store.assemblies.put a

variable {r : Rendering} {t u : AssemblyTask} {b : Build} {x : Signal AssemblyEvent}
  {s s' : PanelState} {ts : List AssemblyTask} {id : Nat}

theorem bodyStep_assemblies {p : BodyPosition} (h : bodyStep b p x s = some (s', ts)) :
    s'.store.assemblies =
      s.assembliesAfter ((AssemblyTask.body b p).written s x.clock) := by
  revert h
  fun_cases bodyStep b p x s <;> intro h <;>
    simp only [Option.some.injEq, Prod.mk.injEq, reduceCtorEq] at h <;>
    rcases h with ⟨rfl, rfl⟩ <;> rfl

theorem streamStep_assemblies {p : StreamPosition b.assembly.id}
    (h : streamStep r b p x s = some (s', ts)) :
    s'.store.assemblies =
      s.assembliesAfter ((AssemblyTask.stream b p).written s x.clock) := by
  revert h
  fun_cases streamStep r b p x s <;> intro h <;>
    simp only [Option.some.injEq, Prod.mk.injEq, reduceCtorEq] at h <;>
    rcases h with ⟨rfl, rfl⟩ <;> rfl

theorem failureStep_assemblies {m : String} {p : FailurePosition}
    (h : failureStep r b m p x s = some (s', ts)) :
    s'.store.assemblies =
      s.assembliesAfter ((AssemblyTask.failure b m p).written s x.clock) := by
  revert h
  fun_cases failureStep r b m p x s <;> intro h <;>
    simp only [Option.some.injEq, Prod.mk.injEq, reduceCtorEq] at h <;>
    rcases h with ⟨rfl, rfl⟩ <;> rfl

theorem destroyStep_store {run : Nat} {p : DestroyPosition}
    (h : destroyStep id run p x s = some (s', ts)) : s'.store = s.store := by
  revert h
  fun_cases destroyStep id run p x s <;> intro h <;>
    simp only [Option.some.injEq, Prod.mk.injEq, reduceCtorEq] at h <;>
    rcases h with ⟨rfl, rfl⟩ <;> rfl

/-- The stored assemblies change by the put that the task was about to make, and
by nothing else. -/
theorem assemblies_of_step (h : t.step r x s = some (s', ts)) :
    s'.store.assemblies = s.assembliesAfter (t.written s x.clock) := by
  revert h
  fun_cases AssemblyTask.step r t x s <;> intro h
  case case8 => exact bodyStep_assemblies h
  case case9 => exact streamStep_assemblies h
  case case10 => exact failureStep_assemblies h
  case case11 => exact congrArg PanelStore.assemblies (destroyStep_store h)
  all_goals
    simp only [Option.some.injEq, Prod.mk.injEq, reduceCtorEq] at h
  all_goals
    rcases h with ⟨rfl, rfl⟩
    rfl

/-! ## Where a put comes from -/

/-- The assembly id and the run on whose behalf a task works. -/
def AssemblyTask.tag : AssemblyTask → Option (Nat × Nat)
  | .body b _ | .stream b _ | .failure b _ _ => some (b.assembly.id, b.run)
  | .destroy id run _ => some (id, run)
  | _ => none

/-- The id of the assembly whose guard the task has passed, when the task will put
a snapshot of it without looking at the stored assembly again. -/
def AssemblyTask.heldPut : AssemblyTask → Option Nat
  | .body b .announcePut => some b.assembly.id
  | .stream b (.eventLogRead stored event _) =>
      if event.val.assembly.equals stored then none else some b.assembly.id
  | .stream b (.eventLogPut stored event _ _) =>
      if event.val.assembly.equals stored then none else some b.assembly.id
  | .stream b (.eventPut _) => some b.assembly.id
  | .stream _ (.completeLogRead stored) => some stored.id
  | .stream _ (.completePut stored) => some stored.id
  | .failure _ _ (.put stored) => some stored.id
  | _ => none

/-- The id that a rebuild, which has not stored its run yet, is about. -/
def AssemblyTask.rebuilding : AssemblyTask → Option Nat
  | .rebuildRead id => some id
  | .rebuildLog a | .rebuildPut a _ => some a.id
  | .cancelRead _ caller | .cancelPut _ caller => caller.map Assembly.id
  | _ => none

theorem runningAssembly_eq_some {a : Assembly} :
    s.runningAssembly id = some a ↔
      s.store.assemblies.get id = some a ∧ a.isRunning = true :=
  Option.filter_eq_some_iff

/-- The guard reads an assembly of the id that it was asked for. -/
theorem id_of_runningAssembly {a : Assembly} (h : s.runningAssembly id = some a) :
    a.id = id :=
  Space.key_of_get (runningAssembly_eq_some.mp h).1

/-- Where the tasks that continue a task have their held puts from: the task held
the put already, or it has just read that the assembly is running. -/
def HeldFrom (s : PanelState) (t : AssemblyTask) (ts : List AssemblyTask) : Prop :=
  ∀ u ∈ ts, ∀ id ∈ u.heldPut, id ∈ t.heldPut ∨ (s.runningAssembly id).isSome

theorem heldPut_compareEvent {stored : Assembly} {event : AgentEvent b.assembly.id} :
    (compareEvent b stored event).heldPut =
      if event.val.assembly.equals stored then none else some b.assembly.id := by
  unfold compareEvent
  split <;> rfl

attribute [local simp] HeldFrom AssemblyTask.heldPut in
theorem heldFrom_bodyStep {p : BodyPosition} (h : bodyStep b p x s = some (s', ts)) :
    HeldFrom s (.body b p) ts := by
  revert h
  fun_cases bodyStep b p x s <;> intro h <;>
    simp only [Option.some.injEq, Prod.mk.injEq, reduceCtorEq] at h <;>
    rcases h with ⟨rfl, rfl⟩
  case case15 hstored => simp [hstored]
  all_goals simp

theorem heldFrom_streamStep {p : StreamPosition b.assembly.id}
    (h : streamStep r b p x s = some (s', ts)) : HeldFrom s (.stream b p) ts := by
  revert h
  fun_cases streamStep r b p x s <;> intro h <;>
    simp only [Option.some.injEq, Prod.mk.injEq, reduceCtorEq] at h <;>
    rcases h with ⟨rfl, rfl⟩
  -- The two guards of the stream: the event handler's and the completion's.
  case case8 hstored => simp [HeldFrom, AssemblyTask.heldPut, hstored]
  case case9 hstored => simp [HeldFrom, heldPut_compareEvent, hstored]
  case case12 =>
      simp only [HeldFrom, List.mem_singleton, forall_eq, heldPut_compareEvent]
      simp +contextual [AssemblyTask.heldPut]
  case case16 hstored =>
      simp [HeldFrom, AssemblyTask.heldPut, id_of_runningAssembly hstored, hstored]
  all_goals simp +contextual [HeldFrom, AssemblyTask.heldPut]

theorem heldFrom_failureStep {m : String} {p : FailurePosition}
    (h : failureStep r b m p x s = some (s', ts)) : HeldFrom s (.failure b m p) ts := by
  revert h
  fun_cases failureStep r b m p x s <;> intro h <;>
    simp only [Option.some.injEq, Prod.mk.injEq, reduceCtorEq] at h <;>
    rcases h with ⟨rfl, rfl⟩
  case case2 hstored =>
      simp [HeldFrom, AssemblyTask.heldPut, id_of_runningAssembly hstored, hstored]
  all_goals simp [HeldFrom, AssemblyTask.heldPut]

theorem heldFrom_destroyStep {run : Nat} {p : DestroyPosition}
    (h : destroyStep id run p x s = some (s', ts)) : HeldFrom s (.destroy id run p) ts := by
  revert h
  fun_cases destroyStep id run p x s <;> intro h <;>
    simp only [Option.some.injEq, Prod.mk.injEq, reduceCtorEq] at h <;>
    rcases h with ⟨rfl, rfl⟩
  all_goals simp [HeldFrom, AssemblyTask.heldPut]

/-- The tasks that hold nothing they have read from the stored assembly or its log. -/
def AssemblyTask.holdsNothing : AssemblyTask → Bool
  | .stream _ _ | .failure _ _ _ | .body _ .announcePut => false
  | _ => true

attribute [local simp] AssemblyTask.holdsNothing in
theorem heldPut_of_holdsNothing (h : u.holdsNothing = true) : u.heldPut = none := by
  revert h
  fun_cases AssemblyTask.heldPut u <;> simp

theorem holdsNothing_of_tag_none (h : t.tag = none) : t.holdsNothing = true := by
  cases t <;> first | rfl | cases h

theorem holdsNothing_resumeRebuild {caller : Option Assembly} :
    ∀ u ∈ resumeRebuild caller, u.holdsNothing = true := by
  cases caller <;> simp [resumeRebuild, AssemblyTask.holdsNothing]

theorem holdsNothing_cancelReadStep {i : Nat} {caller : Option Assembly} :
    ∀ u ∈ cancelReadStep i caller s, u.holdsNothing = true := by
  fun_cases cancelReadStep i caller s
  case case3 => exact holdsNothing_resumeRebuild
  all_goals simp [AssemblyTask.holdsNothing]

theorem holdsNothing_cancelPutStep {a : Assembly} {caller : Option Assembly} {now : Nat} :
    ∀ u ∈ (cancelPutStep a caller now s).2, u.holdsNothing = true := by
  intro u hu
  rcases List.mem_append.mp hu with hu | hu
  · split at hu
    · rw [List.mem_singleton.mp hu]
      rfl
    · cases hu
  · exact holdsNothing_resumeRebuild u hu

theorem holdsNothing_rebuildReadStep {i : Nat} :
    ∀ u ∈ rebuildReadStep i s, u.holdsNothing = true := by
  fun_cases rebuildReadStep i s <;> simp [AssemblyTask.holdsNothing]

/-- The tasks that continue a request hold nothing. -/
theorem holdsNothing_of_step (h : t.step r x s = some (s', ts))
    (ht : t.tag = none) : ∀ u ∈ ts, u.holdsNothing = true := by
  revert h ht
  fun_cases AssemblyTask.step r t x s <;> intro h ht
  case case8 | case9 | case10 | case11 => cases ht
  all_goals
    simp only [Option.some.injEq, Prod.mk.injEq, reduceCtorEq] at h
  all_goals
    rcases h with ⟨rfl, rfl⟩
  · exact holdsNothing_cancelReadStep
  · exact holdsNothing_cancelPutStep
  · exact holdsNothing_rebuildReadStep
  all_goals simp [AssemblyTask.holdsNothing]

/-- A task comes to hold a put only by reading that the assembly is running. -/
theorem heldFrom_step (h : t.step r x s = some (s', ts)) : HeldFrom s t ts := by
  cases t with
  | body b p => exact heldFrom_bodyStep h
  | stream b p => exact heldFrom_streamStep h
  | failure b m p => exact heldFrom_failureStep h
  | destroy id run p => exact heldFrom_destroyStep h
  | _ =>
      intro u hu id hid
      rw [heldPut_of_holdsNothing (holdsNothing_of_step h rfl u hu)] at hid
      cases hid

/-! ## Runs and rebuilds -/

theorem tag_compareEvent {stored : Assembly} {event : AgentEvent b.assembly.id} :
    (compareEvent b stored event).tag = some (b.assembly.id, b.run) := by
  unfold compareEvent
  split <;> rfl

theorem tag_of_bodyStep {p : BodyPosition} (h : bodyStep b p x s = some (s', ts)) :
    ∀ u ∈ ts, u.tag = some (b.assembly.id, b.run) := by
  revert h
  fun_cases bodyStep b p x s <;> intro h <;>
    simp only [Option.some.injEq, Prod.mk.injEq, reduceCtorEq] at h <;>
    rcases h with ⟨rfl, rfl⟩ <;> simp [AssemblyTask.tag]

theorem tag_of_streamStep {p : StreamPosition b.assembly.id}
    (h : streamStep r b p x s = some (s', ts)) :
    ∀ u ∈ ts, u.tag = some (b.assembly.id, b.run) := by
  revert h
  fun_cases streamStep r b p x s <;> intro h <;>
    simp only [Option.some.injEq, Prod.mk.injEq, reduceCtorEq] at h <;>
    rcases h with ⟨rfl, rfl⟩
  case case9 | case12 => simp [tag_compareEvent]
  all_goals simp [AssemblyTask.tag]

theorem tag_of_failureStep {m : String} {p : FailurePosition}
    (h : failureStep r b m p x s = some (s', ts)) :
    ∀ u ∈ ts, u.tag = some (b.assembly.id, b.run) := by
  revert h
  fun_cases failureStep r b m p x s <;> intro h <;>
    simp only [Option.some.injEq, Prod.mk.injEq, reduceCtorEq] at h <;>
    rcases h with ⟨rfl, rfl⟩ <;> simp [AssemblyTask.tag]

theorem tag_of_destroyStep {run : Nat} {p : DestroyPosition}
    (h : destroyStep id run p x s = some (s', ts)) :
    ∀ u ∈ ts, u.tag = some (id, run) := by
  revert h
  fun_cases destroyStep id run p x s <;> intro h <;>
    simp only [Option.some.injEq, Prod.mk.injEq, reduceCtorEq] at h <;>
    rcases h with ⟨rfl, rfl⟩ <;> simp [AssemblyTask.tag]

/-- A task that works for a run is continued by tasks of that run. -/
theorem tag_of_step (h : t.step r x s = some (s', ts)) {k : Nat × Nat}
    (htag : t.tag = some k) : ∀ u ∈ ts, u.tag = some k := by
  cases t with
  | body b p => exact htag ▸ tag_of_bodyStep h
  | stream b p => exact htag ▸ tag_of_streamStep h
  | failure b m p => exact htag ▸ tag_of_failureStep h
  | destroy id run p => exact htag ▸ tag_of_destroyStep h
  | _ => cases htag

/-- A task that works for a run is not part of a rebuild request. -/
theorem rebuilding_of_tag {k : Nat × Nat} (h : u.tag = some k) : u.rebuilding = none := by
  cases u <;> first | rfl | cases h

theorem id_of_getAssembly {a : Assembly} (h : s.store.getAssembly id = .ok a) :
    a.id = id :=
  Space.key_of_get (PanelStore.getAssembly_eq_ok.mp h)

theorem rebuilding_resumeRebuild {caller : Option Assembly} :
    ∀ u ∈ resumeRebuild caller, u.rebuilding = caller.map Assembly.id := by
  cases caller <;> simp [resumeRebuild, AssemblyTask.rebuilding]

theorem rebuilding_cancelReadStep {caller : Option Assembly} :
    ∀ u ∈ cancelReadStep id caller s, u.rebuilding = caller.map Assembly.id := by
  fun_cases cancelReadStep id caller s
  case case3 => exact rebuilding_resumeRebuild
  all_goals simp [AssemblyTask.rebuilding]

theorem rebuilding_cancelPutStep {a : Assembly} {caller : Option Assembly} {now : Nat} :
    ∀ u ∈ (cancelPutStep a caller now s).2,
      u.rebuilding = none ∨ u.rebuilding = caller.map Assembly.id := by
  intro u hu
  rcases List.mem_append.mp hu with hu | hu
  · left
    split at hu
    · rw [List.mem_singleton.mp hu]
      rfl
    · cases hu
  · exact .inr (rebuilding_resumeRebuild u hu)

theorem rebuilding_rebuildReadStep :
    ∀ u ∈ rebuildReadStep id s, u.rebuilding = some id := by
  fun_cases rebuildReadStep id s
  case case1 => simp
  all_goals
    rename_i hget _
    simp [AssemblyTask.rebuilding, id_of_getAssembly hget]

/-- Only the request makes a task belong to a rebuild. -/
theorem rebuilding_of_step (h : t.step r x s = some (s', ts)) :
    ∀ u ∈ ts, ∀ id ∈ u.rebuilding, id ∈ t.rebuilding := by
  intro u hu id hid
  have htagged : ∀ k, t.tag = some k → id ∈ t.rebuilding := by
    intro k hk
    rw [rebuilding_of_tag (tag_of_step h hk u hu)] at hid
    cases hid
  revert h
  fun_cases AssemblyTask.step r t x s <;> intro h
  case case8 | case9 | case10 | case11 => exact htagged _ rfl
  all_goals
    simp only [Option.some.injEq, Prod.mk.injEq, reduceCtorEq] at h
  all_goals
    rcases h with ⟨rfl, rfl⟩
  · rw [rebuilding_cancelReadStep u hu] at hid
    exact hid
  · rcases rebuilding_cancelPutStep u hu with hnone | hcaller
    · rw [hnone] at hid
      cases hid
    · rw [hcaller] at hid
      exact hid
  · rw [rebuilding_rebuildReadStep u hu] at hid
    exact hid
  all_goals
    simp_all [AssemblyTask.rebuilding]

/-! ## Requests -/

open Interleaving

abbrev BuildConfig := Config PanelState AssemblyTask

/-- What the panel's users may call. -/
def AssemblyTask.isRequest : AssemblyTask → Bool
  | .cancelRead _ none | .rebuildRead _ | .buildLog _ _ => true
  | _ => false

/-- A request works for no run. -/
theorem tag_of_isRequest (h : t.isRequest = true) : t.tag = none := by
  revert h
  fun_cases AssemblyTask.isRequest t <;> intro h <;> first | rfl | cases h

/-- Only requests are added to the pool. -/
def requestsOnly : Label AssemblyTask (Signal AssemblyEvent) → Bool
  | .call t => t.isRequest
  | .act _ _ => true

/-- Only requests are added to the pool, and none to rebuild the assembly. -/
def requestsWithoutRebuild (id : Nat) :
    Label AssemblyTask (Signal AssemblyEvent) → Bool
  | .call t => t.isRequest && t.rebuilding != some id
  | .act _ _ => true

/-- The panel with a store and nothing else going on. -/
def initialConfig (store : PanelStore) : BuildConfig :=
  ⟨{ store := store }, []⟩

/-! ## A sample build -/

namespace SampleBuild

def rendering : Rendering where
  instant := fun _ => "2020-01-01 00:00:00"
  errorColor := fun text => text
  stackTrace := fun message => message

def request : BuildRequest where
  projectId := 1
  version := ⟨"refs/heads/master", "master"⟩
  resourceId := ⟨1, "cluster", .openShift⟩

/-- The first assembly of the panel, announced on its resource. -/
def assembly : Assembly :=
  announcedAssembly (createAssembly request "gradle" 1 0 1)

/-- The last event of a build: the agent sets the end of the announced assembly. -/
def lastEvent : AssemblyEvent where
  assembly := { assembly with endTimeStamp := some 9 }
  logRecord := some "Assembly completed successfully"

/-- Build an assembly up to its subscribed and registered stream. -/
def moves : List (Move AssemblyTask (Signal AssemblyEvent)) :=
  .call (.buildLog request "gradle") :: List.replicate 13 (.act 0 (.go 0)) ++
    [.act 1 (.go 0)]

end SampleBuild

end ArtPlatform
